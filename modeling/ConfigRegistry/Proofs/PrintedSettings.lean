import ConfigRegistry.Proofs.TomlDocuments
import ConfigRegistry.Proofs.TomlIntegers
import ConfigRegistry.Service
import Mathlib.Data.List.Basic

/-!
# Printed settings load back

The settings of a checked file are printed as a document from which they are loaded again
(`Service.prints_what_loads_back`). There are two ways in which nothing is printed: a document
holds no number from `2 ^ 63` on, which only the other kind of file can, and quotes in a row are
counted in a byte.
-/

namespace ConfigRegistry

open Toml (Value Members)

namespace Settings

variable {s : Settings} {ms : Members} {n : UInt64} {t : String}

/-! ## Members -/

/-- The settings that are numbers. -/
def numbers (s : Settings) : List UInt64 :=
  [s.pollIntervalMs, s.eventBatchLimit, s.storeTimeoutMs, s.emitTimeoutMs, s.phantomSweepIntervalSecs,
    s.eventTtlSecs, s.eventCleanupIntervalSecs, s.backupTtlSecs, s.backupCleanupIntervalSecs]

/-- The settings that are free texts. -/
def texts (s : Settings) : List String := s.nodeId :: s.backupDir.toList

/-- A number that needs all of 64 bits, which leaves none for a sign. -/
def Large (n : UInt64) : Prop := 0x8000000000000000 ≤ n.toNat

instance (n : UInt64) : Decidable (Large n) := inferInstanceAs (Decidable (_ ≤ _))

/-- A text with 256 equal quotes in a row. -/
def Crowded (t : String) : Prop :=
  List.replicate 256 '"' <:+: t.toList ∨ List.replicate 256 '\'' <:+: t.toList

instance (t : String) : Decidable (Crowded t) := inferInstanceAs (Decidable (_ ∨ _))

/-- What keeps settings from being printed is in none of them. -/
structure Printable (s : Settings) : Prop where
  numbers : ∀ n ∈ s.numbers, ¬ Large n
  texts : ∀ t ∈ s.texts, ¬ Crowded t

/-- The names of settings in declared order. -/
def names : List String :=
  ["node_id", "poll_interval_ms", "event_batch_limit", "event_fetch_order", "store_timeout_ms",
    "emit_timeout_ms", "phantom_sweep_interval_secs", "event_ttl_secs", "event_cleanup_interval_secs",
    "backup_dir", "backup_ttl_secs", "backup_cleanup_interval_secs", "log_format"]

/-- All settings are members, but for a directory that is not there. -/
theorem names_toMembers (s : Settings) : (s.toMembers.map Prod.fst).Sublist names := by
  cases h : s.backupDir with
  | some dir =>
    have hall : s.toMembers.map Prod.fst = names := by simp [toMembers, h, names]
    exact hall ▸ List.Sublist.refl _
  | none =>
    have hothers : s.toMembers.map Prod.fst = names.erase "backup_dir" := by
      simp [toMembers, h, names]
    exact hothers ▸ List.erase_sublist

theorem isBare_names : ∀ name ∈ names, Toml.IsBare name := by decide +kernel

theorem isBare_of_mem {m : String × Value} (hm : m ∈ s.toMembers) : Toml.IsBare m.1 :=
  isBare_names _ ((names_toMembers s).subset (List.mem_map_of_mem hm))

theorem nodup_toMembers (s : Settings) : (s.toMembers.map Prod.fst).Nodup :=
  (names_toMembers s).nodup (by decide)

/-- What the members hold: the numbers, the texts, and the words for two choices. -/
theorem mem_toMembers {v : Value} : v ∈ s.toMembers.map Prod.snd ↔
    (∃ n ∈ s.numbers, v = ofWord n) ∨ (∃ t ∈ s.texts, v = .string t) ∨
      v = .string s.eventFetchOrder.name ∨ v = .string s.logFormat.name := by
  cases h : s.backupDir <;> simp [toMembers, h, numbers, texts] <;> tauto

theorem word?_ofWord (n : UInt64) : word? (ofWord n) = some n := by
  have hlt : 0 ≤ (n.toNat : Int) ∧ (n.toNat : Int) < UInt64.size :=
    ⟨Int.natCast_nonneg _, Int.ofNat_lt.mpr n.toNat_lt_size⟩
  rw [ofWord, word?, if_pos hlt, Int.toNat_natCast, UInt64.ofNat_toNat]

theorem choice?_order (o : FetchOrder) :
    choice? FetchOrder.all FetchOrder.name (.string o.name) = some o := by
  cases o <;> rfl

theorem choice?_format (f : LogFormat) :
    choice? LogFormat.all LogFormat.name (.string f.name) = some f := by
  cases f <;> rfl

/-- Settings are told from their members. -/
theorem ofMembers?_toMembers (s : Settings) : ofMembers? s.toMembers = some s := by
  obtain ⟨nodeId, poll, limit, order, store, emit, sweep, ttl, cleanup, dir, backupTtl, backupCleanup,
    log⟩ := s
  cases dir <;>
    simp [ofMembers?, toMembers, given, Toml.lookup, word?_ofWord, choice?_order, choice?_format, text?,
      standard]

/-! ## Printing -/

theorem writeScalar?_ofWord : Toml.writeScalar? (ofWord n) = none ↔ Large n := by
  rw [ofWord, Toml.writeScalar?]
  by_cases hlarge : Large n
  · have hle : 0x8000000000000000 ≤ n.toNat := hlarge
    rw [if_pos (.inr (by omega))]
    exact iff_of_true rfl hlarge
  · have hlt : n.toNat < 0x8000000000000000 := Nat.lt_of_not_le hlarge
    rw [if_neg (by omega)]
    exact iff_of_false (Option.some_ne_none _) hlarge

theorem writeScalar?_members (h : ∀ n ∈ s.numbers, ¬ Large n) :
    ∀ v ∈ s.toMembers.map Prod.snd, Toml.writeScalar? v ≠ none := by
  intro v hv
  rcases mem_toMembers.mp hv with ⟨n, hn, rfl⟩ | ⟨t, -, rfl⟩ | rfl | rfl
  · exact mt writeScalar?_ofWord.mp (h n hn)
  · exact Option.some_ne_none _
  · exact Option.some_ne_none _
  · exact Option.some_ne_none _

theorem hasLongRun_string : (Value.string t).hasLongRun = true ↔ Crowded t := Toml.hasLongRun_iff

theorem hasLongRun_members : (∃ v ∈ s.toMembers.map Prod.snd, v.hasLongRun = true) ↔
    ∃ t ∈ s.texts, Crowded t := by
  constructor
  · rintro ⟨v, hv, hlong⟩
    rcases mem_toMembers.mp hv with ⟨n, hn, rfl⟩ | ⟨t, ht, rfl⟩ | rfl | rfl
    · cases hlong
    · exact ⟨t, ht, hasLongRun_string.mp hlong⟩
    · cases h : s.eventFetchOrder <;> rw [h] at hlong <;> cases hlong
    · cases h : s.logFormat <;> rw [h] at hlong <;> cases hlong
  · rintro ⟨t, ht, hcrowded⟩
    exact ⟨_, mem_toMembers.mpr (.inr (.inl ⟨t, ht, rfl⟩)), hasLongRun_string.mpr hcrowded⟩

/-- A number that no document holds is noticed first. -/
theorem toToml_unwritable (h : ∃ n ∈ s.numbers, Large n) :
    s.toToml = .error .unwritable := by
  obtain ⟨n, hn, hlarge⟩ := h
  rw [toToml, Toml.write_unwritable ⟨_, mem_toMembers.mpr (.inl ⟨n, hn, rfl⟩),
    writeScalar?_ofWord.mpr hlarge⟩]
  rfl

theorem toToml_longRun (hnumbers : ∀ n ∈ s.numbers, ¬ Large n)
    (htexts : ∃ t ∈ s.texts, Crowded t) : s.toToml = .error .longRun := by
  rw [toToml, Toml.write_longRun (writeScalar?_members hnumbers) (hasLongRun_members.mpr htexts)]
  rfl

/-- What can be printed is the same when it is read again, also behind a further line end. -/
theorem Printable.toToml (h : s.Printable) :
    ∃ text, s.toToml = .ok text ∧ ofToml? (text ++ "\n") = some s := by
  have hquiet : ∀ v ∈ s.toMembers.map Prod.snd, v.hasLongRun = false := by
    intro v hv
    refine Bool.not_eq_true _ ▸ fun hlong => ?_
    obtain ⟨t, ht, hcrowded⟩ := hasLongRun_members.mp ⟨v, hv, hlong⟩
    exact h.texts t ht hcrowded
  obtain ⟨cs, hwrite⟩ := Toml.write_ok (writeScalar?_members h.numbers) hquiet
  have hread := Toml.read_write (fun _ hm => isBare_of_mem hm) (nodup_toMembers s) hwrite
  refine ⟨String.ofList cs, by rw [Settings.toToml, hwrite]; rfl, ?_⟩
  have hlist : (String.ofList cs ++ "\n").toList = cs ++ ['\n'] := by simp
  rw [ofToml?, hlist, hread, Option.bind_some, ofMembers?_toMembers]

/-! ## Files -/

theorem checked_eq_ok {s' : Settings} : checked s = .ok s' ↔ s.problem? = none ∧ s = s' := by
  unfold checked
  cases s.problem? <;> simp

/-- A file is accepted if it holds a text, this can be decoded, and a node can run with what it
says. -/
theorem ofFile_eq_ok {path : String} {content : Except ReadFault Bytes} :
    ofFile path content = .ok s ↔ ∃ text, content = .ok (Bytes.ofText text) ∧
      decode (ending path) text = .ok s ∧ s.problem? = none := by
  constructor
  · intro h
    unfold ofFile at h
    split at h
    · cases h
    · rename_i bs
      split at h
      · cases h
      · rename_i text htext
        cases hdecode : decode (ending path) text with
        | error fault => rw [hdecode] at h; cases h
        | ok s' =>
          rw [hdecode] at h
          obtain ⟨hproblem, rfl⟩ := checked_eq_ok.mp h
          exact ⟨text, by rw [Bytes.ofText_of_toText? htext], hdecode, hproblem⟩
  · rintro ⟨text, rfl, hdecode, hproblem⟩
    simp only [ofFile, Bytes.toText?_ofText, hdecode]
    exact checked_eq_ok.mpr ⟨hproblem, rfl⟩

theorem decode_toml {ending text : String} (h : ending.map Char.toLower = "toml") :
    decode ending text = .ok s ↔ ofToml? text = some s := by
  unfold decode
  rw [h]
  cases ofToml? text <;> simp

/-! ## Numbers of documents -/

theorem fits_of_lookup {name : String} {v : Value} (hms : Toml.FitAll ms)
    (h : Toml.lookup name ms = some v) : v.Fits := by
  induction ms with
  | nil => cases h
  | cons m ms ih =>
    obtain ⟨hm, hrest⟩ := List.forall_mem_cons.mp hms
    unfold Toml.lookup at h
    split at h
    · exact Option.some.inj h ▸ hm
    · exact ih hrest h

theorem integer_of_word? {v : Value} (h : word? v = some n) : v = .integer n.toNat := by
  unfold word? at h
  split at h
  · obtain ⟨⟨hnonneg, hlt⟩, h⟩ := Option.ite_none_right_eq_some.mp h
    obtain rfl := Option.some.inj h
    rw [UInt64.toNat_ofNat_of_lt' (by omega), Int.toNat_of_nonneg hnonneg]
  · cases h

theorem not_large_of_given {name : String} {standard : UInt64} (hms : Toml.FitAll ms)
    (hstandard : ¬ Large standard) (h : given ms name word? standard = some n) : ¬ Large n := by
  unfold given at h
  split at h
  · exact Option.some.inj h ▸ hstandard
  · rename_i v hlookup
    have hfits := fits_of_lookup hms hlookup
    rw [integer_of_word? h] at hfits
    exact fun hlarge => Nat.not_lt.mpr hlarge (Int.ofNat_lt.mp hfits.2)

theorem numbers_of_toml {text : String} (h : ofToml? text = some s) :
    ∀ n ∈ s.numbers, ¬ Large n := by
  obtain ⟨ms, hread, h⟩ := Option.bind_eq_some_iff.mp h
  have hms := Toml.read_fits hread
  obtain ⟨nodeId, -, h⟩ := Option.bind_eq_some_iff.mp h
  obtain ⟨poll, hpoll, h⟩ := Option.bind_eq_some_iff.mp h
  obtain ⟨limit, hlimit, h⟩ := Option.bind_eq_some_iff.mp h
  obtain ⟨order, -, h⟩ := Option.bind_eq_some_iff.mp h
  obtain ⟨store, hstore, h⟩ := Option.bind_eq_some_iff.mp h
  obtain ⟨emit, hemit, h⟩ := Option.bind_eq_some_iff.mp h
  obtain ⟨sweep, hsweep, h⟩ := Option.bind_eq_some_iff.mp h
  obtain ⟨ttl, httl, h⟩ := Option.bind_eq_some_iff.mp h
  obtain ⟨cleanup, hcleanup, h⟩ := Option.bind_eq_some_iff.mp h
  obtain ⟨dir, -, h⟩ := Option.bind_eq_some_iff.mp h
  obtain ⟨backupTtl, hbackupTtl, h⟩ := Option.bind_eq_some_iff.mp h
  obtain ⟨backupCleanup, hbackupCleanup, h⟩ := Option.bind_eq_some_iff.mp h
  obtain ⟨log, -, h⟩ := Option.bind_eq_some_iff.mp h
  obtain rfl := Option.some.inj h
  have hgiven : ∀ {name : String} {standard n : UInt64}, ¬ Large standard →
      given ms name word? standard = some n → ¬ Large n := not_large_of_given hms
  simp only [numbers, List.forall_mem_cons]
  exact ⟨hgiven (by decide) hpoll, hgiven (by decide) hlimit, hgiven (by decide) hstore,
    hgiven (by decide) hemit, hgiven (by decide) hsweep, hgiven (by decide) httl,
    hgiven (by decide) hcleanup, hgiven (by decide) hbackupTtl, hgiven (by decide) hbackupCleanup,
    fun _ hn => absurd hn List.not_mem_nil⟩

end Settings

/-! ## The program -/

namespace Service

/-- The settings of a file that is accepted are printed, and what is printed is accepted and gives
the same settings. Only numbers that need all of 64 bits, which no document holds, and texts with
256 equal quotes in a row keep them from being printed. -/
theorem prints_what_loads_back (s : Surroundings) (args : List String) (path : String)
    (settings : Settings) (hargs : command s args = .ok (.checkConfig path))
    (hfile : Settings.ofFile path (s.file path) = .ok settings) :
    (settings.Printable → ∃ text, outcome s args = .ends 0 text "" ∧
      ∀ copy, (Settings.ending copy).map Char.toLower = "toml" →
        Settings.ofFile copy (.ok (Bytes.ofText text)) = .ok settings) ∧
    ((∃ n ∈ settings.numbers, Settings.Large n) → outcome s args = .failure "" unprintable) ∧
    ((∀ n ∈ settings.numbers, ¬ Settings.Large n) → (∃ t ∈ settings.texts, Settings.Crowded t) →
      outcome s args = .breakdown) ∧
    ((Settings.ending path).map Char.toLower = "toml" → ∀ n ∈ settings.numbers, ¬ Settings.Large n) := by
  obtain ⟨content, -, hdecode, hproblem⟩ := Settings.ofFile_eq_ok.mp hfile
  refine ⟨fun hprintable => ?printed, fun hlarge => ?large, fun hnumbers hcrowded => ?crowded,
    fun htoml => ?document⟩
  case printed =>
    obtain ⟨text, htext, hback⟩ := hprintable.toToml
    refine ⟨text ++ "\n", ?_, fun copy hcopy => ?_⟩
    · simp only [outcome, hargs, Outcome.ofCommand, hfile, htext]
    · exact Settings.ofFile_eq_ok.mpr ⟨_, rfl, (Settings.decode_toml hcopy).mpr hback, hproblem⟩
  case large =>
    have htoml := Settings.toToml_unwritable hlarge
    simp only [outcome, hargs, Outcome.ofCommand, hfile, htoml]
  case crowded =>
    have htoml := Settings.toToml_longRun hnumbers hcrowded
    simp only [outcome, hargs, Outcome.ofCommand, hfile, htoml]
  case document => exact Settings.numbers_of_toml ((Settings.decode_toml htoml).mp hdecode)

/-- Settings with the largest number that can be printed, and texts with both kinds of quotes, a line
feed, a backslash and a character that has to be escaped. -/
def quoted : Settings :=
  { Settings.standard with
    nodeId := "it's \"\"\" here\n\x07"
    eventTtlSecs := 9223372036854775807
    backupDir := some "C:\\new" }

/-- A file with those settings. -/
def quotedFile : String :=
  "\x7b\"node_id\":\"it's \\\"\\\"\\\" here\\n\\u0007\"," ++
    "\"event_ttl_secs\":9223372036854775807,\"backup_dir\":\"C:\\\\new\"\x7d"

/-- They are printed, and loaded from a document of whatever name. -/
theorem quoted_load_back :
    let s : Surroundings := ⟨fun _ => none, fun _ => .ok (Bytes.ofText quotedFile)⟩
    Settings.ofFile "n.json" (s.file "n.json") = .ok quoted ∧
      ∃ text, outcome s ["check-config", "-c", "n.json"] = .ends 0 text "" ∧
        Settings.ofFile "copies/n.TOML" (.ok (Bytes.ofText text)) = .ok quoted := by
  intro s
  have hfile : Settings.ofFile "n.json" (s.file "n.json") = .ok quoted := by decide +kernel
  have hprintable : quoted.Printable :=
    ⟨Toml.forall_of_all (by decide), Toml.forall_of_all (by decide +kernel)⟩
  obtain ⟨hprinted, -⟩ := prints_what_loads_back s ["check-config", "-c", "n.json"] "n.json" quoted rfl hfile
  obtain ⟨text, houtcome, hback⟩ := hprinted hprintable
  exact ⟨hfile, text, houtcome, hback _ (by decide +kernel)⟩

/-- A file is accepted that is not printed: its number needs all of 64 bits. -/
theorem large_number_not_printed :
    let s : Surroundings :=
      ⟨fun _ => none, fun _ => .ok (Bytes.ofText "\x7b\"event_ttl_secs\":9223372036854775808\x7d")⟩
    (∃ settings, Settings.ofFile "n.json" (s.file "n.json") = .ok settings) ∧
      outcome s ["check-config", "-c", "n.json"] =
        .ends 1 "" "Error: out-of-range value for u64 type\n" := by
  intro s
  have hfile : Settings.ofFile "n.json" (s.file "n.json") =
      .ok { Settings.standard with eventTtlSecs := 9223372036854775808 } := by decide +kernel
  exact ⟨⟨_, hfile⟩, by decide +kernel⟩

end Service

end ConfigRegistry
