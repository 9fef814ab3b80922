import ConfigRegistry.Toml.Document

/-!
# Integers of a document

A document holds no integer that needs more than 64 bits with its sign: none is read from a
number, and the members of the document's top table are what was read, or tables.
-/

namespace ConfigRegistry.Toml

variable {cs rest : List Char} {depth fuel : Nat} {key : String} {v : Value} {ms : Members}

/-! ## Values -/

/-- An integer that a document can hold; other values are not looked at. -/
def Value.Fits : Value → Prop
  | .integer n => -0x8000000000000000 ≤ n ∧ n < 0x8000000000000000
  | _ => True

theorem integer?_fits {k : Int} (h : integer? k = some v) : v.Fits := by
  obtain ⟨hrange, heq⟩ := Option.ite_none_right_eq_some.mp h
  obtain rfl := Option.some.inj heq
  exact hrange

theorem readDecimal_fits {negative : Bool} {spelling : List Char}
    (h : readDecimal negative spelling cs = some (v, rest)) : v.Fits := by
  obtain ⟨⟨whole, cs⟩, -, h⟩ := Option.bind_eq_some_iff.mp h
  obtain ⟨-, h⟩ := Option.ite_none_right_eq_some.mp h
  obtain ⟨⟨fraction, cs⟩, -, h⟩ := Option.bind_eq_some_iff.mp h
  obtain ⟨⟨⟨down, exponent⟩, cs⟩, -, h⟩ := Option.bind_eq_some_iff.mp h
  dsimp only at h
  by_cases hwhole : fraction = [] ∧ exponent = []
  · rw [if_pos hwhole] at h
    obtain ⟨v', hv, hpair⟩ := Option.map_eq_some_iff.mp h
    obtain ⟨rfl, -⟩ := Prod.mk.inj hpair
    exact integer?_fits hv
  · rw [if_neg hwhole] at h
    obtain ⟨rfl, -⟩ := Prod.mk.inj (Option.some.inj (Option.ite_none_left_eq_some.mp h).2)
    trivial

theorem readSpecial_fits {spelling : List Char} (h : readSpecial spelling cs = some (v, rest)) :
    v.Fits := by
  obtain ⟨rfl, -⟩ := Prod.mk.inj (Option.some.inj (Option.ite_none_right_eq_some.mp h).2)
  trivial

theorem readNumber_fits (h : readNumber cs = some (v, rest)) : v.Fits := by
  unfold readNumber at h
  split at h
  · split at h
    · obtain ⟨⟨run, cs⟩, -, h⟩ := Option.bind_eq_some_iff.mp h
      obtain ⟨v', hv, hpair⟩ := Option.map_eq_some_iff.mp h
      obtain ⟨rfl, -⟩ := Prod.mk.inj hpair
      exact integer?_fits hv
    · exact readDecimal_fits h
  · dsimp only at h
    split at h
    · rename_i hspecial
      exact readSpecial_fits (hspecial.trans h)
    · exact readDecimal_fits h

theorem readScalar_fits (h : readScalar cs = some (v, rest)) : v.Fits := by
  unfold readScalar at h
  split at h
  · cases h
  · split at h
    · obtain ⟨⟨s, cs⟩, -, hpair⟩ := Option.map_eq_some_iff.mp h
      obtain ⟨rfl, -⟩ := Prod.mk.inj hpair
      trivial
    · split at h
      · rcases Option.or_eq_some_iff.mp h with hmoment | ⟨-, hnumber⟩
        · obtain ⟨cs, -, hpair⟩ := Option.map_eq_some_iff.mp hmoment
          obtain ⟨rfl, -⟩ := Prod.mk.inj hpair
          trivial
        · exact readNumber_fits hnumber
      · unfold readWord at h
        split at h
        · obtain ⟨rfl, -⟩ := Prod.mk.inj (Option.some.inj h)
          trivial
        · split at h
          · obtain ⟨rfl, -⟩ := Prod.mk.inj (Option.some.inj h)
            trivial
          · exact readSpecial_fits h

theorem readValue_fits (h : readValue depth cs = some (v, rest)) : v.Fits := by
  cases depth with
  | zero => exact readScalar_fits h
  | succ depth =>
    unfold readValue at h
    split at h
    · obtain ⟨⟨vs, cs⟩, -, hpair⟩ := Option.map_eq_some_iff.mp h
      obtain ⟨rfl, -⟩ := Prod.mk.inj hpair
      trivial
    · unfold readTable at h
      split at h
      · obtain ⟨rfl, -⟩ := Prod.mk.inj (Option.some.inj h)
        trivial
      · obtain ⟨⟨ms, cs⟩, -, h⟩ := Option.bind_eq_some_iff.mp h
        obtain ⟨ms', -, hpair⟩ := Option.map_eq_some_iff.mp h
        obtain ⟨rfl, -⟩ := Prod.mk.inj hpair
        trivial
    · exact readScalar_fits h

/-- The value of a member is one that a document can hold. -/
def Line.Fits : Line → Prop
  | .member _ v => v.Fits
  | _ => True

theorem readLine_fits {line : Line} (h : readLine cs = some (line, rest)) : line.Fits := by
  unfold readLine at h
  split at h
  · obtain ⟨⟨key, cs⟩, -, h⟩ := Option.bind_eq_some_iff.mp h
    dsimp only at h
    split at h
    · obtain ⟨rfl, -⟩ := Prod.mk.inj (Option.some.inj h)
      trivial
    · cases h
  · obtain ⟨⟨key, cs⟩, -, h⟩ := Option.bind_eq_some_iff.mp h
    dsimp only at h
    split at h
    · obtain ⟨rfl, -⟩ := Prod.mk.inj (Option.some.inj h)
      trivial
    · cases h
  · obtain ⟨⟨⟨key, v⟩, cs⟩, hmember, hpair⟩ := Option.map_eq_some_iff.mp h
    obtain ⟨rfl, -⟩ := Prod.mk.inj hpair
    obtain ⟨⟨key', cs⟩, -, hmember⟩ := Option.bind_eq_some_iff.mp hmember
    dsimp only at hmember
    split at hmember
    · obtain ⟨⟨v', cs⟩, hv, hpair⟩ := Option.map_eq_some_iff.mp hmember
      obtain ⟨hmember, -⟩ := Prod.mk.inj hpair
      obtain ⟨-, rfl⟩ := Prod.mk.inj hmember
      exact readValue_fits hv
    · cases hmember

theorem readLines_fits {lines : List Line} (h : readLines fuel cs = some lines) :
    ∀ line ∈ lines, line.Fits := by
  induction fuel generalizing cs lines with
  | zero => cases h
  | succ fuel ih =>
    unfold readLines at h
    split at h
    · obtain rfl := Option.some.inj h
      exact fun _ hline => absurd hline List.not_mem_nil
    · split at h
      · exact ih h
      · obtain ⟨⟨line, cs⟩, hline, h⟩ := Option.bind_eq_some_iff.mp h
        obtain ⟨cs, -, h⟩ := Option.bind_eq_some_iff.mp h
        obtain ⟨lines, hlines, rfl⟩ := Option.map_eq_some_iff.mp h
        exact List.forall_mem_cons.mpr ⟨readLine_fits hline, ih hlines⟩

/-! ## Tables -/

/-- The values of members are such that a document can hold. -/
def FitAll (ms : Members) : Prop := ∀ m ∈ ms, m.2.Fits

theorem fitAll_append {new : Members} (h : FitAll ms) (hnew : FitAll new) : FitAll (ms ++ new) :=
  List.forall_mem_append.mpr ⟨h, hnew⟩

theorem fitAll_single (h : v.Fits) : FitAll [(key, v)] := List.forall_mem_singleton.mpr h

theorem fitAll_replace (h : FitAll ms) (hv : v.Fits) : FitAll (replace key v ms) := by
  induction ms with
  | nil => exact h
  | cons m ms ih =>
    obtain ⟨hm, hrest⟩ := List.forall_mem_cons.mp h
    unfold replace
    split
    · exact List.forall_mem_cons.mpr ⟨hv, hrest⟩
    · exact List.forall_mem_cons.mpr ⟨hm, ih hrest⟩

theorem fitAll_remove (h : FitAll ms) : FitAll (remove key ms) :=
  fun m hm => h m (List.mem_filter.mp hm).1

/-- A change further down puts a table in place of a table. -/
theorem fitAll_alter {via origin : Origin} {change : Origin → Members → Option Members}
    {path : List String} {ms' : Members} (hms : FitAll ms)
    (hchange : ∀ origin ms', path = [] → change origin ms = some ms' → FitAll ms')
    (h : alter via change path origin ms = some ms') : FitAll ms' := by
  cases path with
  | nil => exact hchange origin ms' rfl h
  | cons key path =>
    unfold alter at h
    split at h
    · obtain ⟨inner, -, rfl⟩ := Option.map_eq_some_iff.mp h
      exact fitAll_append hms (fitAll_single trivial)
    · obtain ⟨inner, -, rfl⟩ := Option.map_eq_some_iff.mp (Option.ite_none_right_eq_some.mp h).2
      exact fitAll_replace hms trivial
    · split at h
      · cases h
      · obtain ⟨row, -, rfl⟩ := Option.map_eq_some_iff.mp h
        exact fitAll_replace hms trivial
    · cases h

theorem fitAll_addMember {k : Key} {ms' : Members} (hms : FitAll ms) (hv : v.Fits)
    (h : addMember ms k v = some ms') : FitAll ms' := by
  refine fitAll_alter hms (fun origin ms' _ hadd => ?_) h
  obtain ⟨-, hadd⟩ := Option.ite_none_left_eq_some.mp hadd
  obtain ⟨-, hadd⟩ := Option.ite_none_left_eq_some.mp hadd
  obtain rfl := Option.some.inj hadd
  exact fitAll_append hms (fitAll_single hv)

theorem fitAll_addMembers {new : List (Key × Value)} {ms' : Members} (hms : FitAll ms)
    (hnew : ∀ m ∈ new, m.2.Fits) (h : addMembers ms new = some ms') : FitAll ms' := by
  induction new generalizing ms with
  | nil =>
    obtain rfl := Option.some.inj h
    exact hms
  | cons m new ih =>
    obtain ⟨hm, hrest⟩ := List.forall_mem_cons.mp hnew
    obtain ⟨root, hadd, h⟩ := Option.bind_eq_some_iff.mp h
    exact ih (fitAll_addMember hms hm hadd) hrest h

theorem fitAll_placeSection {s : Section} {ms' : Members} (hms : FitAll ms)
    (h : placeSection s ms = some ms') : FitAll ms' := by
  unfold placeSection at h
  split at h
  · obtain ⟨inner, -, rfl⟩ := Option.map_eq_some_iff.mp h
    exact fitAll_append hms (fitAll_single trivial)
  · obtain ⟨inner, -, rfl⟩ := Option.map_eq_some_iff.mp h
    exact fitAll_append (fitAll_remove hms) (fitAll_single trivial)
  · obtain ⟨inner, -, rfl⟩ := Option.map_eq_some_iff.mp h
    exact fitAll_append hms (fitAll_single trivial)
  · obtain ⟨inner, -, rfl⟩ := Option.map_eq_some_iff.mp h
    exact fitAll_replace hms trivial
  · cases h

theorem fitAll_addSections {ss : List Section} {ms' : Members} (hms : FitAll ms)
    (h : addSections ms ss = some ms') : FitAll ms' := by
  induction ss generalizing ms with
  | nil =>
    obtain rfl := Option.some.inj h
    exact hms
  | cons s ss ih =>
    obtain ⟨root, hadd, h⟩ := Option.bind_eq_some_iff.mp h
    exact ih (fitAll_alter hms (fun _ _ _ hplace => fitAll_placeSection hms hplace) hadd) h

theorem sections_fit {lines : List Line} (h : ∀ line ∈ lines, line.Fits) :
    ∀ m ∈ (sections lines).1, m.2.Fits := by
  induction lines with
  | nil => exact fun _ hm => absurd hm List.not_mem_nil
  | cons line lines ih =>
    obtain ⟨hline, hrest⟩ := List.forall_mem_cons.mp h
    cases line with
    | member key v => exact List.forall_mem_cons.mpr ⟨hline, ih hrest⟩
    | table key => exact fun _ hm => absurd hm List.not_mem_nil
    | row key => exact fun _ hm => absurd hm List.not_mem_nil

/-- Every integer in the top table of a document has 64 bits. -/
theorem read_fits (h : read cs = some ms) : FitAll ms := by
  obtain ⟨lines, hlines, h⟩ := Option.bind_eq_some_iff.mp h
  obtain ⟨root, hroot, h⟩ := Option.bind_eq_some_iff.mp h
  -- the top table starts empty, takes the members before the first heading, then the sections
  refine fitAll_addSections (fitAll_addMembers (fun _ hm => absurd hm List.not_mem_nil) ?_ hroot) h
  exact sections_fit (readLines_fits hlines)

end ConfigRegistry.Toml
