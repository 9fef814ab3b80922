import ConfigRegistry.Proofs.Declarations
import ConfigRegistry.Proofs.WrittenStrings

/-!
# Variables of a first config

The first config of a module is linked to the variables that its text refers to, all of which are
defined. The text is that of the declared default, so what a string of the default refers to is
linked as far as it is found in the text (`Lifecycle.Carried`): everything that needs no escape, if
all strings and keys of the default close what they open.
-/

namespace ConfigRegistry

open Bytes Template
open Json (Bare Value written writeString)

namespace Template

/-- A text refers to a name by characters that stand for themselves in a literal. -/
def Plainly (text : List Char) (name : String) : Prop :=
  ∃ refs tail ref, Scanned opening closing text refs tail ∧ ref ∈ refs ∧
    nameOf? ref.2 = some name ∧ ∀ c ∈ ref.2, Bare c

/-- A text refers to the name in its first pair of braces. -/
theorem plainly_of_cut {text before body inner rest : List Char} {name : String}
    (hopen : cutPair '\x7b' text = some (before, body)) (hclose : cutPair '\x7d' body = some (inner, rest))
    (hname : nameOf? inner = some name) (hbare : inner.all (decide <| Bare ·) = true) : Plainly text name := by
  obtain ⟨refs, tail, hrest⟩ := exists_refs rest
  exact ⟨_, _, _, .closes (cutPair_parted hopen) (cutPair_parted hclose) hrest, List.mem_cons_self,
    hname, fun c hc => of_decide_eq_true (List.all_eq_true.mp hbare c hc)⟩

end Template

namespace Lifecycle

/-- What of the names that a string of a value refers to is linked to the value's text. -/
structure Carried (value : Value) (text : String) (names linked : List String) : Prop where
  placed : ∃ before after, value.write = before ++ writeString text ++ after
  /-- Wherever the string stands: what is reached there is linked by the name as it is written. -/
  reached : ∀ before after refs tail, value.write = before ++ writeString text ++ after →
    Scanned opening closing text.toList refs tail → ∀ ref, Reached before refs ref →
    ∀ name, nameOf? (written ref.2) = some name → name ∈ linked
  closed : value.Closes → ∀ name ∈ names, Plainly text.toList name → name ∈ linked

theorem carried {value : Value} {text : String} {names linked : List String}
    (hlinked : variableNames value.write = .ok linked) (ht : Value.Within (.string text) value) :
    Carried value text names linked where
  placed := by
    obtain ⟨before, after, hwrite, -⟩ := ht.placed
    exact ⟨before, after, hwrite⟩
  reached := fun _ _ _ _ hwrite hscan _ hr _ hname => found_in_literal hwrite hlinked hscan hr hname
  closed := by
    rintro hcloses name - ⟨refs, tail, ref, hscan, href, hname, hbare⟩
    obtain ⟨before, after, hwrite, hquiet⟩ := ht.placed
    refine found_in_literal hwrite hlinked hscan ⟨href, .inl (hquiet hcloses).closes⟩ ?_
    rw [Json.written_bare hbare]
    exact hname

/-- Whatever default a module without an active config declares: if the declaration succeeds, a config of
that text was created, the variables linked to it are defined, and they include what the strings of
the default refer to, as far as it is found in the text. -/
theorem default_carries (n : Nat) (p : Place) (s : Session) (d : ConfigSchemaDeclaration) (m : ModuleId)
    (w : World) (underway : Delivery → Prop) (hw : w.Still)
    (hm : (w.peer s).context.moduleId = some m)
    (hnone : ∀ c ∈ w.store.live.configs, c.moduleId = m → c.active = false) :
    (onConfigSchema p s d).Ensures n underway (fun o v => o = some (.ok ()) →
      ∃ c ∈ v.store.live.configs, c.id = .nth (w.issued + 1) ∧ c.moduleId = m ∧ c.active = true ∧
        c.data = d.defaultConfig.write ∧
        (∀ name ∈ v.store.live.linkedVariables c.id, w.store.live.defines name = true) ∧
        ∀ text names, Value.Within (.string text) d.defaultConfig →
          variableNames (ofText text) = .ok names →
          Carried d.defaultConfig text names (v.store.live.linkedVariables c.id)) w := by
  refine (ensures_onConfigSchema hw).mono ?_
  rintro o v hd rfl
  cases hd with
  | refused _ ho => exact absurd rfl (ho ())
  | invalid _ _ _ _ ho => exact absurd rfl (ho ())
  | missed _ _ _ _ _ ho => rcases ho with ho | ⟨e, ho⟩ <;> cases ho
  | @joins m' now c t v hm' _ hc haside _ =>
    obtain rfl : m' = m := Option.some.inj (hm'.symm.trans hm)
    cases hc with
    | found hfound =>
      have hinactive : w.store.live.activeConfig m' = none := Tables.activeConfig_eq_none.mpr hnone
      exact absurd (hfound.symm.trans hinactive) (Option.some_ne_none c)
    | created _ hc =>
      obtain ⟨linked, hlinked, hmissing, rfl⟩ := hc.stored
      have hlive := haside.live
      have hnames : v.store.live.linkedVariables c.id = linked := by
        rw [hlive]
        exact Tables.linkedVariables_put rfl
      refine ⟨c, ?_, hc.id, hc.isModule, hc.active, hc.data, fun name hname => ?_, fun text names ht _ => ?_⟩
      · change c ∈ v.store.live.configs
        rw [hlive]
        exact Table.mem_put.mpr (.inr rfl)
      · change name ∈ v.store.live.linkedVariables c.id at hname
        rw [hnames] at hname
        exact Tables.defines_of_missing hmissing hname
      · change Carried _ _ _ (v.store.live.linkedVariables c.id)
        rw [hnames]
        exact carried hlinked ht

/-- A text with a brace before its reference. -/
def salute : String := "\"\x7b\" \x7b\x7b var:x \x7d\x7d"

/-- A default with a key that needs an escape. -/
def greeting : Value :=
  .object [("hello\n", .array [.null, .string salute])]

theorem salute_names : variableNames (ofText salute) = .ok ["x"] := by decide +kernel

theorem greeting_closes : greeting.Closes where
  strings := by
    rintro text (_ | _ | ⟨hv, ht⟩)
    obtain ⟨-, rfl⟩ := Prod.mk.inj (List.mem_singleton.mp hv)
    rcases ht with _ | ⟨hv, ht⟩
    rcases List.mem_cons.mp hv with rfl | hv
    · cases ht
    · obtain rfl := List.mem_singleton.mp hv
      cases ht
      exact ⟨_, salute_names⟩
  keys := by
    have hkey : variableNames (ofText "hello\n") = .ok [] := by decide +kernel
    rintro members (_ | _ | ⟨hv, ht⟩) m hm
    · obtain rfl := List.mem_singleton.mp hm
      exact ⟨_, hkey⟩
    obtain ⟨-, rfl⟩ := Prod.mk.inj (List.mem_singleton.mp hv)
    rcases ht with _ | ⟨hv, ht⟩
    rcases List.mem_cons.mp hv with rfl | hv
    · cases ht
    · obtain rfl := List.mem_singleton.mp hv
      cases ht

/-- The reference in the greeting needs no escape, so its variable is linked. -/
theorem greeting_carried :
    let p : Place := ⟨⟨"n1"⟩, ⟨2000, 2000⟩⟩
    let s : Session := ⟨0, ⟨"c1"⟩⟩
    ∃ c v, unconfigured.run 0 (onConfigSchema p s ⟨"1", .object [], greeting⟩).outcome =
        .finished v (.ok ()) ∧
      c ∈ v.store.live.configs ∧ c.data = greeting.write ∧ "x" ∈ v.store.live.linkedVariables c.id := by
  intro p s
  have hnames : variableNames greeting.write = .ok ["x"] := by decide +kernel
  have hl : Listening 0 s default unconfigured := ⟨rfl, rfl, rfl⟩
  obtain ⟨-, v, hrun, -⟩ := exists_founded (p := p) (d := ⟨"1", .object [], greeting⟩) ⟨rfl, rfl⟩ hl rfl
    hnames (by decide)
  obtain ⟨c, hc, -, -, -, hdata, -, hcarried⟩ :=
    (default_carries 0 p s ⟨"1", .object [], greeting⟩ default unconfigured (fun _ => False) ⟨rfl, rfl⟩ rfl
      (by decide)).of_run hrun rfl
  have hwithin : Value.Within (.string salute) greeting :=
    .member List.mem_cons_self (.item (List.mem_cons_of_mem _ List.mem_cons_self) .self)
  exact ⟨c, v, hrun, hc, hdata, (hcarried _ _ hwithin salute_names).closed greeting_closes "x"
    List.mem_cons_self (plainly_of_cut rfl rfl rfl rfl)⟩

/-- Of what strings of a default refer to, everything to such an extent is linked to the config that is
created for a module without any. -/
def Links (extent : Value → String → String → Prop) : Prop :=
  ∀ (n : Nat) (p : Place) (s : Session) (d : ConfigSchemaDeclaration) (m : ModuleId) (w v : World),
    w.Still → (w.peer s).context.moduleId = some m → (∀ c ∈ w.store.live.configs, c.moduleId ≠ m) →
    w.run n (onConfigSchema p s d).outcome = .finished v (.ok ()) →
    ∀ c ∈ v.store.live.configs, c ∉ w.store.live.configs →
      ∀ text names, Value.Within (.string text) d.defaultConfig →
        variableNames (ofText text) = .ok names →
        ∀ name ∈ names, extent d.defaultConfig text name → name ∈ v.store.live.linkedVariables c.id

/-- A store without configs, and a session of a module at the only node. -/
def vacant : World :=
  let session : Session := ⟨0, ⟨"c1"⟩⟩
  { World.initial default with
    nodes := [{ (default : NodeState) with rooms := ⟨[session], []⟩ }]
    peers := [⟨session.conn, .record, ⟨some default, some "auth", none⟩, 0⟩] }

/-- A default in whose text nothing is referred to, with a string that does refer to something. -/
theorem not_links {extent : Value → String → String → Prop} {value : Value} {text name : String}
    (hnone : variableNames value.write = .ok []) (hwithin : Value.Within (.string text) value)
    (htext : variableNames (ofText text) = .ok [name]) (hextent : extent value text name) :
    ¬ Links extent := by
  intro hlinks
  let p : Place := ⟨⟨"n1"⟩, ⟨2000, 2000⟩⟩
  let d : ConfigSchemaDeclaration := ⟨"1", .object [], value⟩
  have hl : Listening 0 ⟨0, ⟨"c1"⟩⟩ default vacant := ⟨rfl, rfl, rfl⟩
  obtain ⟨c, v, hrun, hfounded⟩ := exists_founded (p := p) (d := d) ⟨rfl, rfl⟩ hl rfl hnone nofun
  have hc : c ∈ v.store.live.configs := by
    rw [hfounded.configs]
    exact Table.mem_put.mpr (.inr rfl)
  have hlinked := hlinks 0 p _ d default vacant v ⟨rfl, rfl⟩ rfl nofun hrun c hc nofun
    _ _ hwithin htext name List.mem_cons_self hextent
  rw [hfounded.linked.1] at hlinked
  cases hlinked

/-- A tab in a reference is escaped in the text, where the reference is none any more. -/
def tabbed : String := "\x7b\x7b\tvar:x\x7d\x7d"

theorem tabbed_closes : (Value.string tabbed).Closes where
  strings := by
    rintro text (_ | _)
    exact ⟨["x"], by decide +kernel⟩
  keys := by
    rintro members (_ | _)

/-- References are missed: one with a tab though everything is closed, and one that needs no escape behind
a string that leaves a pair of braces open. -/
theorem references_missed :
    ¬ Links (fun _ _ _ => True) ∧
    ¬ Links (fun value _ _ => value.Closes) ∧
    ¬ Links (fun _ text name => Plainly text.toList name) := by
  have htabbed : variableNames (Value.string tabbed).write = .ok [] := by decide +kernel
  have htext : variableNames (ofText tabbed) = .ok ["x"] := by decide +kernel
  have hopened : variableNames
      (Value.array [.string "\x7b\x7b", .string "\x7b\x7bvar:x\x7d\x7d"]).write = .ok [] := by decide +kernel
  have hplain : variableNames (ofText "\x7b\x7bvar:x\x7d\x7d") = .ok ["x"] := by decide +kernel
  exact ⟨not_links htabbed .self htext trivial, not_links htabbed .self htext tabbed_closes,
    not_links hopened (.item (List.mem_cons_of_mem _ List.mem_cons_self) .self) hplain
      (plainly_of_cut rfl rfl rfl rfl)⟩

end Lifecycle

end ConfigRegistry
