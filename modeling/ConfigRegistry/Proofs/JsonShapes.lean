import ConfigRegistry.Json.Shape
import ConfigRegistry.Proofs.JsonValues
import ConfigRegistry.Proofs.UuidText
import Mathlib.Data.List.Forall2
import Mathlib.Data.List.Nodup

/-!
# Values of a shape are read back

A value in the normal form of a shape (`Shape.Holds`) is read back by the shape
(`Shape.Holds.read`). A record is read field by field, so it is enough that every field
reads its own member (`readRecord_write`); conversely every member of a record that was
read comes from its field or is what stands for a missing one (`readRecord_given`).
-/

namespace ConfigRegistry.Json

open Decimal

variable {bs rest : Bytes} {d depth n bits : Nat} {v : Value} {vs : List Value} {s : Shape}
  {slots : List ReadSlot} {ms seen : List Member} {key : String}

/-! ## Single values -/

theorem readSpelled_write {take : String → Option Value} {text : String} (h : take text = some v)
    (rest : Bytes) :
    readSpelled take (writeString text ++ rest) = .ok (v, rest) := by
  obtain ⟨tail, hwrite, htext⟩ := readText_writeString text
  simp [readSpelled, hwrite, skipBlanks_quote, htext, h]

theorem readNatural_write {n : UInt64} (hn : n.toNat < 1 <<< bits) (hrest : EndsNumber rest) :
    readNatural bits ((Value.natural n).write ++ rest) = .ok (.natural n, rest) := by
  have hread := readNumber_natural n hrest
  obtain ⟨b, ds, hcons, hb, -⟩ := digits_cons n.toNat
  rw [hcons, List.cons_append] at hread
  simp [Value.natural, Value.write, writeNumber, readNatural, hcons, (opening_digit hb).1.skipBlanks,
    startsNumber, hb, hread, hn]

theorem readFlag_write (b : Bool) : readFlag ((Value.bool b).write ++ rest) = .ok (.bool b, rest) := by
  cases b <;> simp [Value.write, readFlag, skipBlanks, readWord, trueTail, falseTail, Except.map]

theorem readNullable_null (inner : Reader Value) :
    readNullable inner (Value.null.write ++ rest) = .ok (.null, rest) := by
  simp [Value.write, readNullable, skipBlanks, readWord, nullTail, Except.map]

theorem readNullable_write {inner : Reader Value} (hnull : v ≠ .null)
    (h : inner (v.write ++ rest) = .ok (v, rest)) :
    readNullable inner (v.write ++ rest) = .ok (v, rest) := by
  obtain ⟨b, tail, hwrite, hb, hn⟩ := v.write_head
  have hne : b ≠ 0x6E := fun he => hnull (hn he)
  rw [hwrite, List.cons_append] at h ⊢
  simp [readNullable, hb.skipBlanks, hne, h]

theorem readList_write {item : Nat → Reader Value}
    (h : ∀ v ∈ vs, ∀ rest, EndsNumber rest → item d (v.write ++ rest) = .ok (v, rest)) (rest : Bytes) :
    readList item (d + 1) ((Value.array vs).write ++ rest) = .ok (.array vs, rest) := by
  rw [Value.write_array, List.cons_append, readList]
  simp only [skipBlanks_bracket, if_true, readItems_writeItems h]
  rfl

theorem readBlob_write (h : ∀ v ∈ vs, ∃ b : UInt8, v = .natural (UInt64.ofNat b.toNat)) :
    readBlob (d + 1) ((Value.array vs).write ++ rest) = .ok (.array vs, rest) := by
  have hitem : ∀ v ∈ vs, ∀ rest, EndsNumber rest → readNatural 8 (v.write ++ rest) = .ok (v, rest) := by
    intro v hv rest hrest
    obtain ⟨b, rfl⟩ := h v hv
    have hb : b.toNat < 256 := b.toNat_lt_size
    refine readNatural_write ?_ hrest
    rw [UInt64.toNat_ofNat_of_lt' (by rw [UInt64.size]; omega)]
    exact hb
  have hlist : readList (fun _ => readNatural 8) (d + 1) ((Value.array vs).write ++ rest) =
      .ok (.array vs, rest) := readList_write hitem rest
  rw [Value.write_array, List.cons_append] at hlist ⊢
  simp [readBlob, skipBlanks_bracket, hlist]

theorem readChoice_write {names : List String} {name : String} (h : name ∈ names) :
    readChoice names depth ((Value.string name).write ++ rest) = .ok (.string name, rest) := by
  have hname : nameValue names name = some (.string name) := if_pos h
  have hspelled := readSpelled_write hname rest
  rw [writeString, List.cons_append] at hspelled
  simp only [Value.write, writeString, List.cons_append, readChoice, skipBlanks_quote, if_true,
    hspelled]

/-! ## Records -/

/-- A field reads its member. -/
def Reads (d : Nat) (slot : ReadSlot) (m : Member) : Prop :=
  slot.key = m.1 ∧ ∀ rest, EndsNumber rest → slot.take d (m.2.write ++ rest) = .ok (m.2, rest)

theorem lookup_of_mem (hkeys : (ms.map (·.1)).Nodup) (hm : (key, v) ∈ ms) : lookup key ms = some v := by
  induction ms with
  | nil => cases hm
  | cons m ms ih =>
    obtain ⟨k, w⟩ := m
    obtain ⟨hk, hkeys⟩ := List.nodup_cons.mp hkeys
    rcases List.mem_cons.mp hm with he | hm
    · cases he
      exact if_pos rfl
    · have hne : k ≠ key := fun he => hk (List.mem_map.mpr ⟨_, hm, he.symm⟩)
      rw [lookup, if_neg hne]
      exact ih hkeys hm

theorem mem_of_lookup (h : lookup key ms = some v) : (key, v) ∈ ms := by
  induction ms with
  | nil => cases h
  | cons m ms ih =>
    obtain ⟨k, w⟩ := m
    rw [lookup] at h
    split at h
    case isTrue hk =>
      cases hk
      cases h
      exact List.mem_cons_self
    case isFalse => exact List.mem_cons_of_mem _ (ih h)

theorem find?_slot {slot : ReadSlot} (hkeys : (slots.map (·.key)).Nodup) (h : slot ∈ slots) :
    slots.find? (·.key = slot.key) = some slot := by
  induction slots with
  | nil => cases h
  | cons x slots ih =>
    obtain ⟨hx, hkeys⟩ := List.nodup_cons.mp hkeys
    rcases List.mem_cons.mp h with rfl | h
    · simp
    · have hne : x.key ≠ slot.key := fun he => hx (List.mem_map.mpr ⟨_, h, he.symm⟩)
      rw [List.find?_cons_of_neg (by simpa using hne)]
      exact ih hkeys h

/-- Members whose fields read them are gathered one after the other. -/
theorem gathers_fields {fields : List ReadSlot} (h : List.Forall₂ (Reads d) fields ms)
    (hfind : ∀ slot ∈ fields, slots.find? (·.key = slot.key) = some slot)
    (hkeys : (ms.map (·.1)).Nodup) (hseen : ∀ m ∈ ms, lookup m.1 seen = none) :
    Gathers (readField slots d) seen ms (ms.reverse ++ seen) := by
  induction h generalizing seen with
  | nil => exact .nil seen
  | @cons slot m fields ms hread hmore ih =>
    obtain ⟨k, v⟩ := m
    obtain ⟨rfl, htake⟩ := hread
    obtain ⟨hk, hkeys⟩ := List.nodup_cons.mp hkeys
    have hslot := hfind slot List.mem_cons_self
    have hnone : lookup slot.key seen = none := hseen _ List.mem_cons_self
    have hmember : ∀ rest, EndsNumber rest →
        readField slots d seen slot.key (0x3A :: (v.write ++ rest)) =
          .ok ((slot.key, v) :: seen, rest) := by
      intro rest hrest
      simp only at htake
      simp [readField, hslot, hnone, readColon, skipBlanks, htake rest hrest, Except.map]
    have hlater : ∀ m ∈ ms, lookup m.1 ((slot.key, v) :: seen) = none := by
      intro m hm
      have hne : slot.key ≠ m.1 := fun he => hk (List.mem_map.mpr ⟨m, hm, he.symm⟩)
      rw [lookup, if_neg hne]
      exact hseen m (List.mem_cons_of_mem _ hm)
    have hrest := ih (fun slot hs => hfind slot (List.mem_cons_of_mem _ hs)) hkeys hlater
    rw [List.reverse_cons, List.append_assoc]
    exact .cons hmember hrest

theorem completeFields_given (h : List.Forall₂ (fun slot m => slot.key = m.1) slots ms)
    (hseen : ∀ m ∈ ms, lookup m.1 seen = some m.2) : completeFields seen slots = some ms := by
  induction h with
  | nil => rfl
  | @cons slot m slots ms hkey hmore ih =>
    have hm := hseen m List.mem_cons_self
    have hms := ih fun m hm => hseen m (List.mem_cons_of_mem _ hm)
    simp [completeFields, hkey, hm, hms]

/-- A record is read back when each of its fields reads its member. -/
theorem readRecord_write (h : List.Forall₂ (Reads d) slots ms) (hkeys : (slots.map (·.key)).Nodup) :
    readRecord slots (d + 1) ((Value.object ms).write ++ rest) = .ok (.object ms, rest) := by
  have hsame : List.Forall₂ (fun (slot : ReadSlot) (m : Member) => slot.key = m.1) slots ms :=
    h.imp fun _ _ hr => hr.1
  have hmap : slots.map (·.key) = ms.map (·.1) := by
    rw [← List.forall₂_eq_eq_eq, List.forall₂_map_left_iff, List.forall₂_map_right_iff]
    exact hsame
  have hnodup : (ms.map (·.1)).Nodup := hmap ▸ hkeys
  have hgathers : Gathers (readField slots d) [] ms (ms.reverse ++ []) :=
    gathers_fields h (fun _ => find?_slot hkeys) hnodup fun _ _ => rfl
  have hreverse : ((ms.reverse ++ ([] : List Member)).map (·.1)).Nodup := by
    rw [List.append_nil, List.map_reverse, List.nodup_reverse]
    exact hnodup
  have hcomplete : completeFields (ms.reverse ++ []) slots = some ms :=
    completeFields_given hsame fun m hm => lookup_of_mem hreverse (by simpa using hm)
  rw [Value.write_object, List.cons_append, readRecord]
  simp only [skipBlanks_brace, if_true, readMembers_writeMembers hgathers, hcomplete]

/-- What stands for a missing field. -/
def Presence.missing? : Presence → Option Value
  | .required => none
  | .nullable => some .null
  | .defaulted v => some v

/-- A member that its field has read, or that stands for the missing field. -/
def Gives (slot : ReadSlot) (m : Member) : Prop :=
  slot.key = m.1 ∧ ((∃ d bs rest, slot.take d bs = .ok (m.2, rest)) ∨ slot.presence.missing? = some m.2)

theorem readField_ok {seen' : List Member} (h : readField slots d seen key bs = .ok (seen', rest)) :
    seen' = seen ∨ ∃ slot at_ v, slots.find? (·.key = key) = some slot ∧
      slot.take d at_ = .ok (v, rest) ∧ seen' = (key, v) :: seen := by
  unfold readField at h
  cases hslot : slots.find? (·.key = key) with
  | none =>
    simp only [hslot] at h
    split at h
    case h_1 => nomatch h
    case h_2 =>
      obtain ⟨x, -, hx⟩ := of_map_ok h
      exact .inl (congrArg Prod.fst hx).symm
  | some slot =>
    simp only [hslot] at h
    split at h
    case isTrue => nomatch h
    case isFalse =>
      split at h
      case h_1 => nomatch h
      case h_2 at_ _ =>
        obtain ⟨⟨v, more⟩, hread, hx⟩ := of_map_ok h
        cases hx
        exact .inr ⟨slot, at_, v, rfl, hread, rfl⟩

theorem completeFields_cons (slot : ReadSlot) (fields : List ReadSlot) :
    completeFields seen (slot :: fields) =
      ((lookup slot.key seen).or slot.presence.missing?).bind fun v =>
        (completeFields seen fields).map ((slot.key, v) :: ·) := by
  rw [completeFields]
  cases lookup slot.key seen with
  | some v => cases completeFields seen fields <;> rfl
  | none => cases slot.presence <;> cases completeFields seen fields <;> rfl

theorem completeFields_gives {fields : List ReadSlot}
    (hseen : ∀ m ∈ seen, ∃ slot, slots.find? (·.key = m.1) = some slot ∧
      ∃ d bs rest, slot.take d bs = .ok (m.2, rest))
    (hfind : ∀ slot ∈ fields, slots.find? (·.key = slot.key) = some slot)
    (h : completeFields seen fields = some ms) : List.Forall₂ Gives fields ms := by
  induction fields generalizing ms with
  | nil =>
    cases h
    exact .nil
  | cons slot fields ih =>
    have hslot := hfind slot List.mem_cons_self
    simp only [completeFields_cons, Option.bind_eq_some_iff, Option.map_eq_some_iff] at h
    obtain ⟨v, hv, more, hmore, rfl⟩ := h
    refine .cons ⟨rfl, ?_⟩ (ih (fun slot hs => hfind slot (List.mem_cons_of_mem _ hs)) hmore)
    cases hlook : lookup slot.key seen with
    | some w =>
      obtain ⟨slot', hslot', hread⟩ := hseen _ (mem_of_lookup hlook)
      rw [hslot] at hslot'
      cases hslot'
      rw [hlook] at hv
      cases hv
      exact .inl hread
    | none =>
      rw [hlook] at hv
      exact .inr hv

theorem defaultFields_gives (h : defaultFields slots = some ms) : List.Forall₂ Gives slots ms := by
  induction slots generalizing ms with
  | nil =>
    cases h
    exact .nil
  | cons slot slots ih =>
    simp only [defaultFields] at h
    split at h
    case h_1 w hp =>
      obtain ⟨more, hmore, rfl⟩ := Option.map_eq_some_iff.mp h
      refine .cons ⟨rfl, .inr ?_⟩ (ih hmore)
      rw [hp]
      exact rfl
    case h_2 => nomatch h

theorem readPositional_gives {first : Bool} (h : readPositional d first slots bs = .ok (ms, rest)) :
    List.Forall₂ Gives slots ms := by
  induction slots generalizing first bs ms with
  | nil =>
    obtain ⟨x, -, hx⟩ := of_map_ok h
    cases hx
    exact .nil
  | cons slot slots ih =>
    rw [readPositional] at h
    split at h
    case h_1 => nomatch h
    case h_2 b more _ =>
      split at h
      case isTrue =>
        split at h
        case h_1 => nomatch h
        case h_2 members hdefault =>
          cases h
          exact defaultFields_gives hdefault
      case isFalse =>
        split at h
        case h_1 => nomatch h
        case h_2 =>
          split at h
          case h_1 => nomatch h
          case h_2 hread =>
            obtain ⟨⟨ms', rest'⟩, hmore, hx⟩ := of_map_ok h
            cases hx
            exact .cons ⟨rfl, .inl ⟨d, _, _, hread⟩⟩ (ih hmore)

/-- Every member of a record that was read was read by its field or stands for the missing one. -/
theorem readRecord_given (hkeys : (slots.map (·.key)).Nodup)
    (h : readRecord slots depth bs = .ok (v, rest)) :
    ∃ ms, v = .object ms ∧ List.Forall₂ Gives slots ms := by
  unfold readRecord at h
  split at h
  case h_1 => nomatch h
  case h_2 b more _ =>
    split at h
    case isTrue =>
      split at h
      case h_1 => nomatch h
      case h_2 d =>
        split at h
        case h_1 => nomatch h
        case h_2 seen more' hmembers =>
          have hseen := readMembers_keeps (P := fun seen => ∀ m ∈ seen, ∃ slot,
            slots.find? (·.key = m.1) = some slot ∧ ∃ d bs rest, slot.take d bs = .ok (m.2, rest))
            ?_ nofun hmembers
          · split at h
            case h_1 => nomatch h
            case h_2 ms hms =>
              cases h
              exact ⟨ms, rfl, completeFields_gives hseen (fun _ => find?_slot hkeys) hms⟩
          · intro seen key at_ seen' rest' hseen hmember
            rcases readField_ok hmember with rfl | ⟨slot, at', v', hslot, hread, rfl⟩
            · exact hseen
            · intro m hm
              rcases List.mem_cons.mp hm with rfl | hm
              · exact ⟨slot, hslot, d, at', _, hread⟩
              · exact hseen m hm
    case isFalse =>
      split at h
      case isTrue =>
        split at h
        case h_1 => nomatch h
        case h_2 =>
          obtain ⟨⟨ms, more'⟩, hms, hx⟩ := of_map_ok h
          cases hx
          exact ⟨ms, rfl, readPositional_gives hms⟩
      case isFalse => nomatch h

/-! ## Tagged objects -/

theorem readTagged_write {tag name member : String} {names : List String} (u : Uuid)
    (hname : name ∈ names) (hne : tag ≠ member) :
    readTagged tag names member (d + 1)
        ((Value.object [(tag, .string name), (member, .string u.text)]).write ++ rest) =
      .ok (.object [(tag, .string name), (member, .string u.text)], rest) := by
  have htag : ∀ rest, EndsNumber rest →
      readTagMember tag names d ⟨none, []⟩ tag (0x3A :: ((Value.string name).write ++ rest)) =
        .ok (⟨some (.string name), []⟩, rest) := by
    intro rest _
    have hspelled := readSpelled_write
      (show nameValue names name = some (.string name) from if_pos hname) rest
    simp [readTagMember, readColon, skipBlanks, Value.write, hspelled, Except.map]
  have hmember : ∀ rest, EndsNumber rest →
      readTagMember tag names d ⟨some (.string name), []⟩ member
          (0x3A :: ((Value.string u.text).write ++ rest)) =
        .ok (⟨some (.string name), [(member, .string u.text)]⟩, rest) := by
    intro rest hrest
    have hread := readAny_write (.string u.text) (.string u.text) (Nat.le_refl d) hrest
    simp [readTagMember, hne.symm, readColon, skipBlanks, hread, Except.map]
  have hgathers := Gathers.cons htag (.cons hmember (.nil _))
  have huuid : uuidValue u.text = some (.string u.text) := by rw [uuidValue, Uuid.parse?_text]; rfl
  rw [Value.write_object, List.cons_append, readTagged]
  simp only [skipBlanks_brace, if_true, readMembers_writeMembers hgathers]
  simp [assembleTagged, taggedValue, huuid]

/-! ## Values of a shape -/

namespace Shape

mutual

/-- The values of a shape in normal form, with the number of containers that may be open at once. -/
inductive Holds : Shape → Nat → Value → Prop
  | text {d : Nat} (s : String) : Holds .text d (.string s)
  | uuid {d : Nat} (u : Uuid) : Holds .uuid d (.string u.text)
  | word {bits d : Nat} {n : UInt64} (h : n.toNat < 1 <<< bits) : Holds (.word bits) d (.natural n)
  | flag {d : Nat} (b : Bool) : Holds .flag d (.bool b)
  | any {d : Nat} {v : Value} (hplain : v.Plain d) (hsorted : v.Sorted) : Holds .any d v
  | blob {d : Nat} {vs : List Value} (h : ∀ v ∈ vs, ∃ b : UInt8, v = .natural (UInt64.ofNat b.toNat)) :
      Holds .blob (d + 1) (.array vs)
  | choice {d : Nat} {names : List String} {name : String} (h : name ∈ names) :
      Holds (.choice names) d (.string name)
  | null {d : Nat} {s : Shape} : Holds (.nullable s) d .null
  | given {d : Nat} {s : Shape} {v : Value} (hnull : v ≠ .null) (h : Holds s d v) :
      Holds (.nullable s) d v
  | list {d : Nat} {s : Shape} {vs : List Value} (h : ∀ v ∈ vs, Holds s d v) :
      Holds (.list s) (d + 1) (.array vs)
  | record {d : Nat} {fields : List (String × Presence × Shape)} {ms : List Member}
      (hkeys : (fields.map (·.1)).Nodup) (h : HoldsFields fields d ms) :
      Holds (.record fields) (d + 1) (.object ms)
  | tagged {d : Nat} {tag name member : String} {names : List String} (u : Uuid)
      (hname : name ∈ names) (hne : tag ≠ member) :
      Holds (.tagged tag names member) (d + 1)
        (.object [(tag, .string name), (member, .string u.text)])

/-- The members of a record in declared order. -/
inductive HoldsFields : List (String × Presence × Shape) → Nat → List Member → Prop
  | nil {d : Nat} : HoldsFields [] d []
  | cons {d : Nat} {key : String} {presence : Presence} {s : Shape} {v : Value}
      {fields : List (String × Presence × Shape)} {ms : List Member}
      (h : Holds s d v) (hmore : HoldsFields fields d ms) :
      HoldsFields ((key, presence, s) :: fields) d ((key, v) :: ms)

end

theorem keys_slotsOf (fields : List (String × Presence × Shape)) :
    (slotsOf fields).map (·.key) = fields.map (·.1) := by
  induction fields with
  | nil => rfl
  | cons f fields ih =>
    obtain ⟨key, presence, s⟩ := f
    simp [slotsOf, ih]

-- the recursion is on the derivations: of a value by its shape, of members by their fields
mutual

/-- A value in the normal form of a shape is read back. -/
theorem Holds.read {s : Shape} {d : Nat} {v : Value} {rest : Bytes} (h : s.Holds d v)
    (hrest : EndsNumber rest) : s.read d (v.write ++ rest) = .ok (v, rest) := by
  cases h with
  | text s => exact readSpelled_write rfl rest
  | uuid u => exact readSpelled_write (by rw [uuidValue, Uuid.parse?_text]; rfl) rest
  | word h => exact readNatural_write h hrest
  | flag b => exact readFlag_write b
  | any hplain hsorted => exact readAny_write hplain hsorted (Nat.le_refl _) hrest
  | blob h => exact readBlob_write h
  | choice h => exact readChoice_write h
  | null => exact readNullable_null _
  | given hnull h => exact readNullable_write hnull (h.read hrest)
  | list h => exact readList_write (fun v hv rest hrest => (h v hv).read hrest) rest
  | record hkeys h => exact readRecord_write h.reads (by rw [keys_slotsOf]; exact hkeys)
  | tagged u hname hne => exact readTagged_write u hname hne

theorem HoldsFields.reads {fields : List (String × Presence × Shape)} {d : Nat} {ms : List Member}
    (h : HoldsFields fields d ms) : List.Forall₂ (Reads d) (slotsOf fields) ms := by
  cases h with
  | nil => exact .nil
  | cons h hmore => exact .cons ⟨rfl, fun rest hrest => h.read hrest⟩ hmore.reads

end

end Shape

end ConfigRegistry.Json
