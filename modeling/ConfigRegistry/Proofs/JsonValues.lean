import ConfigRegistry.Json.Reader
import ConfigRegistry.Proofs.JsonLiterals

/-!
# Free-form values are read back

A value without doubles that keeps its members in order is read back from its text
(`readAny_write`), and whatever is read keeps its members in order (`readAny_sorted`). How
lists and objects are read does not depend on what reads their items and members: the
same two lemmas (`readItems_writeItems`, `readMembers_writeMembers`) serve the values that
are read by a shape.
-/

namespace ConfigRegistry.Json

open Decimal

variable {α σ : Type} {bs rest : Bytes} {d depth n : Nat} {v : Value} {vs : List Value}
  {ms : List (String × Value)} {key : String}

/-! ## First bytes -/

/-- A byte that is neither blank nor a closing bracket. -/
def Opening (b : UInt8) : Prop := b ≠ 0x20 ∧ b ≠ 0x0A ∧ b ≠ 0x09 ∧ b ≠ 0x0D ∧ b ≠ 0x5D

instance (b : UInt8) : Decidable (Opening b) := inferInstanceAs (Decidable (_ ∧ _))

theorem Opening.skipBlanks {b : UInt8} (h : Opening b) : skipBlanks (b :: rest) = b :: rest := by
  obtain ⟨h₁, h₂, h₃, h₄, -⟩ := h
  simp [Json.skipBlanks, *]

theorem opening_digit {b : UInt8} (h : isDigit b = true) : Opening b ∧ b ≠ 0x6E := by
  refine ⟨⟨?_, ?_, ?_, ?_, ?_⟩, ?_⟩
  all_goals
    rintro rfl
    exact absurd h (by decide)

/-- A double starts with a digit or a minus. -/
theorem writeReal_head (x : Binary64) :
    ∃ b tail, writeReal x = b :: tail ∧ (b = 0x2D ∨ isDigit b = true) := by
  have hlayout : ∀ s, ∃ b tail, layout s = b :: tail ∧ isDigit b = true := by
    intro s
    obtain ⟨b, ds, hd, hb, -⟩ := digits_cons s.digits
    unfold layout
    simp only [hd]
    split
    case isTrue => exact ⟨b, _, rfl, hb⟩
    case isFalse =>
      split
      case isTrue h =>
        obtain ⟨k, hk⟩ := Nat.exists_eq_succ_of_ne_zero
          (show (((b :: ds).length : Int) + s.exponent).toNat ≠ 0 by omega)
        exact ⟨b, _, by rw [hk]; rfl, hb⟩
      case isFalse =>
        split
        case isTrue => exact ⟨0x30, _, rfl, by decide⟩
        case isFalse =>
          split
          · exact ⟨b, _, rfl, hb⟩
          · exact ⟨b, _, rfl, hb⟩
  unfold writeReal
  split
  case isTrue => exact ⟨0x2D, _, rfl, .inl rfl⟩
  case isFalse =>
    split
    case isTrue => exact ⟨0x30, _, rfl, .inr (by decide)⟩
    case isFalse =>
      obtain ⟨b, tail, h, hb⟩ := hlayout (Binary64.shortest x.magnitude)
      exact ⟨b, tail, h, .inr hb⟩

/-- The first byte of a value opens it, and tells null from all others. -/
theorem Value.write_head (v : Value) :
    ∃ b tail, v.write = b :: tail ∧ Opening b ∧ (b = 0x6E → v = .null) := by
  have hnumber : ∀ b : UInt8, b = 0x2D ∨ isDigit b = true → Opening b ∧ b ≠ 0x6E := by
    rintro b (rfl | hb)
    · decide
    · exact opening_digit hb
  cases v with
  | null => exact ⟨0x6E, _, rfl, by decide, fun _ => rfl⟩
  | bool b =>
    cases b with
    | true => exact ⟨0x74, _, rfl, by decide, fun h => absurd h (by decide)⟩
    | false => exact ⟨0x66, _, rfl, by decide, fun h => absurd h (by decide)⟩
  | number n =>
    have hwrite : ∃ b tail, writeNumber n = b :: tail ∧ (b = 0x2D ∨ isDigit b = true) := by
      cases n with
      | natural n =>
        obtain ⟨b, ds, h, hb, -⟩ := digits_cons n.toNat
        exact ⟨b, ds, h, .inr hb⟩
      | negative n => exact ⟨0x2D, _, rfl, .inl rfl⟩
      | real x => exact writeReal_head x
    obtain ⟨b, tail, h, hb⟩ := hwrite
    exact ⟨b, tail, h, (hnumber b hb).1, fun hn => absurd hn (hnumber b hb).2⟩
  | string s => exact ⟨0x22, _, rfl, by decide, fun h => absurd h (by decide)⟩
  | array items => cases items <;> exact ⟨0x5B, _, rfl, by decide, fun h => absurd h (by decide)⟩
  | object members =>
    rcases members with _ | ⟨⟨k, v⟩, rest⟩ <;>
      exact ⟨0x7B, _, rfl, by decide, fun h => absurd h (by decide)⟩

theorem skipBlanks_quote : skipBlanks (0x22 :: rest) = 0x22 :: rest := Opening.skipBlanks (by decide)

theorem skipBlanks_bracket : skipBlanks (0x5B :: rest) = 0x5B :: rest := Opening.skipBlanks (by decide)

theorem skipBlanks_brace : skipBlanks (0x7B :: rest) = 0x7B :: rest := Opening.skipBlanks (by decide)

/-! ## Lists -/

/-- The items of a list and the closing bracket. -/
def writeItems : List Value → Bytes
  | [] => [0x5D]
  | v :: rest => v.write ++ writeMoreItems rest

theorem Value.write_array (vs : List Value) : (Value.array vs).write = 0x5B :: writeItems vs := by
  cases vs <;> rfl

theorem endsNumber_moreItems (vs : List Value) (rest : Bytes) : EndsNumber (writeMoreItems vs ++ rest) := by
  cases vs with
  | nil => exact endsNumber_bracket
  | cons v vs => exact endsNumber_comma

theorem length_lt_moreItems (vs : List Value) : vs.length < (writeMoreItems vs).length := by
  induction vs with
  | nil => decide
  | cons v vs ih =>
    simp only [writeMoreItems, List.length_cons, List.length_append]
    omega

theorem length_le_items (vs : List Value) : vs.length ≤ (writeItems vs).length := by
  cases vs with
  | nil => exact Nat.zero_le _
  | cons v vs =>
    have h := length_lt_moreItems vs
    simp only [writeItems, List.length_cons, List.length_append]
    omega

theorem readItems_moreItems {item : Reader Value}
    (hitem : ∀ v ∈ vs, ∀ rest, EndsNumber rest → item (v.write ++ rest) = .ok (v, rest))
    (hn : vs.length < n) (rest : Bytes) :
    readItems item n false (writeMoreItems vs ++ rest) = .ok (vs, rest) := by
  induction vs generalizing n with
  | nil =>
    obtain ⟨n, rfl⟩ := Nat.exists_eq_succ_of_ne_zero (Nat.ne_zero_of_lt hn)
    simp [writeMoreItems, readItems, skipBlanks]
  | cons v vs ih =>
    obtain ⟨n, rfl⟩ := Nat.exists_eq_succ_of_ne_zero (Nat.ne_zero_of_lt hn)
    have hv := hitem v List.mem_cons_self _ (endsNumber_moreItems vs rest)
    have hvs := ih (fun w hw => hitem w (List.mem_cons_of_mem v hw)) (Nat.lt_of_succ_lt_succ hn)
    have hcomma : Opening 0x2C := by decide
    obtain ⟨b, tail, hwrite, hb, -⟩ := v.write_head
    simp only [hwrite, List.cons_append] at hv
    simp [writeMoreItems, readItems, hcomma.skipBlanks, nextItem, hwrite, hb.skipBlanks, hb.2.2.2.2,
      hv, hvs]

/-- The items of a list are read back when each of them is. -/
theorem readItems_writeItems {item : Reader Value}
    (hitem : ∀ v ∈ vs, ∀ rest, EndsNumber rest → item (v.write ++ rest) = .ok (v, rest))
    (rest : Bytes) :
    readItems item ((writeItems vs ++ rest).length + 1) true (writeItems vs ++ rest) = .ok (vs, rest) := by
  have hn : vs.length < (writeItems vs ++ rest).length + 1 := by
    have h := length_le_items vs
    rw [List.length_append]
    omega
  cases vs with
  | nil => simp [writeItems, readItems, skipBlanks]
  | cons v vs =>
    generalize (writeItems (v :: vs) ++ rest).length = m at hn
    have hv := hitem v List.mem_cons_self _ (endsNumber_moreItems vs rest)
    have hvs := readItems_moreItems (fun w hw => hitem w (List.mem_cons_of_mem v hw))
      (Nat.lt_of_succ_lt_succ hn) rest
    obtain ⟨b, tail, hwrite, hb, -⟩ := v.write_head
    simp only [hwrite, List.cons_append] at hv
    simp [writeItems, readItems, nextItem, hwrite, hb.skipBlanks, hb.2.2.2.2, hv, hvs]

/-! ## Objects -/

/-- The members of an object and the closing brace. -/
def writeMembers : List (String × Value) → Bytes
  | [] => [0x7D]
  | (k, v) :: rest => writeString k ++ 0x3A :: (v.write ++ writeMoreMembers rest)

theorem Value.write_object (ms : List (String × Value)) :
    (Value.object ms).write = 0x7B :: writeMembers ms := by
  rcases ms with _ | ⟨⟨k, v⟩, rest⟩ <;> rfl

theorem endsNumber_moreMembers (ms : List (String × Value)) (rest : Bytes) :
    EndsNumber (writeMoreMembers ms ++ rest) := by
  rcases ms with _ | ⟨⟨k, v⟩, ms⟩
  · exact endsNumber_brace
  · exact endsNumber_comma

theorem length_lt_moreMembers (ms : List (String × Value)) : ms.length < (writeMoreMembers ms).length := by
  induction ms with
  | nil => decide
  | cons m ms ih =>
    simp only [writeMoreMembers, List.length_cons, List.length_append]
    omega

theorem length_le_members (ms : List (String × Value)) : ms.length ≤ (writeMembers ms).length := by
  cases ms with
  | nil => exact Nat.zero_le _
  | cons m ms =>
    have h := length_lt_moreMembers ms
    simp only [writeMembers, List.length_cons, List.length_append]
    omega

/-- Reading members one after the other leads from what was gathered first to what is gathered
last. -/
inductive Gathers (member : σ → String → Reader σ) : σ → List (String × Value) → σ → Prop
  | nil (s : σ) : Gathers member s [] s
  | cons {s t u : σ} {k : String} {v : Value} {ms : List (String × Value)}
      (h : ∀ rest, EndsNumber rest → member s k (0x3A :: (v.write ++ rest)) = .ok (t, rest))
      (hms : Gathers member t ms u) : Gathers member s ((k, v) :: ms) u

theorem readMembers_moreMembers {member : σ → String → Reader σ} {s t : σ} (h : Gathers member s ms t)
    (hn : ms.length < n) (rest : Bytes) :
    readMembers member n false s (writeMoreMembers ms ++ rest) = .ok (t, rest) := by
  induction h generalizing n with
  | nil s =>
    obtain ⟨n, rfl⟩ := Nat.exists_eq_succ_of_ne_zero (Nat.ne_zero_of_lt hn)
    simp [writeMoreMembers, readMembers, skipBlanks]
  | @cons s t u k v ms h hms ih =>
    obtain ⟨n, rfl⟩ := Nat.exists_eq_succ_of_ne_zero (Nat.ne_zero_of_lt hn)
    have hv := h _ (endsNumber_moreMembers ms rest)
    obtain ⟨tail, hquote, hkey⟩ := readText_writeString k
    simp [writeMoreMembers, readMembers, skipBlanks, nextKey, hquote, hkey, hv,
      ih (Nat.lt_of_succ_lt_succ hn)]

/-- The members of an object are read back when each of them is. -/
theorem readMembers_writeMembers {member : σ → String → Reader σ} {s t : σ}
    (h : Gathers member s ms t) (rest : Bytes) :
    readMembers member ((writeMembers ms ++ rest).length + 1) true s (writeMembers ms ++ rest) =
      .ok (t, rest) := by
  have hn : ms.length < (writeMembers ms ++ rest).length + 1 := by
    have h := length_le_members ms
    rw [List.length_append]
    omega
  cases h with
  | nil => simp [writeMembers, readMembers, skipBlanks]
  | @cons _ t _ k v ms h hms =>
    generalize (writeMembers ((k, v) :: ms) ++ rest).length = m at hn
    have hv := h _ (endsNumber_moreMembers ms rest)
    have hms := readMembers_moreMembers hms (Nat.lt_of_succ_lt_succ hn) rest
    obtain ⟨tail, hquote, hkey⟩ := readText_writeString k
    simp [writeMembers, readMembers, skipBlanks, nextKey, hquote, hkey, hv, hms]

/-! ## Free-form values -/

namespace Value

/-- Numbers are integers of 64 bits, and at most `d` containers are open at once. A number written
with a fraction or an exponent is a double, even where its value is whole. -/
inductive Plain : Nat → Value → Prop
  | null {d : Nat} : Plain d .null
  | bool {d : Nat} (b : Bool) : Plain d (.bool b)
  | natural {d : Nat} (n : UInt64) : Plain d (.number (.natural n))
  | negative {d : Nat} (n : Fin 0x8000000000000000) : Plain d (.number (.negative n))
  | string {d : Nat} (s : String) : Plain d (.string s)
  | array {d : Nat} {vs : List Value} (h : ∀ v ∈ vs, Plain d v) : Plain (d + 1) (.array vs)
  | object {d : Nat} {ms : List (String × Value)} (h : ∀ m ∈ ms, Plain d m.2) :
      Plain (d + 1) (.object ms)

/-- Every object keeps its members in ascending order of their keys, one for a key. -/
inductive Sorted : Value → Prop
  | null : Sorted .null
  | bool (b : Bool) : Sorted (.bool b)
  | number (n : Number) : Sorted (.number n)
  | string (s : String) : Sorted (.string s)
  | array {vs : List Value} (h : ∀ v ∈ vs, Sorted v) : Sorted (.array vs)
  | object {ms : List (String × Value)} (hkeys : ms.Pairwise (·.1 < ·.1))
      (h : ∀ m ∈ ms, Sorted m.2) : Sorted (.object ms)

theorem mem_putMember {m : String × Value} (hm : m ∈ putMember key v ms) : m = (key, v) ∨ m ∈ ms := by
  induction ms with
  | nil => exact .inl (List.mem_singleton.mp hm)
  | cons x ms ih =>
    obtain ⟨k, w⟩ := x
    simp only [putMember] at hm
    split at hm
    case isTrue => exact List.mem_cons.mp hm
    case isFalse =>
      split at hm
      case isTrue =>
        rcases List.mem_cons.mp hm with rfl | hm
        · exact .inl rfl
        · exact .inr (List.mem_cons_of_mem _ hm)
      case isFalse =>
        rcases List.mem_cons.mp hm with rfl | hm
        · exact .inr List.mem_cons_self
        · exact (ih hm).imp_right (List.mem_cons_of_mem _)

/-- A member behind all others is put at the end. -/
theorem putMember_last (h : ∀ m ∈ ms, m.1 < key) : putMember key v ms = ms ++ [(key, v)] := by
  induction ms with
  | nil => rfl
  | cons x ms ih =>
    obtain ⟨k, w⟩ := x
    have hk : k < key := h _ List.mem_cons_self
    have hne : key ≠ k := fun he => String.lt_irrefl k (he ▸ hk)
    rw [putMember, if_neg (String.lt_asymm hk), if_neg hne,
      ih fun m hm => h m (List.mem_cons_of_mem _ hm), List.cons_append]

theorem putMember_sorted (h : ms.Pairwise (·.1 < ·.1)) : (putMember key v ms).Pairwise (·.1 < ·.1) := by
  induction ms with
  | nil => exact List.pairwise_singleton _ _
  | cons x ms ih =>
    obtain ⟨k, w⟩ := x
    obtain ⟨hall, hms⟩ := List.pairwise_cons.mp h
    simp only [putMember]
    split
    case isTrue hlt =>
      refine List.pairwise_cons.mpr ⟨fun m hm => ?_, h⟩
      rcases List.mem_cons.mp hm with rfl | hm
      · exact hlt
      · exact String.lt_trans hlt (hall m hm)
    case isFalse hlt =>
      split
      case isTrue heq =>
        subst heq
        exact List.pairwise_cons.mpr ⟨hall, hms⟩
      case isFalse hne =>
        have hk : k < key := Std.lt_of_le_of_ne (String.not_lt.mp hlt) (Ne.symm hne)
        refine List.pairwise_cons.mpr ⟨fun m hm => ?_, ih hms⟩
        rcases mem_putMember hm with rfl | hm
        · exact hk
        · exact hall m hm

end Value

/-- Reads a member of a free-form object. -/
def keepMember (depth : Nat) (ms : List (String × Value)) (key : String) :
    Reader (List (String × Value)) := fun bs =>
  match readColon bs with
  | .error e => .error e
  | .ok bs => (readAny depth bs).map fun (v, bs) => (Value.putMember key v ms, bs)

theorem readAny_array :
    readAny (depth + 1) (0x5B :: rest) =
      (readItems (readAny depth) (rest.length + 1) true rest).map fun (vs, bs) => (.array vs, bs) := by
  rw [readAny]
  rfl

theorem readAny_object :
    readAny (depth + 1) (0x7B :: rest) =
      (readMembers (keepMember depth) (rest.length + 1) true [] rest).map
        fun (ms, bs) => (.object ms, bs) := by
  rw [readAny]
  rfl

theorem gathers_kept {acc : List (String × Value)}
    (hread : ∀ m ∈ ms, ∀ rest, EndsNumber rest → readAny depth (m.2.write ++ rest) = .ok (m.2, rest))
    (hkeys : (acc ++ ms).Pairwise (·.1 < ·.1)) : Gathers (keepMember depth) acc ms (acc ++ ms) := by
  induction ms generalizing acc with
  | nil =>
    rw [List.append_nil]
    exact .nil acc
  | cons m ms ih =>
    obtain ⟨k, v⟩ := m
    have hlast : ∀ m ∈ acc, m.1 < k := fun m hm =>
      (List.pairwise_append.mp hkeys).2.2 m hm (k, v) List.mem_cons_self
    have hmember : ∀ rest, EndsNumber rest →
        keepMember depth acc k (0x3A :: (v.write ++ rest)) = .ok (acc ++ [(k, v)], rest) := by
      intro rest hrest
      simp [keepMember, readColon, skipBlanks, hread (k, v) List.mem_cons_self rest hrest,
        Value.putMember_last hlast, Except.map]
    -- the members that are kept already are the smaller ones, so each new one goes last
    have hmore : Gathers (keepMember depth) (acc ++ [(k, v)]) ms (acc ++ [(k, v)] ++ ms) :=
      ih (fun m hm => hread m (List.mem_cons_of_mem _ hm)) (by simpa using hkeys)
    rw [List.append_assoc, List.singleton_append] at hmore
    exact .cons hmember hmore

/-- A free-form value is read back. -/
theorem readAny_write (hplain : v.Plain d) (hsorted : v.Sorted) (hd : d ≤ depth) (hrest : EndsNumber rest) :
    readAny depth (v.write ++ rest) = .ok (v, rest) := by
  induction hplain generalizing depth rest with
  | null => simp [Value.write, readAny, skipBlanks, readWord, nullTail, Except.map]
  | bool b =>
    cases b <;>
      simp [Value.write, readAny, skipBlanks, readWord, trueTail, falseTail, Except.map]
  | natural n =>
    have hread := readNumber_natural n hrest
    obtain ⟨b, ds, hcons, hb, -⟩ := digits_cons n.toNat
    have hletters : b ≠ 0x6E ∧ b ≠ 0x74 ∧ b ≠ 0x66 := by
      refine ⟨?_, ?_, ?_⟩
      all_goals
        rintro rfl
        exact absurd hb (by decide)
    rw [hcons, List.cons_append] at hread
    simp [Value.write, writeNumber, readAny, hcons, (opening_digit hb).1.skipBlanks, hletters,
      startsNumber, hb, hread, Except.map]
  | negative n =>
    simp [Value.write, writeNumber, readAny, skipBlanks, startsNumber, readNumber_negative n hrest,
      Except.map]
  | string s =>
    obtain ⟨tail, hquote, htext⟩ := readText_writeString s
    simp [Value.write, readAny, hquote, skipBlanks, startsNumber, isDigit, htext, Except.map]
  | @array d vs h ih =>
    obtain ⟨depth, rfl⟩ := Nat.exists_eq_add_of_le' (Nat.le_trans (Nat.succ_pos d) hd)
    cases hsorted with
    | array hitems =>
      have hread : ∀ v ∈ vs, ∀ rest, EndsNumber rest → readAny depth (v.write ++ rest) = .ok (v, rest) :=
        fun v hv rest => ih v hv (hitems v hv) (Nat.le_of_succ_le_succ hd)
      rw [Value.write_array, List.cons_append, readAny_array, readItems_writeItems hread]
      rfl
  | @object d ms h ih =>
    obtain ⟨depth, rfl⟩ := Nat.exists_eq_add_of_le' (Nat.le_trans (Nat.succ_pos d) hd)
    cases hsorted with
    | object hkeys hmembers =>
      have hgathers : Gathers (keepMember depth) [] ms ms :=
        gathers_kept (fun m hm rest => ih m hm (hmembers m hm) (Nat.le_of_succ_le_succ hd)) hkeys
      rw [Value.write_object, List.cons_append, readAny_object, readMembers_writeMembers hgathers]
      rfl

/-! ## What is read -/

theorem of_map_ok {β : Type} {e : Except Fault α} {f : α → β} {y : β} (h : e.map f = .ok y) :
    ∃ x, e = .ok x ∧ f x = y := by
  cases e with
  | error e => nomatch h
  | ok x => exact ⟨x, rfl, Except.ok.inj h⟩

/-- A list that was read is empty, or an item and what follows it were read. -/
theorem readItems_cases {item : Reader α} {first : Bool} {xs : List α}
    (h : readItems item (n + 1) first bs = .ok (xs, rest)) :
    xs = [] ∨ ∃ at_ x more ys, item at_ = .ok (x, more) ∧
      readItems item n false more = .ok (ys, rest) ∧ xs = x :: ys := by
  rw [readItems] at h
  split at h
  case h_1 => nomatch h
  case h_2 b tail _ =>
    split at h
    case isTrue => exact .inl (congrArg Prod.fst (Except.ok.inj h)).symm
    case isFalse =>
      cases hnext : nextItem first (b :: tail) with
      | error e => simp [hnext] at h
      | ok at_ =>
        cases hitem : item at_ with
        | error e => simp [hnext, hitem] at h
        | ok r =>
          obtain ⟨x, more⟩ := r
          cases hmore : readItems item n false more with
          | error e => simp [hnext, hitem, hmore] at h
          | ok r =>
            obtain ⟨ys, rest'⟩ := r
            simp only [hnext, hitem, hmore, Except.ok.injEq, Prod.mk.injEq] at h
            obtain ⟨rfl, rfl⟩ := h
            exact .inr ⟨at_, x, more, ys, hitem, hmore, rfl⟩

/-- What holds of every item that can be read holds of all items of a list. -/
theorem readItems_forall {item : Reader α} {P : α → Prop} {first : Bool} {xs : List α}
    (hitem : ∀ {bs x rest}, item bs = .ok (x, rest) → P x)
    (h : readItems item n first bs = .ok (xs, rest)) : ∀ x ∈ xs, P x := by
  induction n generalizing first bs xs with
  | zero => nomatch h
  | succ n ih =>
    rcases readItems_cases h with rfl | ⟨at_, x, more, ys, hx, hys, rfl⟩
    · nofun
    · intro y hy
      rcases List.mem_cons.mp hy with rfl | hy
      · exact hitem hx
      · exact ih hys y hy

/-- Members that were read add nothing, or a member and what follows it were read. -/
theorem readMembers_cases {member : σ → String → Reader σ} {first : Bool} {s t : σ}
    (h : readMembers member (n + 1) first s bs = .ok (t, rest)) :
    t = s ∨ ∃ key at_ u more, member s key at_ = .ok (u, more) ∧
      readMembers member n false u more = .ok (t, rest) := by
  rw [readMembers] at h
  split at h
  case h_1 => nomatch h
  case h_2 b tail _ =>
    split at h
    case isTrue => exact .inl (congrArg Prod.fst (Except.ok.inj h)).symm
    case isFalse =>
      cases hnext : nextKey first (b :: tail) with
      | error e => simp [hnext] at h
      | ok quote =>
        cases hkey : readText quote with
        | error e => simp [hnext, hkey] at h
        | ok r =>
          obtain ⟨key, at_⟩ := r
          cases hmember : member s key at_ with
          | error e => simp [hnext, hkey, hmember] at h
          | ok r =>
            obtain ⟨u, more⟩ := r
            simp only [hnext, hkey, hmember] at h
            exact .inr ⟨key, at_, u, more, hmember, h⟩

/-- What reading a member keeps is kept by reading all of them. -/
theorem readMembers_keeps {member : σ → String → Reader σ} {P : σ → Prop} {first : Bool} {s t : σ}
    (hmember : ∀ {s key bs t rest}, P s → member s key bs = .ok (t, rest) → P t) (hs : P s)
    (h : readMembers member n first s bs = .ok (t, rest)) : P t := by
  induction n generalizing first bs s with
  | zero => nomatch h
  | succ n ih =>
    rcases readMembers_cases h with rfl | ⟨key, at_, u, more, hu, hmore⟩
    · exact hs
    · exact ih (hmember hs hu) hmore

theorem sorted_of_map {e : Except Fault α} {f : α → Value × Bytes} (hf : ∀ x, (f x).1.Sorted)
    (h : e.map f = .ok (v, rest)) : v.Sorted := by
  obtain ⟨x, -, hv⟩ := of_map_ok h
  have hsorted := hf x
  rw [hv] at hsorted
  exact hsorted

/-- A value that was read holds no members, or is the list or the object that was read. -/
theorem readAny_cases (h : readAny depth bs = .ok (v, rest)) :
    v.Sorted ∨ ∃ d at_, depth = d + 1 ∧
      ((∃ vs, v = .array vs ∧ readItems (readAny d) (at_.length + 1) true at_ = .ok (vs, rest)) ∨
        ∃ ms, v = .object ms ∧
          readMembers (keepMember d) (at_.length + 1) true [] at_ = .ok (ms, rest)) := by
  rw [readAny] at h
  split at h
  case h_1 => nomatch h
  case h_2 b at_ _ =>
    split at h
    · exact .inl (sorted_of_map (fun _ => .null) h)
    split at h
    · exact .inl (sorted_of_map (fun _ => .bool true) h)
    split at h
    · exact .inl (sorted_of_map (fun _ => .bool false) h)
    split at h
    · exact .inl (sorted_of_map (fun _ => .number _) h)
    split at h
    · exact .inl (sorted_of_map (fun _ => .string _) h)
    split at h
    case h_1 => nomatch h
    case h_2 d =>
      split at h
      · obtain ⟨⟨vs, more⟩, hvs, hv⟩ := of_map_ok h
        cases hv
        exact .inr ⟨d, at_, rfl, .inl ⟨vs, rfl, hvs⟩⟩
      split at h
      · obtain ⟨⟨ms, more⟩, hms, hv⟩ := of_map_ok h
        cases hv
        exact .inr ⟨d, at_, rfl, .inr ⟨ms, rfl, hms⟩⟩
      · nomatch h

theorem keepMember_ok {ms' : List (String × Value)} (h : keepMember depth ms key bs = .ok (ms', rest)) :
    ∃ at_ v, readAny depth at_ = .ok (v, rest) ∧ ms' = Value.putMember key v ms := by
  unfold keepMember at h
  split at h
  case h_1 => nomatch h
  case h_2 at_ _ =>
    obtain ⟨⟨v, more⟩, hread, hms⟩ := of_map_ok h
    cases hms
    exact ⟨at_, v, hread, rfl⟩

/-- A value that was read keeps its members in order. -/
theorem readAny_sorted (h : readAny depth bs = .ok (v, rest)) : v.Sorted := by
  induction depth generalizing bs v rest with
  | zero =>
    rcases readAny_cases h with hv | ⟨d, at_, hd, -⟩
    · exact hv
    · nomatch hd
  | succ depth ih =>
    rcases readAny_cases h with hv | ⟨d, at_, hd, ⟨vs, rfl, hvs⟩ | ⟨ms, rfl, hms⟩⟩
    · exact hv
    · cases hd
      exact .array (readItems_forall ih hvs)
    · cases hd
      have hkept := readMembers_keeps
        (P := fun ms => ms.Pairwise (·.1 < ·.1) ∧ ∀ m ∈ ms, m.2.Sorted) ?_ ⟨.nil, nofun⟩ hms
      · exact .object hkept.1 hkept.2
      · rintro ms key at_ ms' more ⟨hkeys, hsorted⟩ hmember
        obtain ⟨at_, v, hread, rfl⟩ := keepMember_ok hmember
        refine ⟨Value.putMember_sorted hkeys, fun m hm => ?_⟩
        rcases Value.mem_putMember hm with rfl | hm
        · exact ih hread
        · exact hsorted m hm

end ConfigRegistry.Json
