import ConfigRegistry.Bytes

/-!
# Decimal digits

Natural numbers are written without leading zeros and read back digit by digit.
-/

namespace ConfigRegistry.Decimal

/-- The digit that stands for a number below ten. -/
def digit (n : Nat) : UInt8 := UInt8.ofNat (48 + n)

/-- Whether a byte is a decimal digit. -/
def isDigit (b : UInt8) : Bool := 48 ≤ b && b ≤ 57

/-- The number a digit stands for. -/
def value (b : UInt8) : Nat := b.toNat - 48

/-- The digits of a number, the most significant first. -/
def digits (n : Nat) : Bytes :=
  if _h : n < 10 then [digit n] else digits (n / 10) ++ [digit (n % 10)]

/-- The number a list of digits stands for. -/
def ofDigits (bs : Bytes) : Nat := bs.foldl (fun n b => 10 * n + value b) 0

theorem isDigit_digit {n : Nat} (h : n < 10) : isDigit (digit n) = true := by
  have : ∀ m : Fin 10, isDigit (digit m.val) = true := by decide
  exact this ⟨n, h⟩

theorem value_digit {n : Nat} (h : n < 10) : value (digit n) = n := by
  have : ∀ m : Fin 10, value (digit m.val) = m.val := by decide
  exact this ⟨n, h⟩

theorem ofDigits_append (bs : Bytes) (b : UInt8) :
    ofDigits (bs ++ [b]) = 10 * ofDigits bs + value b := by
  simp [ofDigits]

theorem ofDigits_digits (n : Nat) : ofDigits (digits n) = n := by
  induction n using Nat.strongRecOn with
  | ind n ih =>
    unfold digits
    split
    · rename_i h
      simp [ofDigits, value_digit h]
    · rename_i h
      rw [ofDigits_append, ih (n / 10) (by omega), value_digit (by omega)]
      omega

theorem isDigit_of_mem_digits (n : Nat) : ∀ b ∈ digits n, isDigit b = true := by
  induction n using Nat.strongRecOn with
  | ind n ih =>
    unfold digits
    split
    · rename_i h
      simp [isDigit_digit h]
    · rename_i h
      intro b hb
      rcases List.mem_append.1 hb with hb | hb
      · exact ih (n / 10) (by omega) b hb
      · obtain rfl := List.mem_singleton.1 hb
        exact isDigit_digit (by omega)

theorem digits_ne_nil (n : Nat) : digits n ≠ [] := by
  unfold digits
  split <;> simp

/-- The text of a number. -/
def text (n : Nat) : String := String.ofList ((digits n).map fun b => Char.ofNat b.toNat)

/-- The number below a bound that characters spell: digits, perhaps behind a plus sign. -/
def spelled? (bound : Nat) (cs : List Char) : Option Nat :=
  let digits := match cs with
    | '+' :: rest => rest
    | _ => cs
  if !digits.isEmpty && digits.all (fun c => '0' ≤ c && c ≤ '9') then
    let n := ofDigits (digits.map fun c => UInt8.ofNat c.toNat)
    if n < bound then some n else none
  else none

end ConfigRegistry.Decimal
