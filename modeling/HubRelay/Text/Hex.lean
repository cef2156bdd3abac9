/-!
Numbers in hexadecimal, with lower-case digits.

`ofDigits?_fixed` says that a number written with enough digits reads back.
-/

namespace HubRelay.Text.Hex

def digit (value : Nat) : Char :=
  if value < 10 then Char.ofNat (48 + value) else Char.ofNat (87 + value)

def value? (c : Char) : Option Nat :=
  let n := c.toNat
  if 48 ≤ n ∧ n ≤ 57 then some (n - 48)
  else if 97 ≤ n ∧ n ≤ 102 then some (n - 87)
  else if 65 ≤ n ∧ n ≤ 70 then some (n - 55)
  else none

/-- The low `width` digits of `n`, most significant first. -/
def fixed : Nat → Nat → List Char
  | 0, _ => []
  | width + 1, n => fixed width (n / 16) ++ [digit (n % 16)]

def ofDigitsFrom? (high : Nat) : List Char → Option Nat
  | [] => some high
  | c :: rest =>
      match value? c with
      | some v => ofDigitsFrom? (16 * high + v) rest
      | none => none

/-- The number a text of digits denotes; none when a character is no digit. -/
def ofDigits? (digits : List Char) : Option Nat := ofDigitsFrom? 0 digits

def shortest (n : Nat) : String := String.ofList (Nat.toDigits 16 n)

def byte (b : UInt8) : String := "0x" ++ String.ofList (fixed 2 b.toNat)

/-- A word of sixteen bits as `0x` and four digits. -/
def word (w : UInt16) : String := "0x" ++ String.ofList (fixed 4 w.toNat)

@[simp] theorem length_fixed (width n : Nat) : (fixed width n).length = width := by
  induction width generalizing n with
  | zero => rfl
  | succ width ih => simp [fixed, ih]

theorem value?_digit : ∀ v : Fin 16, value? (digit v) = some v.val := by decide

theorem ofDigitsFrom?_append (high : Nat) (front back : List Char) :
    ofDigitsFrom? high (front ++ back) =
      (ofDigitsFrom? high front).bind fun h => ofDigitsFrom? h back := by
  induction front generalizing high with
  | nil => rfl
  | cons c rest ih =>
      simp only [List.cons_append, ofDigitsFrom?]
      cases value? c with
      | none => rfl
      | some v => exact ih _

theorem ofDigitsFrom?_fixed (width n high : Nat) :
    ofDigitsFrom? high (fixed width n) = some (Nat.pow 16 width * high + n % Nat.pow 16 width) := by
  induction width generalizing n with
  | zero => simp [fixed, ofDigitsFrom?, Nat.mod_one]
  | succ width ih =>
      have digitBack := value?_digit ⟨n % 16, Nat.mod_lt _ (by decide)⟩
      simp only [fixed, ofDigitsFrom?_append, ih, Option.bind_some, ofDigitsFrom?, digitBack]
      have power : Nat.pow 16 (width + 1) = 16 * Nat.pow 16 width := Nat.mul_comm _ _
      rw [power, Nat.mod_mul, Nat.mul_add, Nat.mul_assoc]
      congr 1
      omega

theorem ofDigits?_fixed {width n : Nat} (fits : n < Nat.pow 16 width) :
    ofDigits? (fixed width n) = some n := by
  rw [ofDigits?, ofDigitsFrom?_fixed, Nat.mod_eq_of_lt fits]
  simp

end HubRelay.Text.Hex
