import HubRelay.Text.Hex

/-!
JSON texts as values, as far as a reader of records needs them.

A number is kept only if it is written with digits alone. A string is kept only if its escapes
name characters: an escape may name one half of a pair that stands for a character, and a half
without its other half names nothing.
-/

namespace HubRelay.Json

/-- A value of a JSON text. -/
inductive Value
  | null
  | bool (value : Bool)
  | number (digits : Option Nat)
  | string (text : Option (List Char))
  | array (items : List Value)
  | object (fields : List (Option (List Char) × Value))

/-! ### The contents of a string -/

/-- A piece of a string: a character, or the number after `\u`. -/
inductive Piece
  | char (c : Char)
  | unit (code : Nat)
  deriving DecidableEq, Repr

def isHigh (code : Nat) : Bool := 0xD800 ≤ code && code ≤ 0xDBFF

def isLow (code : Nat) : Bool := 0xDC00 ≤ code && code ≤ 0xDFFF

/-- The character that two halves stand for. -/
def pair (high low : Nat) : Char :=
  Char.ofNat (0x10000 + (high - 0xD800) * 0x400 + (low - 0xDC00))

/-- The text that the pieces spell; none when a half stands alone. -/
def spell? : List Piece → Option (List Char)
  | [] => some []
  | .char c :: rest => (spell? rest).map (c :: ·)
  | .unit code :: rest =>
      if isHigh code then
        match rest with
        | .unit low :: rest =>
            if isLow low then (spell? rest).map (pair code low :: ·) else none
        | _ => none
      else if isLow code then none
      else (spell? rest).map (Char.ofNat code :: ·)

/-- Plain characters spell themselves. -/
theorem spell?_chars (text : List Char) : spell? (text.map .char) = some text := by
  induction text with
  | nil => rfl
  | cons c rest ih => simp [spell?, ih]

/-- Two halves make one character. -/
example : spell? [.unit 0xD83D, .unit 0xDE00] = some ['😀'] := by decide +kernel

/-- A half alone makes none. -/
example : spell? [.unit 0xD83D, .char 'a'] = none := by decide +kernel

end HubRelay.Json
