import HubRelay.Json.Reader

/-!
The grammar of JSON texts.

Each rule of the grammar is a relation between a text and what it denotes, without any reference to
a reader. A number denotes a value only if it is written with digits alone, and a string only if
its pieces spell a text; everything else about them is left open, as it is in `Value`. The members
of arrays and objects are built up from the left: `Items` and `Fields` are those that a comma
follows.
-/

namespace HubRelay.Json

def Blank (text : List Char) : Prop := ∀ c ∈ text, isBlank c = true

/-! ### Numbers -/

def IsDigit (c : Char) : Prop := '0' ≤ c ∧ c ≤ '9'

def Digits (text : List Char) : Prop := text ≠ [] ∧ ∀ c ∈ text, IsDigit c

def decimal (text : List Char) : Nat := text.foldl (fun n c => 10 * n + (c.toNat - 48)) 0

/-- A zero, or digits that do not start with one. -/
def Whole (text : List Char) : Prop := text = ['0'] ∨ Digits text ∧ text.head? ≠ some '0'

/-- A whole number that may have a sign. -/
inductive Integer : List Char → Option Nat → Prop
  | plain {text : List Char} : Whole text → Integer text (some (decimal text))
  | negative {text : List Char} : Whole text → Integer ('-' :: text) none

/-- A number that may have a fraction. -/
inductive Fractional : List Char → Option Nat → Prop
  | integer {text : List Char} {digits : Option Nat} : Integer text digits → Fractional text digits
  | fraction {text more : List Char} {digits : Option Nat} :
      Integer text digits → Digits more → Fractional (text ++ '.' :: more) none

def IsMark (c : Char) : Prop := c = 'e' ∨ c = 'E'

def IsSign (c : Char) : Prop := c = '+' ∨ c = '-'

/-- A number. -/
inductive Number : List Char → Option Nat → Prop
  | fractional {text : List Char} {digits : Option Nat} :
      Fractional text digits → Number text digits
  | exponent {text more : List Char} {digits : Option Nat} {mark : Char} :
      Fractional text digits → IsMark mark → Digits more → Number (text ++ mark :: more) none
  | signed {text more : List Char} {digits : Option Nat} {mark sign : Char} :
      Fractional text digits → IsMark mark → IsSign sign → Digits more →
      Number (text ++ mark :: sign :: more) none

/-! ### Strings -/

/-- A character that stands for itself in a string. -/
def IsPlain (c : Char) : Prop := c ≠ '"' ∧ c ≠ '\\' ∧ 0x20 ≤ c.toNat

/-- The ways to write a piece of a string: as itself, by a letter after a backslash, or by four
hexadecimal digits. -/
inductive Spells : List Char → Piece → Prop
  | plain {c : Char} : IsPlain c → Spells [c] (.char c)
  | letter {c : Char} {piece : Piece} : State.escaped? c = some piece → Spells ['\\', c] piece
  | unit {digits : List Char} {code : Nat} : digits.length = 4 →
      Text.Hex.ofDigits? digits = some code → Spells ('\\' :: 'u' :: digits) (.unit code)

/-- What stands between the quotes of a string. -/
inductive Quoted : List Char → List Piece → Prop
  | empty : Quoted [] []
  | more {text front : List Char} {pieces : List Piece} {piece : Piece} :
      Quoted text pieces → Spells front piece → Quoted (text ++ front) (pieces ++ [piece])

/-- The name of a member of an object, up to the colon. -/
inductive Named : List Char → Option (List Char) → Prop
  | name {front text back : List Char} {pieces : List Piece} :
      Blank front → Quoted text pieces → Blank back →
      Named (front ++ '"' :: text ++ '"' :: back ++ [':']) (spell? pieces)

/-! ### Values -/

mutual

/-- The text of a value, without blanks around it. -/
inductive Writes : List Char → Value → Prop
  | null : Writes "null".toList .null
  | false : Writes "false".toList (.bool false)
  | true : Writes "true".toList (.bool true)
  | number {text : List Char} {digits : Option Nat} : Number text digits →
      Writes text (.number digits)
  | string {text : List Char} {pieces : List Piece} : Quoted text pieces →
      Writes ('"' :: text ++ ['"']) (.string (spell? pieces))
  | noItems {blank : List Char} : Blank blank → Writes ('[' :: blank ++ [']']) (.array [])
  | array {text front body back : List Char} {items : List Value} {value : Value} :
      Items text items → Blank front → Writes body value → Blank back →
      Writes ('[' :: text ++ front ++ body ++ back ++ [']']) (.array (items ++ [value]))
  | noFields {blank : List Char} : Blank blank →
      Writes ('\x7b' :: blank ++ ['\x7d']) (.object [])
  | object {text name front body back : List Char}
      {fields : List (Option (List Char) × Value)} {key : Option (List Char)} {value : Value} :
      Fields text fields → Named name key → Blank front → Writes body value → Blank back →
      Writes ('\x7b' :: text ++ name ++ front ++ body ++ back ++ ['\x7d'])
        (.object (fields ++ [(key, value)]))

/-- Items of an array, each with the comma behind it. -/
inductive Items : List Char → List Value → Prop
  | none : Items [] []
  | more {text front body back : List Char} {items : List Value} {value : Value} :
      Items text items → Blank front → Writes body value → Blank back →
      Items (text ++ front ++ body ++ back ++ [',']) (items ++ [value])

/-- Members of an object, each with the comma behind it. -/
inductive Fields : List Char → List (Option (List Char) × Value) → Prop
  | none : Fields [] []
  | more {text name front body back : List Char} {fields : List (Option (List Char) × Value)}
      {key : Option (List Char)} {value : Value} :
      Fields text fields → Named name key → Blank front → Writes body value → Blank back →
      Fields (text ++ name ++ front ++ body ++ back ++ [',']) (fields ++ [(key, value)])

end

/-- A JSON text and the value that it denotes. -/
inductive Denotes : List Char → Value → Prop
  | text {front body back : List Char} {value : Value} :
      Blank front → Writes body value → Blank back → Denotes (front ++ body ++ back) value

/-! ### Parts of the grammar -/

theorem blank_nil : Blank [] := fun _ mem => (List.not_mem_nil mem).elim

theorem Blank.concat {text : List Char} {c : Char} (blank : Blank text) (more : isBlank c = true) :
    Blank (text ++ [c]) := by
  intro d mem
  rcases List.mem_append.mp mem with mem | mem
  · exact blank d mem
  · rwa [List.mem_singleton.mp mem]

theorem Digits.concat {text : List Char} {c : Char} (digits : Digits text) (more : IsDigit c) :
    Digits (text ++ [c]) := by
  refine ⟨by simp, fun d mem => ?_⟩
  rcases List.mem_append.mp mem with mem | mem
  · exact digits.2 d mem
  · rwa [List.mem_singleton.mp mem]

theorem digits_singleton {c : Char} (digit : IsDigit c) : Digits [c] := by
  refine ⟨by simp, fun d mem => ?_⟩
  rwa [List.mem_singleton.mp mem]

theorem decimal_concat (text : List Char) (c : Char) :
    decimal (text ++ [c]) = 10 * decimal text + (c.toNat - 48) :=
  List.foldl_append

theorem decimalDigit?_eq_some_iff {c : Char} {d : Nat} :
    decimalDigit? c = some d ↔ IsDigit c ∧ c.toNat - 48 = d := by
  unfold decimalDigit? IsDigit
  by_cases digit : '0' ≤ c ∧ c ≤ '9'
  · rw [if_pos digit, Option.some.injEq, and_iff_right digit]
  · rw [if_neg digit]
    exact iff_of_false nofun fun both => digit both.1

end HubRelay.Json
