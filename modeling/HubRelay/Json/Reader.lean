import HubRelay.Json.Value

/-!
Reading a JSON text one character at a time.

The reader is a machine whose state is what may come next together with the arrays and objects
that are open around it. A text is accepted if the machine takes every character and ends after
exactly one value. Because a run over two texts is a run over the first and then over the second
(`run_append`), what a text means can be put together from its parts.
-/

namespace HubRelay.Json

/-- An array or object that is not closed yet, with what it holds so far in reverse order. -/
inductive Frame
  | array (items : List Value)
  | object (fields : List (Option (List Char) × Value)) (key : Option (List Char))

/-- What a number may go on with. -/
inductive NumberPart
  | sign
  | zero
  | digits
  | point
  | fraction
  | mark
  | markSign
  | exponent
  deriving DecidableEq, Repr

def NumberPart.isWhole : NumberPart → Bool
  | .zero | .digits | .fraction | .exponent => true
  | _ => false

/-- What may come next. -/
inductive Mode
  | value (closable : Bool)
  | key (closable : Bool)
  | colon
  | after
  | ended (value : Value)
  | text (isKey : Bool) (pieces : List Piece)
  | escape (isKey : Bool) (pieces : List Piece)
  | unit (isKey : Bool) (pieces : List Piece) (left code : Nat)
  | number (part : NumberPart) (digits : Option Nat)
  | word (rest : List Char) (value : Value)

/-- What may come next, and what is open around it. -/
structure State where
  mode : Mode
  frames : List Frame

def isBlank (c : Char) : Bool := c == ' ' || c == '\n' || c == '\t' || c == '\r'

def decimalDigit? (c : Char) : Option Nat :=
  if '0' ≤ c ∧ c ≤ '9' then some (c.toNat - 48) else none

namespace State

def initial : State := ⟨.value false, []⟩

def close (frames : List Frame) (value : Value) : State :=
  match frames with
  | [] => ⟨.ended value, []⟩
  | .array items :: rest => ⟨.after, .array (value :: items) :: rest⟩
  | .object fields key :: rest => ⟨.after, .object ((key, value) :: fields) none :: rest⟩

def openValue (s : State) (c : Char) : Option State :=
  match c with
  | '[' => some ⟨.value true, .array [] :: s.frames⟩
  | '\x7b' => some ⟨.key true, .object [] none :: s.frames⟩
  | '"' => some ⟨.text false [], s.frames⟩
  | '-' => some ⟨.number .sign none, s.frames⟩
  | '0' => some ⟨.number .zero (some 0), s.frames⟩
  | 't' => some ⟨.word ['r', 'u', 'e'] (.bool true), s.frames⟩
  | 'f' => some ⟨.word ['a', 'l', 's', 'e'] (.bool false), s.frames⟩
  | 'n' => some ⟨.word ['u', 'l', 'l'] .null, s.frames⟩
  | c => (decimalDigit? c).map fun d => ⟨.number .digits (some d), s.frames⟩

/-- Goes on inside an array or object after one of its members. -/
def continueAfter (s : State) (c : Char) : Option State :=
  if isBlank c then some s
  else
    match s.frames, c with
    | .array _ :: _, ',' => some { s with mode := .value false }
    | .array items :: rest, ']' => some (close rest (.array items.reverse))
    | .object _ _ :: _, ',' => some { s with mode := .key false }
    | .object fields _ :: rest, '\x7d' => some (close rest (.object fields.reverse))
    | _, _ => none

/-- Goes on after a value of either kind of surroundings. -/
def afterValue (s : State) (c : Char) : Option State :=
  match s.mode with
  | .ended _ => if isBlank c then some s else none
  | _ => s.continueAfter c

def closeText (s : State) (isKey : Bool) (pieces : List Piece) : Option State :=
  let text := spell? pieces.reverse
  if isKey then
    match s.frames with
    | .object fields _ :: rest => some ⟨.colon, .object fields text :: rest⟩
    | _ => none
  else some (close s.frames (.string text))

/-- The piece that the character after a backslash names. -/
def escaped? (c : Char) : Option Piece :=
  match c with
  | '"' => some (.char '"')
  | '\\' => some (.char '\\')
  | '/' => some (.char '/')
  | 'b' => some (.char '\x08')
  | 'f' => some (.char '\x0c')
  | 'n' => some (.char '\n')
  | 'r' => some (.char '\r')
  | 't' => some (.char '\t')
  | _ => none

/-- Takes a character of a number; none when the number does not go on with it. -/
def extendNumber (part : NumberPart) (digits : Option Nat) (c : Char) :
    Option (NumberPart × Option Nat) :=
  match part, decimalDigit? c with
  | .sign, some 0 => some (.zero, none)
  | .sign, some _ => some (.digits, none)
  | .digits, some d => some (.digits, digits.map (10 * · + d))
  | .point, some _ | .fraction, some _ => some (.fraction, none)
  | .mark, some _ | .markSign, some _ | .exponent, some _ => some (.exponent, none)
  | .zero, none | .digits, none =>
      if c = '.' then some (.point, none)
      else if c = 'e' ∨ c = 'E' then some (.mark, none) else none
  | .fraction, none => if c = 'e' ∨ c = 'E' then some (.mark, none) else none
  | .mark, none => if c = '+' ∨ c = '-' then some (.markSign, none) else none
  | _, _ => none

/-- Takes one character; none when no text goes on with it. -/
def step (s : State) (c : Char) : Option State :=
  match s.mode with
  | .value closable =>
      if isBlank c then some s
      else if closable && c == ']' then
        match s.frames with
        | .array items :: rest => some (close rest (.array items.reverse))
        | _ => none
      else s.openValue c
  | .key closable =>
      if isBlank c then some s
      else if c = '"' then some { s with mode := .text true [] }
      else if closable && c == '\x7d' then
        match s.frames with
        | .object fields _ :: rest => some (close rest (.object fields.reverse))
        | _ => none
      else none
  | .colon =>
      if isBlank c then some s
      else if c = ':' then some { s with mode := .value false } else none
  | .after | .ended _ => s.afterValue c
  | .text isKey pieces =>
      if c = '"' then s.closeText isKey pieces
      else if c = '\\' then some { s with mode := .escape isKey pieces }
      else if c.toNat < 0x20 then none
      else some { s with mode := .text isKey (.char c :: pieces) }
  | .escape isKey pieces =>
      if c = 'u' then some { s with mode := .unit isKey pieces 4 0 }
      else (escaped? c).map fun piece => { s with mode := .text isKey (piece :: pieces) }
  | .unit isKey pieces left code =>
      match Text.Hex.value? c with
      | none => none
      | some digit =>
          let code := 16 * code + digit
          if left ≤ 1 then some { s with mode := .text isKey (.unit code :: pieces) }
          else some { s with mode := .unit isKey pieces (left - 1) code }
  | .number part digits =>
      match extendNumber part digits c with
      | some (part, digits) => some { s with mode := .number part digits }
      | none => if part.isWhole then (close s.frames (.number digits)).afterValue c else none
  | .word (expected :: rest) value =>
      if c ≠ expected then none
      else if rest = [] then some (close s.frames value)
      else some { s with mode := .word rest value }
  | .word [] _ => none

/-- Takes the characters of a text one after the other. -/
def run (s : State) (text : List Char) : Option State := text.foldlM step s

theorem run_cons (s : State) (c : Char) (rest : List Char) :
    s.run (c :: rest) = (s.step c).bind (·.run rest) :=
  List.foldlM_cons

theorem run_append (s : State) (front back : List Char) :
    s.run (front ++ back) = (s.run front).bind fun s => s.run back :=
  List.foldlM_append

def finish? (s : State) : Option Value :=
  match s.mode, s.frames with
  | .ended value, [] => some value
  | .number part digits, [] => if part.isWhole then some (.number digits) else none
  | _, _ => none

end State

/-- The value that a text denotes; none when it is no JSON text. -/
def read? (text : List Char) : Option Value := (State.initial.run text).bind State.finish?

end HubRelay.Json
