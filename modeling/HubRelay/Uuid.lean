import HubRelay.Table
import HubRelay.Text.Hex

/-!
Universally unique identifiers: numbers of 128 bits, and their texts.

`ofText?` reads the four spellings in use (plain digits, hyphenated groups, braces around the
groups, and a resource name); `ofText?_simple` says that the plain spelling reads back.
-/

namespace HubRelay

open Text

/-- An identifier of 128 bits. -/
structure Uuid where
  bits : BitVec 128
  deriving DecidableEq

namespace Uuid

instance : Inhabited Uuid := ⟨⟨0⟩⟩

/-- Identifiers are ordered as numbers. -/
instance : Ranked Uuid :=
  ⟨fun u => u.bits.toNat, fun a b h => by
    cases a; cases b; simp only [Uuid.mk.injEq]; exact BitVec.eq_of_toNat_eq h⟩

def ofNat (n : Nat) : Uuid := ⟨BitVec.ofNat 128 n⟩

/-! ### Writing -/

def simple (u : Uuid) : List Char := Hex.fixed 32 u.bits.toNat

/-- Places a hyphen after the eighth, twelfth, sixteenth and twentieth digit. -/
def hyphenate (digits : List Char) : List Char :=
  digits.take 8 ++ '-' :: ((digits.drop 8).take 4 ++ '-' :: ((digits.drop 12).take 4 ++
    '-' :: ((digits.drop 16).take 4 ++ '-' :: digits.drop 20)))

def hyphenated (u : Uuid) : String := String.ofList (hyphenate u.simple)

/-! ### Reading -/

def ofSimple? (text : List Char) : Option Uuid :=
  if text.length = 32 then (Hex.ofDigits? text).map ofNat else none

/-- The digits of a text of thirty-six characters with hyphens in the four places. -/
def unhyphenate? (text : List Char) : Option (List Char) :=
  let digits := text.take 8 ++ (text.drop 9).take 4 ++ (text.drop 14).take 4 ++
    (text.drop 19).take 4 ++ text.drop 24
  if text.length = 36 ∧ hyphenate digits = text then some digits else none

def ofHyphenated? (text : List Char) : Option Uuid :=
  (unhyphenate? text).bind ofSimple?

/-- The identifier written as hyphenated groups in braces. -/
def ofBraced? : List Char → Option Uuid
  | '\x7b' :: rest =>
      if rest.getLast? = some '\x7d' then ofHyphenated? rest.dropLast else none
  | _ => none

def urnSpace : List Char := "urn:uuid:".toList

/-- The identifier written as a resource name, whose name space may be in capitals. -/
def ofUrn? (text : List Char) : Option Uuid :=
  if (text.take urnSpace.length).map Char.toLower = urnSpace then
    ofHyphenated? (text.drop urnSpace.length)
  else none

/-- The identifier a text denotes; the length of the text decides which spelling is read. -/
def ofText? (text : List Char) : Option Uuid :=
  match text.length with
  | 32 => ofSimple? text
  | 36 => ofHyphenated? text
  | 38 => ofBraced? text
  | 45 => ofUrn? text
  | _ => none

theorem ofText?_simple (u : Uuid) : ofText? u.simple = some u := by
  have fits : u.bits.toNat < Nat.pow 16 32 := u.bits.isLt
  have len : u.simple.length = 32 := Hex.length_fixed _ _
  have read : ofSimple? u.simple = some u := by
    rw [ofSimple?, if_pos len]
    simp only [simple, Hex.ofDigits?_fixed fits, Option.map_some, ofNat, BitVec.ofNat_toNat,
      BitVec.setWidth_eq]
  unfold ofText?
  rw [len]
  exact read

/-- Braces and capital digits are accepted. -/
example : ofText? "\x7b9A17008D-6BF1-445A-9011-6D21BD985B6C\x7d".toList =
    ofText? "9a17008d6bf1445a90116d21bd985b6c".toList := by decide +kernel

end Uuid

end HubRelay
