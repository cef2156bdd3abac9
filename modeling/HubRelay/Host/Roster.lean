import HubRelay.Host.Error
import HubRelay.Json.Reader

/-!
The roster: which client has which lasting number, in memory and as a file.

The file is a JSON array of records. Reading keeps a record if its identifier can be read, its
number can be a client's, and neither of the two was kept before; a text that is no such array is
an empty roster. Writing lists the roster by identifier.
-/

namespace HubRelay

/-- The numbers of the known clients. -/
structure Roster where
  table : Table Uuid ClientId := Table.empty

namespace Roster

def find? (r : Roster) (uuid : Uuid) : Option ClientId := r.table.find? uuid

def holdsId (r : Roster) (id : ClientId) : Bool := r.table.values.contains id

def pairs (r : Roster) : List (Uuid × ClientId) := r.table.entries

def size (r : Roster) : Nat := r.table.size

def enter (r : Roster) (uuid : Uuid) (id : ClientId) : Roster := ⟨r.table.insert uuid id⟩

/-! ### Reading -/

/-- One entry of the file, as written. -/
structure Record where
  clientId : ClientId
  uuid : List Char
  deriving DecidableEq

def clientId? : Json.Value → Option ClientId
  | .number (some n) => if n < UInt16.size then some (UInt16.ofNat n) else none
  | _ => none

def text? : Json.Value → Option (List Char)
  | .string text => text
  | _ => none

def clientIdField : List Char := "ClientId".toList

def uuidField : List Char := "uuid".toList

/-- Reads the fields of a record. Unknown fields are skipped; a known one may stand there only
once. -/
def fields? (clientId : Option ClientId) (uuid : Option (List Char)) :
    List (Option (List Char) × Json.Value) → Option Record
  | [] =>
      match clientId, uuid with
      | some clientId, some uuid => some { clientId, uuid }
      | _, _ => none
  | (none, _) :: _ => none
  | (some key, value) :: rest =>
      if key = clientIdField then
        match clientId, clientId? value with
        | none, some id => fields? (some id) uuid rest
        | _, _ => none
      else if key = uuidField then
        match uuid, text? value with
        | none, some text => fields? clientId (some text) rest
        | _, _ => none
      else fields? clientId uuid rest

/-- The record that a value denotes: an object with the two fields, or the two values in a row. -/
def record? : Json.Value → Option Record
  | .object fields => fields? none none fields
  | .array [first, second] =>
      match clientId? first, text? second with
      | some clientId, some uuid => some { clientId, uuid }
      | _, _ => none
  | _ => none

def records? (text : List Char) : Option (List Record) :=
  match Json.read? text with
  | some (.array items) => items.mapM record?
  | _ => none

/-- Takes a record into the roster, if nothing speaks against it. -/
def accept (r : Roster) (record : Record) : Roster :=
  match Uuid.ofText? record.uuid with
  | none => r
  | some uuid =>
      if !record.clientId.isAssignable || r.holdsId record.clientId || (r.find? uuid).isSome then r
      else r.enter uuid record.clientId

def ofText (text : List Char) : Roster := ((records? text).getD []).foldl accept {}

/-- The roster in a file; without a file, or if it does not hold text, it is empty. -/
def ofContents (contents : Option ByteArray) : Roster :=
  match contents.bind String.fromUTF8? with
  | none => {}
  | some text => ofText text.toList

/-! ### Writing -/

def recordText (pair : Uuid × ClientId) : List Char :=
  "  \x7b\n    \"ClientId\": ".toList ++ (toString pair.2.toNat).toList ++
    ",\n    \"uuid\": \"".toList ++ pair.1.simple ++ "\"\n  \x7d".toList

/-- The records, a comma and a line break between them. -/
def recordTexts : List (Uuid × ClientId) → List Char
  | [] => []
  | [pair] => recordText pair
  | pair :: rest => recordText pair ++ ",\n".toList ++ recordTexts rest

def text (r : Roster) : List Char :=
  if r.pairs.isEmpty then "[]\n".toList
  else "[\n".toList ++ recordTexts r.pairs ++ "\n]\n".toList

def contents (r : Roster) : ByteArray := (String.ofList r.text).toByteArray

/-- What is written to the file at `path`, if it can be written. -/
def store (r : Roster) (path : String) (writable : Bool) : Except HostError ByteArray :=
  if writable then .ok r.contents else .error (.notPersisted path)

/-- Adds a client and writes the roster down; a client that has a number keeps it, and one that
cannot be written down is not added. -/
def insert (r : Roster) (uuid : Uuid) (id : ClientId) (path : String) (writable : Bool) :
    Except HostError (Roster × ByteArray) :=
  match r.find? uuid with
  | some known => .error (.uuidConflict uuid known)
  | none => ((r.enter uuid id).store path writable).map fun contents => (r.enter uuid id, contents)

end Roster

end HubRelay
