import HubRelay.Exchange.Message
import HubRelay.Text.Quoted

/-!
The endpoints registered at an exchange, by handle.

Handles below `firstNegotiated` are given out by name, the others by `register`, which takes the
lowest free one. Every registration bears a serial number, so that two registrations at one handle
can be told apart.
-/

namespace HubRelay

/-- Who handles the traffic of a registration: the exchange itself, which echoes requests or
swallows the answers to its own probes, or an endpoint of the program around it. -/
inductive Endpoint
  | echo
  | probe
  | custom (number : Nat)
  deriving DecidableEq, Repr

/-- An endpoint that holds a handle. -/
structure Registration where
  handle : Handle
  serial : Nat
  descriptor : Descriptor
  endpoint : Endpoint
  deriving DecidableEq

/-- The registrations of one exchange. -/
structure Directory where
  capacity : Nat
  table : Table Handle Registration := Table.empty
  issued : Nat := 0

namespace Directory

def firstNegotiated : Nat := 16

/-- How many handles can be negotiated at all. -/
def mostNegotiated : Nat := 240

/-- A directory with room for `capacity` negotiated handles, as far as there are so many. -/
def ofCapacity (capacity : Nat) : Directory := { capacity := min capacity mostNegotiated }

def find? (d : Directory) (handle : Handle) : Option Registration := d.table.find? handle

/-- The registrations in the order of their handles. -/
def entries (d : Directory) : List Registration := d.table.values

def handles (d : Directory) : List Handle := d.table.keys

/-- The handles that `register` chooses from, ascending. -/
def negotiated (d : Directory) : List Handle :=
  (List.range d.capacity).map fun offset => UInt8.ofNat (firstNegotiated + offset)

def isAssignable (d : Directory) (handle : Handle) : Bool :=
  handle != Header.noHandle &&
    (handle.toNat < firstNegotiated || handle.toNat - firstNegotiated < d.capacity)

/-- Whether a live registration has this identifier. -/
def holds (d : Directory) (uuid : Uuid) : Bool :=
  d.entries.any fun r => r.descriptor.uuid == uuid

/-- Writes the registration down under the next serial number. -/
def place (d : Directory) (handle : Handle) (descriptor : Descriptor) (endpoint : Endpoint) :
    Directory :=
  { d with
    table := d.table.insert handle { handle, serial := d.issued, descriptor, endpoint }
    issued := d.issued + 1 }

/-- Registers at the lowest free negotiated handle. The identifier is looked at first: an endpoint
that is there already is told so even if there is no room. -/
def register (d : Directory) (descriptor : Descriptor) (endpoint : Endpoint) :
    Except ExchangeError (Handle × Directory) :=
  if d.holds descriptor.uuid then .error (.duplicateUuid descriptor.uuid)
  else
    match d.negotiated.find? fun handle => !d.table.contains handle with
    | none => .error (.directoryFull d.capacity)
    | some handle => .ok (handle, d.place handle descriptor endpoint)

/-- Registers at a handle given by name, which has to be one of the predefined handles or of the
negotiated ones. The handle is looked at before the identifier. -/
def registerAt (d : Directory) (handle : Handle) (descriptor : Descriptor) (endpoint : Endpoint) :
    Except ExchangeError (Handle × Directory) :=
  if !d.isAssignable handle then .error (.unassignable handle)
  else if d.table.contains handle then .error (.handleInUse handle)
  else if d.holds descriptor.uuid then .error (.duplicateUuid descriptor.uuid)
  else .ok (handle, d.place handle descriptor endpoint)

/-- Takes the registration at `handle` away; nothing when there is none. -/
def unregister (d : Directory) (handle : Handle) : Option (Registration × Directory) :=
  (d.find? handle).map fun r => (r, { d with table := d.table.erase handle })

end Directory

/-! ### A registration in words -/

def Role.name : Role → String
  | .client => "Client"
  | .service => "Service"

def describeOption (value : Option String) : String :=
  match value with
  | none => "None"
  | some text => "Some(" ++ text ++ ")"

def describeFields (name : String) (fields : List String) : String :=
  name ++ " \x7b " ++ String.intercalate ", " fields ++ " \x7d"

def Version.describe (v : Version) : String :=
  describeFields "Version" [s!"major: {v.major}", s!"minor: {v.minor}", s!"patch: {v.patch}"]

def Descriptor.describe (d : Descriptor) : String :=
  describeFields "EndpointDescriptor"
    ["kind: " ++ d.role.name, "uuid: " ++ d.uuid.hyphenated, "version: " ++ d.version.describe,
      "name: " ++ describeOption (d.name.map Text.quoted), s!"min_payload_len: {d.minPayload}",
      s!"command_count: {d.commands}",
      "request_timeout: " ++ describeOption (d.timeout.map Text.ofSpan)]

/-- A registration in words; what handles its traffic is left out. -/
def Registration.describe (r : Registration) : String :=
  describeFields "RegisteredEndpoint"
    [s!"handle: {r.handle}", "descriptor: " ++ r.descriptor.describe, ".."]

end HubRelay
