import HubRelay.Text.Hex

/-!
The numbers of host clients and of their endpoints.

A client id has nine bits, so that it fits between the top bit of an endpoint id and the six bits
that an ordinary client may use: an endpoint id with the top bit set names a client and one of its
endpoints. The id with all bits set is not of this form; it addresses every client.
-/

namespace HubRelay

/-- The lasting number of a host client. -/
abbrev ClientId := UInt16

/-- The number of a process. -/
abbrev Pid := Int

namespace ClientId

def unassigned : ClientId := 0

def system : ClientId := 1

def vendorFirst : ClientId := 2

def vendorLast : ClientId := 0x1fe

/-- The number of the hub's own layer, which no client gets. -/
def layer : ClientId := 0x1ff

def isAssignable (id : ClientId) : Bool := id != unassigned && id < layer

/-- The numbers given to ordinary clients, ascending. -/
def vendorIds : List ClientId :=
  (List.range (vendorLast.toNat + 1 - vendorFirst.toNat)).map fun offset =>
    UInt16.ofNat (vendorFirst.toNat + offset)

end ClientId

/-- The number of an endpoint of a host client, bare or tagged with its client. -/
abbrev EndpointId := UInt16

namespace EndpointId

def tagBit : EndpointId := 0x8000

/-- Where the client's number stands in a tagged id. -/
def clientShift : UInt16 := 6

/-- Ordinary clients number their endpoints below this. -/
def vendorLimit : EndpointId := 64

/-- The system's client numbers its endpoints below this. -/
def systemLimit : EndpointId := 0x8000

/-- The id that addresses every connected client. -/
def broadcast : EndpointId := 0xffff

/-- The id that tells the hub whose endpoint `id` is. Only the low bits of both numbers count. -/
def tag (id : EndpointId) (client : ClientId) : EndpointId :=
  tagBit ||| ((client &&& 0x1ff) <<< clientShift) ||| (id &&& 0x3f)

def isTagged (id : EndpointId) : Bool := id != broadcast && id &&& tagBit != 0

/-- The number that the client itself uses. -/
def bare (id : EndpointId) : EndpointId := if id.isTagged then id &&& 0x3f else id

/-- The client that a tagged id names. -/
def owner? (id : EndpointId) : Option ClientId :=
  if id.isTagged then some ((id &&& 0x7fff) >>> clientShift) else none

/-- The ends of the two ranges meet without overlap. -/
example : (tag 63 ClientId.vendorLast, bare (tag 63 ClientId.vendorLast),
    owner? (tag 63 ClientId.vendorLast)) = (0xffbf, 63, some ClientId.vendorLast) := by decide

end EndpointId

end HubRelay
