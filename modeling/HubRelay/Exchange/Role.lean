import HubRelay.Time
import HubRelay.Uuid

/-!
The two roles of an endpoint, and what an endpoint says about itself when it registers.
-/

namespace HubRelay

/-- Which side of a capability an endpoint takes. -/
inductive Role
  | client
  | service
  deriving DecidableEq, Repr

/-- The version of the protocol an endpoint speaks. -/
structure Version where
  major : UInt8
  minor : UInt8
  patch : UInt16
  deriving DecidableEq

namespace Version

def text (v : Version) : String :=
  toString v.major.toNat ++ "." ++ toString v.minor.toNat ++ "." ++ toString v.patch.toNat

/-- Versions are ordered by their first difference. -/
def compare (a b : Version) : Ordering :=
  (Ord.compare a.major.toNat b.major.toNat).then
    ((Ord.compare a.minor.toNat b.minor.toNat).then (Ord.compare a.patch.toNat b.patch.toNat))

end Version

/-- What an endpoint says about itself. Commands are numbered below `commands`; frames with a
shorter payload than `minPayload` never reach the endpoint; a `timeout` overrides the setting of
the exchange. -/
structure Descriptor where
  role : Role
  uuid : Uuid
  version : Version
  name : Option String := none
  minPayload : Nat := 0
  commands : UInt16
  timeout : Option Span := none
  deriving DecidableEq

end HubRelay
