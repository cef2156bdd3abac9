import HubRelay.Host.Disk
import HubRelay.Host.Roster
import HubRelay.Host.Transaction

/-!
The switchboard between host processes and the hub.

Every client keeps its number for good; a process that registers under the client's identifier
connects it. A connection is watched: registering asks the monitor to link the process, and
whoever is displaced is unlinked. What the callbacks of clients are to be told is fixed when an
operation ends; telling them may start further operations.
-/

namespace HubRelay

/-- Where a client wants to be called; the number tells callbacks apart. -/
structure Callback where
  number : Nat
  deriving DecidableEq, Repr

/-- How a switchboard is set up. -/
structure HostSettings where
  path : String := "hublink_clients.json"
  transactionTimeout : Span := 5 * Span.second
  systemUuid : Uuid := Uuid.ofNat 0x9a17008d6bf1445a90116d21bd985b6c
  maxClients : Nat := 64

instance : Ranked UInt16 := ⟨UInt16.toNat, fun _ _ h => UInt16.toNat_inj.mp h⟩

/-- A known client. A client that is not connected has neither process nor callback and no
endpoints; every operation sets these fields one by one. -/
structure Client where
  id : ClientId
  uuid : Uuid
  pid? : Option Pid := none
  callback? : Option Callback := none
  endpoints : Table EndpointId Unit := Table.empty

namespace Client

def runsAs (c : Client) (pid : Pid) : Bool := c.pid? == some pid

def isConnected (c : Client) : Bool := c.callback?.isSome

def endpointIds (c : Client) : List EndpointId := c.endpoints.keys

/-- The process with the callback that it is watched for. -/
def connection (c : Client) : Option (Pid × Callback) :=
  match c.pid?, c.callback? with
  | some pid, some callback => some (pid, callback)
  | _, _ => none

def disconnected (c : Client) : Client :=
  { c with pid? := none, callback? := none, endpoints := Table.empty }

/-- The client once it has registered; its endpoints stay if its process does. A process that has
been started anew has to open its endpoints again. -/
def renewed (c : Client) (pid : Pid) (callback : Callback) : Client :=
  { c with
    pid? := some pid
    callback? := some callback
    endpoints := if c.pid? = some pid then c.endpoints else Table.empty }

/-- A client in words, where `address` shows a callback. -/
def describe (address : Callback → String) (c : Client) : String :=
  let option := fun text : Option String => (text.map fun t => "Some(" ++ t ++ ")").getD "None"
  "HalClient \x7b client_id: " ++ toString c.id ++ ", uuid: " ++ c.uuid.hyphenated ++
    ", pid: " ++ option (c.pid?.map toString) ++
    ", callback: " ++ option (c.callback?.map address) ++
    ", endpoint_ids: \x7b" ++ String.intercalate ", " (c.endpointIds.map toString) ++ "\x7d \x7d"

end Client

/-! ### What callbacks are told and monitors asked -/

/-- A program on the hub. -/
structure AppInfo where
  appId : UInt64
  version : UInt32
  enabled : Bool
  permissions : List String

/-- A message from a program on the hub to an endpoint of the host. -/
structure HubMessage where
  appId : UInt64
  endpoint : EndpointId
  type : UInt32
  body : Bytes
  permissions : List String
  deriving DecidableEq

/-- What a callback is told. -/
inductive Notice
  | apps (apps : List AppInfo)
  | message (message : HubMessage) (permissions : List String)
  | result (transaction : TransactionNumber) (success : Bool)
  | restarted

/-- Who is to be told what, in this order. -/
abbrev Notices := List (Callback × Notice)

/-- What the monitor of processes was asked. -/
inductive MonitorCall
  | link (pid : Pid) (callback : Callback) (accepted : Bool)
  | unlink (pid : Pid) (callback : Callback)
  deriving DecidableEq, Repr

/-- The call that ends the link of a client. -/
def Client.cut (c : Client) : List MonitorCall :=
  (c.connection.map fun (pid, callback) => .unlink pid callback).toList

/-- How the surroundings answer while a client registers: whether the process can be watched, and
whether the roster's file can be written. -/
structure Surroundings where
  linkable : Bool
  writable : Bool

/-- What registering did to the surroundings. -/
structure Effects where
  calls : List MonitorCall := []
  written : Option ByteArray := none

/-- The state of a switchboard. -/
structure Switchboard where
  settings : HostSettings
  clients : List Client
  roster : Roster
  dock : Dock

namespace Switchboard

/-- A switchboard that knows the clients in the roster's file; nobody is connected. -/
def ofContents (settings : HostSettings) (contents : Option ByteArray) : Switchboard :=
  let roster := Roster.ofContents contents
  { settings, roster
    clients := roster.pairs.map fun (uuid, id) => { id, uuid }
    dock := { timeout := settings.transactionTimeout } }

/-! ### Look-ups -/

def byPid? (s : Switchboard) (pid : Pid) : Option Client := s.clients.find? (·.runsAs pid)

def byId? (s : Switchboard) (id : ClientId) : Option Client := s.clients.find? (·.id == id)

def byUuid? (s : Switchboard) (uuid : Uuid) : Option Client := s.clients.find? (·.uuid == uuid)

/-- The callback of the client with this number, while it is connected. -/
def callback? (s : Switchboard) (id : ClientId) : Option Callback :=
  (s.byId? id).bind Client.callback?

/-- The callbacks of the connected clients, in the order of the clients. -/
def callbacks (s : Switchboard) : List Callback := s.clients.filterMap Client.callback?

/-! ### Clients come -/

/-- The number for a client that has none yet: the system's own client gets its reserved number if
nobody has it, everyone else the lowest free one. -/
def allocate (s : Switchboard) (uuid : Uuid) : Except HostError ClientId :=
  if s.settings.maxClients ≤ s.roster.size then .error (.idsExhausted s.settings.maxClients)
  else if uuid = s.settings.systemUuid ∧ !s.roster.holdsId ClientId.system then .ok ClientId.system
  else
    match ClientId.vendorIds.find? fun id => !s.roster.holdsId id with
    | some id => .ok id
    | none => .error (.idsExhausted s.settings.maxClients)

/-- Disconnects every other client that ran as the process of `uuid`. Nothing else is done about
them; what they have under way stays. -/
def displace (pid : Pid) (uuid : Uuid) (clients : List Client) : List Client :=
  clients.map fun c => if c.runsAs pid && c.uuid != uuid then c.disconnected else c

/-- The links that end when the process now belongs to `uuid`. -/
def displaced (pid : Pid) (uuid : Uuid) (clients : List Client) : List MonitorCall :=
  (clients.filter fun c => c.runsAs pid && c.uuid != uuid).flatMap Client.cut

/-- Connects the client `uuid`, which is added at the end if it is new. Clients thus stand in the
order in which they became known, those of the file first. -/
def connect (pid : Pid) (callback : Callback) (uuid : Uuid) (id : ClientId)
    (clients : List Client) : List Client :=
  if clients.any (·.uuid == uuid) then
    clients.map fun c =>
      if c.uuid == uuid then c.renewed pid callback else c
  else clients ++ [Client.renewed { id, uuid } pid callback]

/-- The link of the client that registering replaces. -/
def replaced (uuid : Uuid) (clients : List Client) : List MonitorCall :=
  (clients.find? (·.uuid == uuid)).toList.flatMap Client.cut

/-- The number of a client, or the one that it is going to have. -/
def idFor (s : Switchboard) (uuid : Uuid) : Except HostError ClientId :=
  match s.roster.find? uuid with
  | some id => .ok id
  | none => s.allocate uuid

/-- The roster with the client in it, and what has to be written for that. A client that is known is
not written again. -/
def rosterWith (s : Switchboard) (uuid : Uuid) (id : ClientId) (writable : Bool) :
    Except HostError (Roster × Option ByteArray) :=
  match s.roster.find? uuid with
  | some _ => .ok (s.roster, none)
  | none =>
      (s.roster.insert uuid id s.settings.path writable).map fun (roster, contents) =>
        (roster, some contents)

/-- Connects a client as a process, with the number it has or with a new one that is written down
first. The process is linked before the client is written down; if that fails, the link is ended
again. -/
def register (s : Switchboard) (pid : Pid) (callback : Callback) (uuid : Uuid)
    (around : Surroundings) : Except HostError ClientId × Switchboard × Effects :=
  match s.idFor uuid with
  | .error error => (.error error, s, {})
  | .ok id =>
      if !around.linkable then
        (.error (.linkFailed pid), s, { calls := [.link pid callback false] })
      else
        match s.rosterWith uuid id around.writable with
        | .error error =>
            (.error error, s, { calls := [.link pid callback true, .unlink pid callback] })
        | .ok (roster, written) =>
            let remaining := displace pid uuid s.clients
            (.ok id,
              { s with roster, clients := connect pid callback uuid id remaining },
              { calls := .link pid callback true ::
                  (displaced pid uuid s.clients ++ replaced uuid remaining)
                written })

/-! ### Clients go -/

/-- Disconnects the first client that satisfies the test. -/
def disconnectFirst (test : Client → Bool) : List Client → List Client
  | [] => []
  | c :: rest =>
      if test c then c.disconnected :: rest else c :: disconnectFirst test rest

/-- The process is gone: its client is disconnected and what it had under way is dropped. Other
clients may go on with theirs. -/
def death (s : Switchboard) (pid : Pid) : Switchboard × List MonitorCall :=
  match s.byPid? pid with
  | none => (s, [])
  | some client =>
      ({ s with
          clients := disconnectFirst (·.runsAs pid) s.clients
          dock := (s.dock.settleClient client.id).2 },
        client.cut)

/-- The hub was restarted: what was under way is dropped, and every connected client is told.
Clients stay connected and keep their endpoints. -/
def restart (s : Switchboard) : Switchboard × Notices :=
  ({ s with dock := s.dock.clear.2 }, s.callbacks.map (·, .restarted))

/-! ### Endpoints -/

/-- The endpoint ids of a client are below this. -/
def endpointLimit (s : Switchboard) (client : Client) : EndpointId :=
  if client.uuid = s.settings.systemUuid then EndpointId.systemLimit else EndpointId.vendorLimit

def clientOf (s : Switchboard) (pid : Pid) : Except HostError Client :=
  match s.byPid? pid with
  | none => .error (.unknownPid pid)
  | some client => .ok client

/-- The client that runs as the process, if it may use the endpoint id. Ids at or above the limit
would get in the way of the tag. -/
def clientFor (s : Switchboard) (pid : Pid) (endpoint : EndpointId) : Except HostError Client := do
  let client ← s.clientOf pid
  let limit := s.endpointLimit client
  if limit ≤ endpoint then throw (.endpointOutOfRange client.id endpoint limit)
  return client

/-- Changes the endpoints of the first client that runs as the process. -/
def editEndpoints (pid : Pid) (edit : Table EndpointId Unit → Table EndpointId Unit) :
    List Client → List Client
  | [] => []
  | c :: rest =>
      if c.runsAs pid then { c with endpoints := edit c.endpoints } :: rest
      else c :: editEndpoints pid edit rest

/-- Writes down that a process has opened an endpoint. -/
def openEndpoint (s : Switchboard) (pid : Pid) (endpoint : EndpointId) :
    Except HostError Switchboard := do
  let _ ← s.clientFor pid endpoint
  return { s with clients := editEndpoints pid (·.insert endpoint ()) s.clients }

/-- Writes down that a process has closed an endpoint. It must have been opened, and no limit is
looked at. -/
def closeEndpoint (s : Switchboard) (pid : Pid) (endpoint : EndpointId) :
    Except HostError Switchboard := do
  let client ← s.clientOf pid
  if !client.endpointIds.contains endpoint then throw (.endpointNotRegistered pid endpoint)
  return { s with clients := editEndpoints pid (·.erase endpoint) s.clients }

/-- The id under which the hub knows an endpoint. The system's own client keeps its ids, all others
have theirs tagged with their numbers. -/
def hubEndpoint (s : Switchboard) (pid : Pid) (endpoint : EndpointId) :
    Except HostError EndpointId := do
  let client ← s.clientFor pid endpoint
  return if client.uuid = s.settings.systemUuid then endpoint else endpoint.tag client.id

/-! ### Messages from the hub -/

/-- The callback of the client that owns an endpoint id; an id without a client is the system's. -/
def callbackFor? (s : Switchboard) (endpoint : EndpointId) : Option Callback :=
  let client :=
    match endpoint.owner? with
    | some id => s.byId? id
    | none => s.byUuid? s.settings.systemUuid
  client.bind Client.callback?

def broadcast (s : Switchboard) (message : HubMessage) (permissions : List String) : Notices :=
  s.callbacks.map (·, .message message permissions)

/-- Takes a message to the client that owns its endpoint, which sees the id that it uses itself. The
answer says whether there was anyone to take it to; a message to everybody always counts as taken.
-/
def route (s : Switchboard) (message : HubMessage) (permissions : List String) : Bool × Notices :=
  if message.endpoint = EndpointId.broadcast then (true, s.broadcast message permissions)
  else
    match s.callbackFor? message.endpoint with
    | none => (false, [])
    | some callback =>
        (true, [(callback,
          .message { message with endpoint := message.endpoint.bare } permissions)])

def tellApps (s : Switchboard) (client : ClientId) (apps : List AppInfo) : Bool × Notices :=
  match s.callback? client with
  | none => (false, [])
  | some callback => (true, [(callback, .apps apps)])

/-! ### Transactions -/

def startLoad (s : Switchboard) (pid : Pid) (upload : Upload) (now : Instant) :
    Except HostError Switchboard := do
  let client ← s.clientOf pid
  let dock ← s.dock.startLoad client.id upload now
  return { s with dock }

def startUnload (s : Switchboard) (pid : Pid) (number : TransactionNumber) (now : Instant) :
    Except HostError Switchboard := do
  let client ← s.clientOf pid
  let dock ← s.dock.startUnload client.id number now
  return { s with dock }

def settle (s : Switchboard) (client : ClientId) (number : TransactionNumber) :
    Bool × Switchboard :=
  let (found, dock) := s.dock.settle client number
  (found, { s with dock })

/-- Hands out the next piece of a load. -/
def nextFragment (s : Switchboard) (client : ClientId) (number : TransactionNumber)
    (acknowledged : Nat) (now : Instant) : Option (Fragment × Switchboard) :=
  (s.dock.next client number acknowledged now).map fun (fragment, dock) =>
    (fragment, { s with dock })

/-- Ends a transaction and tells the client how it went. The answer says whether the client was
told; the transaction ends in any case. -/
def tellResult (s : Switchboard) (client : ClientId) (number : TransactionNumber)
    (success : Bool) : Bool × Switchboard × Notices :=
  let (_, s) := s.settle client number
  match s.callback? client with
  | none => (false, s, [])
  | some callback => (true, s, [(callback, .result number success)])

end Switchboard

end HubRelay
