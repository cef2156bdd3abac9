import HubRelay.Host.Station

/-!
Runs of a switchboard, and of the offices that keep one on a file.

A run is a list of operations, one after the other. A callback that calls back does so when its
operation has ended, so what it starts stands behind that operation in the list. What the monitor
and the disk answer is part of an operation, so that runs cover all that they can answer.

An office is a switchboard with the contents of its roster's file, which nobody else writes. It can
be closed and opened again under other settings.

`Switchboard.Admission` is all that a registration can come to, and `Switchboard.Acts` all that any
other operation can come to, with what the monitor of processes is asked. `Switchboard.Change`
leaves of this what becomes of clients and roster; what holds in every run is derived from these.
-/

namespace HubRelay

/-- What can be asked of a switchboard. All that is left out are look-ups, which change nothing. -/
inductive HostOperation where
  | register (pid : Pid) (callback : Callback) (uuid : Uuid) (around : Surroundings)
  | death (pid : Pid)
  | restart
  | openEndpoint (pid : Pid) (endpoint : EndpointId)
  | closeEndpoint (pid : Pid) (endpoint : EndpointId)
  | hubEndpoint (pid : Pid) (endpoint : EndpointId)
  | broadcast (message : HubMessage) (permissions : List String)
  | route (message : HubMessage) (permissions : List String)
  | tellApps (client : ClientId) (apps : List AppInfo)
  | startLoad (pid : Pid) (upload : Upload) (now : Instant)
  | startUnload (pid : Pid) (number : TransactionNumber) (now : Instant)
  | settle (client : ClientId) (number : TransactionNumber)
  | nextFragment (client : ClientId) (number : TransactionNumber) (acknowledged : Nat)
      (now : Instant)
  | tellResult (client : ClientId) (number : TransactionNumber) (success : Bool)

namespace Switchboard

/-- The switchboard after an operation; one that fails leaves it as it was. -/
def after (s : Switchboard) : HostOperation → Switchboard
  | .register pid callback uuid around => (s.register pid callback uuid around).2.1
  | .death pid => (s.death pid).1
  | .restart => s.restart.1
  | .openEndpoint pid endpoint => (s.openEndpoint pid endpoint).toOption.getD s
  | .closeEndpoint pid endpoint => (s.closeEndpoint pid endpoint).toOption.getD s
  | .hubEndpoint _ _ | .broadcast _ _ | .route _ _ | .tellApps _ _ => s
  | .startLoad pid upload now => (s.startLoad pid upload now).toOption.getD s
  | .startUnload pid number now => (s.startUnload pid number now).toOption.getD s
  | .settle client number => (s.settle client number).2
  | .nextFragment client number acknowledged now =>
      ((s.nextFragment client number acknowledged now).map Prod.snd).getD s
  | .tellResult client number success => (s.tellResult client number success).2.1

def run (s : Switchboard) (operations : List HostOperation) : Switchboard :=
  operations.foldl after s

/-- What an operation asks the monitor of processes. -/
def asked (s : Switchboard) : HostOperation → List MonitorCall
  | .register pid callback uuid around => (s.register pid callback uuid around).2.2.calls
  | .death pid => (s.death pid).2
  | _ => []

/-- What the operations of a run ask the monitor, in this order. -/
def askedIn (s : Switchboard) : List HostOperation → List MonitorCall
  | [] => []
  | operation :: rest => s.asked operation ++ (s.after operation).askedIn rest

/-! ### What an operation comes to -/

/-- The clients and the roster after a successful registration of `uuid`. -/
def joined (s : Switchboard) (pid : Pid) (callback : Callback) (uuid : Uuid) (id : ClientId)
    (roster : Roster) : Switchboard :=
  { s with roster, clients := connect pid callback uuid id (displace pid uuid s.clients) }

/-- Whether an endpoint id may stand among those of a client that runs as the process. -/
def Allows (s : Switchboard) (pid : Pid) (endpoint : EndpointId) : Prop :=
  ∃ client, s.byPid? pid = some client ∧ endpoint < s.endpointLimit client

variable {s : Switchboard}

/-- All that registering can come to: a refusal, with a link at most that is given up again, or the
client is connected and whoever it displaces is unlinked. The calls to the monitor are part of it,
so later modules need not open `register`. -/
inductive Admission (s : Switchboard) (pid : Pid) (callback : Callback) (uuid : Uuid) :
    Except HostError ClientId → Switchboard → List MonitorCall → Prop where
  | refused {error : HostError} {calls : List MonitorCall} :
      calls = [] ∨ calls = [.link pid callback false] ∨
        calls = [.link pid callback true, .unlink pid callback] →
      Admission s pid callback uuid (.error error) s calls
  | joined (id : ClientId) (roster : Roster) :
      Admission s pid callback uuid (.ok id) (s.joined pid callback uuid id roster)
        (.link pid callback true ::
          (displaced pid uuid s.clients ++ replaced uuid (displace pid uuid s.clients)))

theorem admission (s : Switchboard) (pid : Pid) (callback : Callback) (uuid : Uuid)
    (around : Surroundings) :
    s.Admission pid callback uuid (s.register pid callback uuid around).1
      (s.register pid callback uuid around).2.1
      (s.register pid callback uuid around).2.2.calls := by
  unfold register
  split
  · exact .refused (.inl rfl)
  · split
    · exact .refused (.inr (.inl rfl))
    · split
      · exact .refused (.inr (.inr rfl))
      · exact .joined _ _

/-- The switchboard with this transaction under way, or none. -/
def withPending (s : Switchboard) (pending : Option Transaction) : Switchboard :=
  { s with dock := { s.dock with pending } }

/-- All that an operation other than registering can come to, with what it asks the monitor. -/
inductive Acts (s : Switchboard) :
    HostOperation → Switchboard → List MonitorCall → Prop where
  | idle (operation : HostOperation) : Acts s operation s []
  | died {pid : Pid} {client : Client} :
      s.byPid? pid = some client →
      Acts s (.death pid)
        { s with
          clients := disconnectFirst (·.runsAs pid) s.clients
          dock := (s.dock.settleClient client.id).2 }
        client.cut
  | opened {pid : Pid} {endpoint : EndpointId} : s.Allows pid endpoint →
      Acts s (.openEndpoint pid endpoint)
        { s with clients := editEndpoints pid (·.insert endpoint ()) s.clients } []
  | closed (pid : Pid) (endpoint : EndpointId) :
      Acts s (.closeEndpoint pid endpoint)
        { s with clients := editEndpoints pid (·.erase endpoint) s.clients } []
  | started (operation : HostOperation) {pid : Pid} {client : Client} {t : Transaction} :
      s.byPid? pid = some client → t.client = client.id →
      Acts s operation (s.withPending (some t)) []
  | handed (operation : HostOperation) {t later : Transaction} :
      s.dock.pending = some t → later.client = t.client →
      Acts s operation (s.withPending (some later)) []
  | cleared (operation : HostOperation) : Acts s operation (s.withPending none) []

theorem allows_of_clientFor {pid : Pid} {endpoint : EndpointId} {client : Client}
    (found : s.clientFor pid endpoint = .ok client) :
    s.byPid? pid = some client ∧ endpoint < s.endpointLimit client := by
  unfold clientFor clientOf at found
  cases known : s.byPid? pid with
  | none => simp only [known, bind, Except.bind] at found; cases found
  | some other =>
      simp only [known, bind, Except.bind] at found
      split at found
      · cases found
      · rename_i inRange
        obtain rfl := Except.ok.inj found
        exact ⟨rfl, UInt16.not_le.mp inRange⟩

theorem acts_openEndpoint (s : Switchboard) (pid : Pid) (endpoint : EndpointId) :
    s.Acts (.openEndpoint pid endpoint) ((s.openEndpoint pid endpoint).toOption.getD s) [] := by
  unfold openEndpoint
  cases found : s.clientFor pid endpoint with
  | error error => exact .idle _
  | ok client => exact .opened ⟨client, allows_of_clientFor found⟩

theorem acts_closeEndpoint (s : Switchboard) (pid : Pid) (endpoint : EndpointId) :
    s.Acts (.closeEndpoint pid endpoint) ((s.closeEndpoint pid endpoint).toOption.getD s) [] := by
  unfold closeEndpoint
  cases s.clientOf pid with
  | error error => exact .idle _
  | ok client =>
      simp only [bind, Except.bind]
      split
      · exact .idle _
      · exact .closed pid endpoint

theorem pending_of_start {d later : Dock} {client : ClientId} {number : TransactionNumber}
    {upload : Option Upload} {now : Instant}
    (started : d.start client number upload now = .ok later) :
    later = { d with pending := some { number, client, activeAt := now, upload } } := by
  unfold Dock.start at started
  split at started
  · split at started
    · exact (Except.ok.inj started).symm
    · cases started
  · exact (Except.ok.inj started).symm

/-- Starting a load or an unload. -/
theorem acts_start {pid : Pid} {number : TransactionNumber} {upload : Option Upload}
    {now : Instant} (operation : HostOperation) :
    s.Acts operation
      ((do let client ← s.clientOf pid
           let dock ← s.dock.start client.id number upload now
           return { s with dock } : Except HostError Switchboard).toOption.getD s) [] := by
  unfold clientOf
  cases found : s.byPid? pid with
  | none => exact .idle operation
  | some client =>
      cases started : s.dock.start client.id number upload now with
      | error error =>
          simp only [bind, Except.bind, started]
          exact .idle operation
      | ok dock =>
          obtain rfl := pending_of_start started
          simp only [bind, Except.bind, started]
          exact .started operation found rfl

theorem acts_settle (operation : HostOperation) (client : ClientId) (number : TransactionNumber) :
    s.Acts operation (s.settle client number).2 [] := by
  simp only [settle, Dock.settle]
  split
  · exact .cleared operation
  · exact .idle operation

theorem acts_nextFragment (s : Switchboard) (client : ClientId) (number : TransactionNumber)
    (acknowledged : Nat) (now : Instant) :
    s.Acts (.nextFragment client number acknowledged now)
      (((s.nextFragment client number acknowledged now).map Prod.snd).getD s) [] := by
  unfold nextFragment Dock.next
  cases pending : s.dock.pending with
  | none => exact .idle _
  | some t =>
      simp only
      split
      · exact .idle _
      · split
        · exact .idle _
        · split
          · exact .idle _
          · split
            · exact .idle _
            · exact .handed _ pending rfl

theorem acts (s : Switchboard) {operation : HostOperation}
    (other : ∀ pid callback uuid around, operation ≠ .register pid callback uuid around) :
    s.Acts operation (s.after operation) (s.asked operation) := by
  cases operation with
  | register pid callback uuid around => exact absurd rfl (other pid callback uuid around)
  | death pid =>
      simp only [after, asked, death]
      split
      · exact .idle _
      · next found => exact .died found
  | restart => exact .cleared _
  | openEndpoint pid endpoint => exact s.acts_openEndpoint pid endpoint
  | closeEndpoint pid endpoint => exact s.acts_closeEndpoint pid endpoint
  | hubEndpoint | broadcast | route | tellApps => exact .idle _
  | startLoad | startUnload => exact acts_start _
  | settle client number => exact acts_settle _ client number
  | nextFragment client number acknowledged now =>
      exact s.acts_nextFragment client number acknowledged now
  | tellResult client number success =>
      simp only [after, tellResult]
      split
      · exact acts_settle _ client number
      · exact acts_settle _ client number

/-! ### What an operation does to clients and roster -/

/-- The ways in which clients change while nobody registers. -/
inductive Edit (s : Switchboard) : Switchboard → Prop where
  | none (dock : Dock) : Edit s { s with dock }
  | left (pid : Pid) (dock : Dock) :
      Edit s { s with dock, clients := disconnectFirst (·.runsAs pid) s.clients }
  | opened {pid : Pid} {endpoint : EndpointId} : s.Allows pid endpoint →
      Edit s { s with clients := editEndpoints pid (·.insert endpoint ()) s.clients }
  | closed (pid : Pid) (endpoint : EndpointId) :
      Edit s { s with clients := editEndpoints pid (·.erase endpoint) s.clients }

/-- The ways in which clients and roster change. -/
inductive Change (s : Switchboard) : Switchboard → Prop where
  | edited {t : Switchboard} : s.Edit t → Change s t
  | returned {pid : Pid} {callback : Callback} {uuid : Uuid} {id : ClientId} :
      s.roster.find? uuid = some id → Change s (s.joined pid callback uuid id s.roster)
  | entered {pid : Pid} {callback : Callback} {uuid : Uuid} {id : ClientId} :
      s.roster.find? uuid = .none → s.allocate uuid = .ok id →
      Change s (s.joined pid callback uuid id (s.roster.enter uuid id))

/-- All that registering can come to: it is refused, a known client returns, or a new one is written
down. Here the monitor is left out and the number is kept instead. -/
inductive Registers (s : Switchboard) (pid : Pid) (callback : Callback) (uuid : Uuid)
    (around : Surroundings) : Except HostError ClientId × Switchboard × Effects → Prop where
  | refused {error : HostError} {calls : List MonitorCall} :
      Registers s pid callback uuid around (.error error, s, { calls })
  | returned {id : ClientId} {calls : List MonitorCall} :
      s.roster.find? uuid = some id →
      Registers s pid callback uuid around
        (.ok id, s.joined pid callback uuid id s.roster, { calls })
  | entered {id : ClientId} {calls : List MonitorCall} :
      s.roster.find? uuid = .none → s.allocate uuid = .ok id → around.writable = true →
      Registers s pid callback uuid around
        (.ok id, s.joined pid callback uuid id (s.roster.enter uuid id),
          { calls, written := some (s.roster.enter uuid id).contents })

theorem registers (s : Switchboard) (pid : Pid) (callback : Callback) (uuid : Uuid)
    (around : Surroundings) :
    Registers s pid callback uuid around (s.register pid callback uuid around) := by
  cases known : s.roster.find? uuid with
  | some id =>
      simp only [register, idFor, rosterWith, known]
      split
      · exact .refused
      · exact .returned known
  | none =>
      cases allocated : s.allocate uuid with
      | error error =>
          simp only [register, idFor, known, allocated]
          exact .refused
      | ok id =>
          simp only [register, idFor, rosterWith, known, allocated, Roster.insert, Roster.store]
          cases writable : around.writable with
          | false => split <;> exact .refused
          | true =>
              split
              · exact .refused
              · exact .entered known allocated writable

theorem change_register (s : Switchboard) (pid : Pid) (callback : Callback) (uuid : Uuid)
    (around : Surroundings) : s.Change (s.register pid callback uuid around).2.1 := by
  generalize result : s.register pid callback uuid around = outcome
  have registered := s.registers pid callback uuid around
  rw [result] at registered
  cases registered with
  | refused => exact .edited (.none s.dock)
  | returned known => exact .returned known
  | entered fresh allocated => exact .entered fresh allocated

/-- Every operation but registering edits the clients and leaves the roster alone. -/
theorem edit_after (s : Switchboard) {operation : HostOperation}
    (other : ∀ pid callback uuid around, operation ≠ .register pid callback uuid around) :
    s.Edit (s.after operation) := by
  have acts := s.acts other
  generalize s.after operation = t at acts ⊢
  generalize s.asked operation = calls at acts
  cases acts with
  | idle => exact .none s.dock
  | died => exact .left _ _
  | opened allows => exact .opened allows
  | closed pid endpoint => exact .closed pid endpoint
  | started | handed | cleared => exact .none _

theorem edit_death (s : Switchboard) (pid : Pid) : s.Edit (s.death pid).1 :=
  show s.Edit (s.after (.death pid)) from s.edit_after nofun

theorem Edit.roster_eq {t : Switchboard} (edit : s.Edit t) : t.roster = s.roster := by
  cases edit <;> rfl

/-- Every operation changes clients and roster in one of these ways. -/
theorem change_after (s : Switchboard) (operation : HostOperation) :
    s.Change (s.after operation) := by
  by_cases registers : ∃ pid callback uuid around,
      operation = .register pid callback uuid around
  · obtain ⟨pid, callback, uuid, around, rfl⟩ := registers
    exact s.change_register pid callback uuid around
  · simp only [not_exists] at registers
    exact .edited (s.edit_after registers)

/-! ### Runs -/

/-- What every change keeps holds after every run. All invariants of a switchboard are proved by it.
-/
theorem run_induction {P : Switchboard → Prop} (start : P s)
    (keeps : ∀ {t u : Switchboard}, P t → t.Change u → P u) (operations : List HostOperation) :
    P (s.run operations) := by
  induction operations generalizing s with
  | nil => exact start
  | cons operation rest ih => exact ih (keeps start (s.change_after operation))

end Switchboard

/-! ### Offices -/

/-- A switchboard and the contents of the file that its roster is kept in. Nobody else writes the
file. -/
structure Office where
  board : Switchboard
  file : Option ByteArray

/-- What happens to an office: an operation on its switchboard, or that it is closed and opened
again. -/
inductive OfficeEvent where
  | operation (operation : HostOperation)
  | reopen (settings : HostSettings)

namespace Office

def ofFile (settings : HostSettings) (file : Option ByteArray) : Office :=
  { board := .ofContents settings file, file }

/-- A file that is written holds what was written, and nothing else; every other operation leaves it
alone. -/
def after (o : Office) : OfficeEvent → Office
  | .operation (.register pid callback uuid around) =>
      let (_, board, effects) := o.board.register pid callback uuid around
      { board, file := effects.written.or o.file }
  | .operation operation => { o with board := o.board.after operation }
  | .reopen settings => ofFile settings o.file

def run (o : Office) (events : List OfficeEvent) : Office := events.foldl after o

theorem run_append (o : Office) (past later : List OfficeEvent) :
    o.run (past ++ later) = (o.run past).run later :=
  List.foldl_append

end Office

end HubRelay
