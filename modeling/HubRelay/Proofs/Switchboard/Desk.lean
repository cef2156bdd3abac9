import HubRelay.Proofs.Switchboard.Links

/-!
What a switchboard does, step by step.

An operation works on clients, roster, file and links one after the other, and what it did before it
fails is done. A `Desk` keeps all of that. `Desk.perform` takes the steps in their order: a new
client stands in the roster before the roster is written, its process is linked before that, and an
endpoint is struck off before it is clear that it was there. `Desk.perform_eq` says that this comes
to what the operation comes to as a whole.
-/

namespace HubRelay

/-! ### A new key, and back -/

namespace Table

variable {κ ν : Type} [Ranked κ]

theorem eraseEntry_of_absent {key : κ} {entries : List (κ × ν)}
    (absent : ∀ entry ∈ entries, Ranked.rank entry.1 ≠ Ranked.rank key) :
    eraseEntry key entries = entries :=
  List.filter_eq_self.mpr fun entry mem => bne_iff_ne.mpr (absent entry mem)

theorem eraseEntry_insertEntry {key : κ} (value : ν) {entries : List (κ × ν)}
    (absent : ∀ entry ∈ entries, Ranked.rank entry.1 ≠ Ranked.rank key) :
    eraseEntry key (insertEntry key value entries) = entries := by
  induction entries with
  | nil => simp [insertEntry, eraseEntry]
  | cons head rest ih =>
      have differs := absent head List.mem_cons_self
      have others := fun entry mem => absent entry (List.mem_cons_of_mem _ mem)
      have kept : eraseEntry key (head :: rest) = head :: rest := eraseEntry_of_absent absent
      rw [insertEntry]
      split
      · rw [eraseEntry, List.filter_cons_of_neg (by simp)]
        exact kept
      · rw [if_neg (Ne.symm differs), eraseEntry,
          List.filter_cons_of_pos (by simpa using differs)]
        exact congrArg (head :: ·) (ih others)

theorem find?_eq_none_iff {t : Table κ ν} {key : κ} : t.find? key = none ↔ key ∉ t.keys := by
  simp only [Option.eq_none_iff_forall_ne_some, ne_eq, find?_eq_some_iff, keys, List.mem_map,
    Prod.exists, exists_and_right, exists_eq_right, not_exists]

theorem rank_ne_of_absent {t : Table κ ν} {key : κ} (absent : t.find? key = none) :
    ∀ entry ∈ t.entries, Ranked.rank entry.1 ≠ Ranked.rank key := by
  simpa only [find?, Option.map_eq_none_iff, List.find?_eq_none, beq_iff_eq] using absent

/-- What was not there is not missed. -/
theorem erase_of_absent {t : Table κ ν} {key : κ} (absent : t.find? key = none) :
    t.erase key = t :=
  eq_of_entries (eraseEntry_of_absent (rank_ne_of_absent absent))

/-- Taking back a new key leaves no trace of it. -/
theorem erase_insert {t : Table κ ν} {key : κ} (absent : t.find? key = none) (value : ν) :
    (t.insert key value).erase key = t :=
  eq_of_entries (eraseEntry_insertEntry value (rank_ne_of_absent absent))

end Table

def failureOf? {α : Type} : Except HostError α → Option HostError
  | .ok _ => none
  | .error error => some error

theorem failureOf?_eq_some_iff {α : Type} {result : Except HostError α} {error : HostError} :
    failureOf? result = some error ↔ result = .error error := by
  cases result <;> simp [failureOf?]

/-- The failure that an operation ends with; those that are not listed cannot fail. -/
def Switchboard.failure? (s : Switchboard) : HostOperation → Option HostError
  | .register pid callback uuid around => failureOf? (s.register pid callback uuid around).1
  | .openEndpoint pid endpoint => failureOf? (s.openEndpoint pid endpoint)
  | .closeEndpoint pid endpoint => failureOf? (s.closeEndpoint pid endpoint)
  | .hubEndpoint pid endpoint => failureOf? (s.hubEndpoint pid endpoint)
  | .startLoad pid upload now => failureOf? (s.startLoad pid upload now)
  | .startUnload pid number now => failureOf? (s.startUnload pid number now)
  | _ => none

theorem Switchboard.clientOf_eq_ok_iff {s : Switchboard} {pid : Pid} {client : Client} :
    s.clientOf pid = .ok client ↔ s.byPid? pid = some client := by
  unfold clientOf
  cases s.byPid? pid <;> simp

/-- An office with what its monitor was asked. -/
structure Desk extends Office where
  calls : List MonitorCall := []

namespace Desk

/-- Steps at a desk, which may fail. -/
def Task (α : Type) := Desk → Except HostError α × Desk

/-- A failure ends the steps; what was done before it stays. -/
instance : Monad Task where
  pure a d := (.ok a, d)
  bind task next d :=
    match task d with
    | (.ok a, later) => next a later
    | (.error error, later) => (.error error, later)

/-! ### Single steps -/

variable {α : Type}

def fail (error : HostError) : Task α := fun d => (.error error, d)

def look (f : Switchboard → Except HostError α) : Task α := fun d => (f d.board, d)

def edit (f : Desk → Desk) : Task Unit := fun d => (.ok (), f d)

/-- If the steps fail, takes back what they did. -/
def Task.orUndo (task : Task α) (undo : Task Unit) : Task α := fun d =>
  match task d with
  | (.ok a, later) => (.ok a, later)
  | (.error error, later) => (.error error, (undo later).2)

def editClients (f : List Client → List Client) : Task Unit :=
  edit fun d => { d with board := { d.board with clients := f d.board.clients } }

def editRoster (f : Roster → Roster) : Task Unit :=
  edit fun d => { d with board := { d.board with roster := f d.board.roster } }

def ask (calls : Switchboard → List MonitorCall) : Task Unit :=
  edit fun d => { d with calls := d.calls ++ calls d.board }

def link (pid : Pid) (callback : Callback) (linkable : Bool) : Task Unit := do
  ask fun _ => [.link pid callback linkable]
  if !linkable then fail (.linkFailed pid)

/-- Writes the roster into its file. A file that cannot be written stays as it is. -/
def write (writable : Bool) : Task Unit := do
  if !writable then
    let path ← look fun s => .ok s.settings.path
    fail (.notPersisted path)
  edit fun d => { d with file := some d.board.roster.contents }

/-- Enters a client into the roster and writes it down, or strikes it off again. In between the
roster is ahead of the file, which is what taking back is for. -/
def enroll (uuid : Uuid) (id : ClientId) (writable : Bool) : Task Unit := do
  editRoster (·.enter uuid id)
  (write writable).orUndo (editRoster fun roster => ⟨roster.table.erase uuid⟩)

/-- A client that could not be written down leaves no trace in the roster. -/
theorem enroll_eq (d : Desk) {uuid : Uuid} (absent : d.board.roster.find? uuid = none)
    (id : ClientId) (writable : Bool) :
    enroll uuid id writable d =
      let roster := d.board.roster.enter uuid id
      if writable then
        (.ok (), { d with board := { d.board with roster }, file := some roster.contents })
      else (.error (.notPersisted d.board.settings.path), d) := by
  cases writable with
  | true => rfl
  | false =>
      have struck : (⟨(d.board.roster.enter uuid id).table.erase uuid⟩ : Roster) = d.board.roster :=
        congrArg Roster.mk (Table.erase_insert absent id)
      show (_, { d with board := { d.board with roster := ⟨_⟩ } }) = _
      rw [struck]
      rfl

/-! ### Registering -/

/-- Gives a client its number. A new one has its process linked and is written down; the link is
ended again if that fails. A known one is linked only. -/
def assign (pid : Pid) (callback : Callback) (uuid : Uuid) (around : Surroundings) :
    Task ClientId := do
  let known ← look fun s => .ok (s.roster.find? uuid)
  let id ← look (·.idFor uuid)
  link pid callback around.linkable
  if known.isNone then
    (enroll uuid id around.writable).orUndo (ask fun _ => [.unlink pid callback])
  return id

/-- Connects a client that has a number; nothing of this fails. -/
def takeOver (pid : Pid) (callback : Callback) (uuid : Uuid) (id : ClientId) : Task Unit := do
  ask fun s => Switchboard.displaced pid uuid s.clients
  editClients (Switchboard.displace pid uuid)
  ask fun s => Switchboard.replaced uuid s.clients
  editClients (Switchboard.connect pid callback uuid id)

def register (pid : Pid) (callback : Callback) (uuid : Uuid) (around : Surroundings) :
    Task ClientId := do
  let id ← assign pid callback uuid around
  takeOver pid callback uuid id
  return id

theorem takeOver_eq (d : Desk) (pid : Pid) (callback : Callback) (uuid : Uuid) (id : ClientId) :
    takeOver pid callback uuid id d =
      (.ok (),
        { d with
          board := d.board.joined pid callback uuid id d.board.roster
          calls := d.calls ++ (Switchboard.displaced pid uuid d.board.clients ++
            Switchboard.replaced uuid (Switchboard.displace pid uuid d.board.clients)) }) := by
  rw [← List.append_assoc]
  rfl

theorem assign_of_known (d : Desk) {uuid : Uuid} {id : ClientId}
    (known : d.board.roster.find? uuid = some id) (pid : Pid) (callback : Callback)
    (around : Surroundings) :
    assign pid callback uuid around d =
      (if around.linkable then .ok id else .error (.linkFailed pid),
        { d with calls := d.calls ++ [.link pid callback around.linkable] }) := by
  have number : d.board.idFor uuid = .ok id := by rw [Switchboard.idFor, known]
  simp only [assign, bind, look, known, number]
  cases around.linkable <;> rfl

theorem assign_of_new (d : Desk) {uuid : Uuid} (new : d.board.roster.find? uuid = none)
    (pid : Pid) (callback : Callback) (around : Surroundings) :
    assign pid callback uuid around d =
      match d.board.allocate uuid with
      | .error error => (.error error, d)
      | .ok id =>
          if !around.linkable then
            (.error (.linkFailed pid), { d with calls := d.calls ++ [.link pid callback false] })
          else if !around.writable then
            (.error (.notPersisted d.board.settings.path),
              { d with calls := d.calls ++ [.link pid callback true, .unlink pid callback] })
          else
            let roster := d.board.roster.enter uuid id
            (.ok id,
              { board := { d.board with roster }, file := some roster.contents
                calls := d.calls ++ [.link pid callback true] }) := by
  have number : d.board.idFor uuid = d.board.allocate uuid := by rw [Switchboard.idFor, new]
  simp only [assign, bind, look, new, number]
  cases d.board.allocate uuid with
  | error error => rfl
  | ok id =>
      obtain ⟨linkable, writable⟩ := around
      cases linkable with
      | false => rfl
      | true =>
          let linked : Desk := { d with calls := d.calls ++ [.link pid callback true] }
          have enrolled : enroll uuid id writable linked = _ := enroll_eq linked new id writable
          cases writable with
          | true => rfl
          | false =>
              show ((enroll uuid id false).orUndo (ask fun _ => [.unlink pid callback]) >>=
                fun _ => pure id) linked = _
              simp [bind, Task.orUndo, enrolled, ask, edit, linked]

/-- Registering step by step comes to what it comes to as a whole, and asks the monitor the same. -/
theorem register_eq (d : Desk) (pid : Pid) (callback : Callback) (uuid : Uuid)
    (around : Surroundings) :
    register pid callback uuid around d =
      let (result, board, effects) := d.board.register pid callback uuid around
      (result,
        { board, file := effects.written.or d.file, calls := d.calls ++ effects.calls }) := by
  cases known : d.board.roster.find? uuid with
  | some id =>
      simp only [register, bind, assign_of_known d known, takeOver_eq, Switchboard.register,
        Switchboard.idFor, Switchboard.rosterWith, known]
      cases around.linkable with
      | false => rfl
      | true => simp [Switchboard.joined, pure]
  | none =>
      simp only [register, bind, assign_of_new d known, takeOver_eq, Switchboard.register,
        Switchboard.idFor, Switchboard.rosterWith, Roster.insert, Roster.store, known]
      cases d.board.allocate uuid with
      | error error => simp
      | ok id =>
          cases around.linkable with
          | false => rfl
          | true =>
              cases around.writable with
              | false => rfl
              | true => simp [Switchboard.joined, pure, Except.map]

/-! ### The other operations -/

def openEndpoint (pid : Pid) (endpoint : EndpointId) : Task Unit := do
  let _ ← look (·.clientFor pid endpoint)
  editClients (Switchboard.editEndpoints pid (·.insert endpoint ()))

/-- Strikes an endpoint off, and then says whether it was there. -/
def closeEndpoint (pid : Pid) (endpoint : EndpointId) : Task Unit := do
  let client ← look (·.clientOf pid)
  editClients (Switchboard.editEndpoints pid (·.erase endpoint))
  if !client.endpointIds.contains endpoint then fail (.endpointNotRegistered pid endpoint)

def start (pid : Pid) (number : TransactionNumber) (upload : Option Upload) (now : Instant) :
    Task Unit := do
  let client ← look (·.clientOf pid)
  let dock ← look (·.dock.start client.id number upload now)
  edit fun d => { d with board := { d.board with dock } }

/-- The steps of an operation, in the order in which they are taken. What cannot fail is one step.
-/
def perform : HostOperation → Task Unit
  | .register pid callback uuid around => do let _ ← register pid callback uuid around
  | .openEndpoint pid endpoint => openEndpoint pid endpoint
  | .closeEndpoint pid endpoint => closeEndpoint pid endpoint
  | .hubEndpoint pid endpoint => do let _ ← look (·.hubEndpoint pid endpoint)
  | .startLoad pid upload now => start pid upload.info.transaction (some upload) now
  | .startUnload pid number now => start pid number none now
  | operation => edit fun d =>
      { d with
        board := d.board.after operation
        calls := d.calls ++ d.board.asked operation }

/-- An endpoint that a client does not have can be struck off. -/
theorem editEndpoints_erase_of_absent {pid : Pid} {endpoint : EndpointId} {client : Client}
    {clients : List Client} (found : clients.find? (·.runsAs pid) = some client)
    (absent : endpoint ∉ client.endpointIds) :
    Switchboard.editEndpoints pid (·.erase endpoint) clients = clients := by
  induction clients with
  | nil => rfl
  | cons head rest ih =>
      rw [Switchboard.editEndpoints]
      cases runs : head.runsAs pid with
      | true =>
          simp only [List.find?_cons, runs] at found
          obtain rfl := Option.some.inj found
          rw [if_pos rfl]
          have kept := Table.erase_of_absent (Table.find?_eq_none_iff.mpr absent)
          simp only [kept]
      | false =>
          simp only [List.find?_cons, runs] at found
          rw [if_neg Bool.false_ne_true, ih found]

/-- What a task does that changes the switchboard or fails. -/
def settled (d : Desk) : Except HostError Switchboard → Except HostError Unit × Desk
  | .ok board => (.ok (), { d with board })
  | .error error => (.error error, d)

theorem openEndpoint_eq (d : Desk) (pid : Pid) (endpoint : EndpointId) :
    openEndpoint pid endpoint d = d.settled (d.board.openEndpoint pid endpoint) := by
  unfold openEndpoint Switchboard.openEndpoint
  simp only [bind, look]
  cases d.board.clientFor pid endpoint <;> rfl

theorem closeEndpoint_eq (d : Desk) (pid : Pid) (endpoint : EndpointId) :
    closeEndpoint pid endpoint d = d.settled (d.board.closeEndpoint pid endpoint) := by
  unfold closeEndpoint Switchboard.closeEndpoint
  simp only [bind, look]
  cases found : d.board.clientOf pid with
  | error error => rfl
  | ok client =>
      cases there : client.endpointIds.contains endpoint with
      | true =>
          simp only [Except.bind, there]
          rfl
      | false =>
          have absent : endpoint ∉ client.endpointIds := by simpa using there
          have known := Switchboard.clientOf_eq_ok_iff.mp found
          have kept := editEndpoints_erase_of_absent known absent
          simp only [Except.bind, there, editClients, edit, kept]
          rfl

theorem start_eq (d : Desk) (pid : Pid) (number : TransactionNumber) (upload : Option Upload)
    (now : Instant) :
    start pid number upload now d =
      d.settled (do
        let client ← d.board.clientOf pid
        let dock ← d.board.dock.start client.id number upload now
        return { d.board with dock }) := by
  unfold start
  simp only [bind, look]
  cases d.board.clientOf pid with
  | error error => rfl
  | ok client =>
      simp only [Except.bind]
      cases d.board.dock.start client.id number upload now <;> rfl

/-- Every operation comes to the same, whether its steps are taken one by one or as a whole; what
fails has taken back all that it did. -/
theorem perform_eq (d : Desk) (operation : HostOperation) :
    perform operation d =
      ((d.board.failure? operation).elim (.ok ()) .error,
        { d.toOffice.after (.operation operation) with
          calls := d.calls ++ d.board.asked operation }) := by
  -- Only registering asks the monitor, among the operations that can fail.
  have settled_eq (result : Except HostError Switchboard) :
      d.settled result =
        ((failureOf? result).elim (.ok ()) .error,
          { d with board := result.toOption.getD d.board, calls := d.calls ++ [] }) := by
    rw [List.append_nil]
    cases result <;> rfl
  cases operation with
  | register pid callback uuid around =>
      simp only [perform, bind, register_eq, Switchboard.failure?, Office.after, Switchboard.asked]
      cases (d.board.register pid callback uuid around).1 <;> rfl
  | openEndpoint pid endpoint => exact (d.openEndpoint_eq pid endpoint).trans (settled_eq _)
  | closeEndpoint pid endpoint => exact (d.closeEndpoint_eq pid endpoint).trans (settled_eq _)
  | hubEndpoint pid endpoint =>
      simp only [perform, bind, look, Switchboard.failure?]
      cases d.board.hubEndpoint pid endpoint with
      | error error => simp [failureOf?, Office.after, Switchboard.asked, Switchboard.after]
      | ok id => simp [failureOf?, Office.after, Switchboard.asked, Switchboard.after, pure]
  | startLoad pid upload now => exact (d.start_eq pid _ _ now).trans (settled_eq _)
  | startUnload pid number now => exact (d.start_eq pid number none now).trans (settled_eq _)
  | _ => rfl

end Desk

end HubRelay
