import HubRelay.Proofs.Switchboard.Desk

/-!
What a switchboard refuses changes nothing.

`Refuses` lists every reason that there is for refusing an operation, and `failure?_eq_some_iff`
says that an operation fails exactly for one of them. The steps that a refused operation took before
are taken back: clients, roster, file and what is under way are as before, and so is what is linked,
also when the process belonged to another client, who is not disturbed before nothing can fail any
more.
-/

namespace HubRelay

namespace HostOperation

/-- The process that has to be a client's. -/
def caller? : HostOperation → Option Pid
  | .openEndpoint pid _ | .closeEndpoint pid _ | .hubEndpoint pid _ | .startLoad pid _ _
  | .startUnload pid _ _ => some pid
  | _ => none

/-- The endpoint id that has to be in the range of its client. -/
def ranged? : HostOperation → Option (Pid × EndpointId)
  | .openEndpoint pid endpoint | .hubEndpoint pid endpoint => some (pid, endpoint)
  | _ => none

/-- The process that starts a transaction, and when. -/
def starts? : HostOperation → Option (Pid × Instant)
  | .startLoad pid _ now | .startUnload pid _ now => some (pid, now)
  | _ => none

/-- An operation on an endpoint is made by the process that it names. -/
theorem caller?_of_ranged {operation : HostOperation} {pid : Pid} {endpoint : EndpointId}
    (ranged : operation.ranged? = some (pid, endpoint)) : operation.caller? = some pid := by
  cases operation with
  | openEndpoint | hubEndpoint => exact congrArg (·.map Prod.fst) ranged
  | _ => cases ranged

/-- So is one that starts a transaction. -/
theorem caller?_of_starts {operation : HostOperation} {pid : Pid} {now : Instant}
    (starts : operation.starts? = some (pid, now)) : operation.caller? = some pid := by
  cases operation with
  | startLoad | startUnload => exact congrArg (·.map Prod.fst) starts
  | _ => cases starts

/-- No operation is of both kinds. -/
theorem starts?_of_ranged {operation : HostOperation} {pid : Pid} {endpoint : EndpointId}
    (ranged : operation.ranged? = some (pid, endpoint)) : operation.starts? = none := by
  cases operation with
  | openEndpoint | hubEndpoint => rfl
  | _ => cases ranged

end HostOperation

namespace Switchboard

variable {s : Switchboard} {operation : HostOperation} {error : HostError} {pid : Pid}
  {callback : Callback} {uuid : Uuid} {around : Surroundings} {endpoint : EndpointId}

/-- No number is left for a new client: there are as many clients as there may be, or every number
that it could get is given away. -/
def NoneLeft (s : Switchboard) (uuid : Uuid) : Prop :=
  s.settings.maxClients ≤ s.roster.size ∨
    (uuid = s.settings.systemUuid → s.roster.holdsId ClientId.system = true) ∧
      ∀ id ∈ ClientId.vendorIds, s.roster.holdsId id = true

/-- Allocating fails only for want of numbers. -/
theorem allocate_eq_error_iff :
    s.allocate uuid = .error error ↔
      s.NoneLeft uuid ∧ .idsExhausted s.settings.maxClients = error := by
  unfold allocate NoneLeft
  split
  · next full => simp [full]
  · next room =>
    split
    · next free =>
      obtain ⟨own, free⟩ := free
      simp only [Bool.not_eq_true'] at free
      simp [room, own, free]
    · next other =>
      have held : uuid = s.settings.systemUuid → s.roster.holdsId ClientId.system = true := by
        simpa using other
      cases found : ClientId.vendorIds.find? fun id => !s.roster.holdsId id with
      | some id =>
          have free := List.find?_some found
          have mem := List.mem_of_find?_eq_some found
          simp only [reduceCtorEq, room, false_or, false_iff, not_and]
          intro full
          simp [full.2 id mem] at free
      | none =>
          have full : ∀ id ∈ ClientId.vendorIds, s.roster.holdsId id = true := by
            simpa using found
          simp only [Except.error.injEq]
          exact (and_iff_right (.inr ⟨held, full⟩)).symm

/-- Every reason for refusing an operation. Each constructor names the operations that it concerns,
what holds in the switchboard, and the error that is told. -/
inductive Refuses (s : Switchboard) : HostOperation → HostError → Prop
  | unknownPid {operation : HostOperation} {pid : Pid} :
      operation.caller? = some pid → s.byPid? pid = none →
      Refuses s operation (.unknownPid pid)
  | idsExhausted {pid : Pid} {callback : Callback} {uuid : Uuid} {around : Surroundings} :
      s.roster.find? uuid = none → s.NoneLeft uuid →
      Refuses s (.register pid callback uuid around) (.idsExhausted s.settings.maxClients)
  | linkFailed {pid : Pid} {callback : Callback} {uuid : Uuid} {around : Surroundings} :
      (s.roster.find? uuid = none → ¬ s.NoneLeft uuid) → around.linkable = false →
      Refuses s (.register pid callback uuid around) (.linkFailed pid)
  | notPersisted {pid : Pid} {callback : Callback} {uuid : Uuid} {around : Surroundings} :
      s.roster.find? uuid = none → ¬ s.NoneLeft uuid → around.linkable = true →
      around.writable = false →
      Refuses s (.register pid callback uuid around) (.notPersisted s.settings.path)
  | endpointOutOfRange {operation : HostOperation} {pid : Pid} {endpoint : EndpointId}
      {client : Client} :
      operation.ranged? = some (pid, endpoint) → s.byPid? pid = some client →
      s.endpointLimit client ≤ endpoint →
      Refuses s operation (.endpointOutOfRange client.id endpoint (s.endpointLimit client))
  | endpointNotRegistered {pid : Pid} {endpoint : EndpointId} {client : Client} :
      s.byPid? pid = some client → endpoint ∉ client.endpointIds →
      Refuses s (.closeEndpoint pid endpoint) (.endpointNotRegistered pid endpoint)
  | transactionPending {operation : HostOperation} {pid : Pid} {now : Instant} {client : Client}
      {t : Transaction} :
      operation.starts? = some (pid, now) → s.byPid? pid = some client →
      s.dock.pending = some t → now - t.activeAt < s.dock.timeout →
      Refuses s operation (.transactionPending t.kind t.number t.client)

/-! ### Each operation -/

/-- A client that is known has its number. A new one gets none if none is left. -/
theorem idFor_eq_error_iff :
    s.idFor uuid = .error error ↔
      s.roster.find? uuid = none ∧ s.NoneLeft uuid ∧
        .idsExhausted s.settings.maxClients = error := by
  unfold idFor
  cases s.roster.find? uuid with
  | some id => simp
  | none => simp [allocate_eq_error_iff]

/-- There is a number for a client that is known, or as long as numbers are left. -/
theorem exists_idFor_iff :
    (∃ id, s.idFor uuid = .ok id) ↔ (s.roster.find? uuid = none → ¬ s.NoneLeft uuid) := by
  constructor
  · rintro ⟨id, number⟩ new full
    rw [idFor_eq_error_iff.mpr ⟨new, full, rfl⟩] at number
    cases number
  · intro room
    cases found : s.idFor uuid with
    | ok id => exact ⟨id, rfl⟩
    | error error =>
        obtain ⟨new, full, -⟩ := idFor_eq_error_iff.mp found
        exact absurd full (room new)

/-- Writing down a client fails if it is new and the file cannot be written. -/
theorem rosterWith_eq_error_iff {id : ClientId} {writable : Bool} :
    s.rosterWith uuid id writable = .error error ↔
      s.roster.find? uuid = none ∧ writable = false ∧ .notPersisted s.settings.path = error := by
  unfold rosterWith
  cases new : s.roster.find? uuid with
  | some id => simp
  | none => cases writable <;> simp [Roster.insert, Roster.store, new, Except.map]

/-- Registering can fail in three steps, which come in this order: finding a number, linking the
process, and writing the client down. -/
theorem register_eq_error_iff :
    (s.register pid callback uuid around).1 = .error error ↔
      s.idFor uuid = .error error ∨
        ∃ id, s.idFor uuid = .ok id ∧
          (around.linkable = false ∧ .linkFailed pid = error ∨
            around.linkable = true ∧ s.rosterWith uuid id around.writable = .error error) := by
  unfold register
  cases s.idFor uuid with
  | error other => simp
  | ok id =>
      cases around.linkable with
      | false => simp
      | true => cases written : s.rosterWith uuid id around.writable <;> simp [written]

/-- The switchboard refuses a registration exactly for the reasons listed. -/
theorem register_refused_iff :
    s.failure? (.register pid callback uuid around) = some error ↔
      s.Refuses (.register pid callback uuid around) error := by
  rw [failure?, failureOf?_eq_some_iff, register_eq_error_iff, idFor_eq_error_iff]
  constructor
  · rintro (⟨new, full, rfl⟩ | ⟨id, given, ⟨refused, rfl⟩ | ⟨linked, failed⟩⟩)
    · exact .idsExhausted new full
    · exact .linkFailed (exists_idFor_iff.mp ⟨id, given⟩) refused
    · obtain ⟨new, unwritable, rfl⟩ := rosterWith_eq_error_iff.mp failed
      exact .notPersisted new (exists_idFor_iff.mp ⟨id, given⟩ new) linked unwritable
  · intro refuses
    cases refuses with
    | idsExhausted new full => exact .inl ⟨new, full, rfl⟩
    | linkFailed room refused =>
        obtain ⟨id, given⟩ := exists_idFor_iff.mpr room
        exact .inr ⟨id, given, .inl ⟨refused, rfl⟩⟩
    | notPersisted new room linked unwritable =>
        obtain ⟨id, given⟩ := exists_idFor_iff.mpr fun _ => room
        exact .inr ⟨id, given, .inr ⟨linked, rosterWith_eq_error_iff.mpr ⟨new, unwritable, rfl⟩⟩⟩
    | unknownPid caller => cases caller
    | endpointOutOfRange ranged => cases ranged
    | transactionPending starts => cases starts

/-- A chain of two steps fails in the first or in the second. -/
theorem bind_eq_error_iff {α β : Type} {x : Except HostError α} {f : α → Except HostError β} :
    x >>= f = .error error ↔ x = .error error ∨ ∃ a, x = .ok a ∧ f a = .error error := by
  cases x <;> simp [bind, Except.bind]

/-- A process without a client is unknown. -/
theorem clientOf_eq_error_iff :
    s.clientOf pid = .error error ↔ s.byPid? pid = none ∧ .unknownPid pid = error := by
  unfold clientOf
  cases s.byPid? pid <;> simp

/-- Next to this, the endpoint has to be in the range of the client. -/
theorem clientFor_eq_error_iff :
    s.clientFor pid endpoint = .error error ↔
      s.byPid? pid = none ∧ .unknownPid pid = error ∨
        ∃ client, s.byPid? pid = some client ∧ s.endpointLimit client ≤ endpoint ∧
          .endpointOutOfRange client.id endpoint (s.endpointLimit client) = error := by
  rw [clientFor, bind_eq_error_iff, clientOf_eq_error_iff]
  simp only [clientOf_eq_ok_iff]
  refine or_congr_right (exists_congr fun client => and_congr_right fun _ => ?_)
  by_cases beyond : s.endpointLimit client ≤ endpoint
  · simp [beyond, throw, throwThe, MonadExceptOf.throw, bind, Except.bind]
  · simp [beyond, pure, Except.pure]

/-- Operations on an endpoint fail as the lookup of their client does. -/
theorem failure?_of_ranged (ranged : operation.ranged? = some (pid, endpoint)) :
    s.failure? operation = some error ↔ s.clientFor pid endpoint = .error error := by
  cases operation with
  | openEndpoint | hubEndpoint =>
      obtain ⟨rfl, rfl⟩ := Prod.mk.inj (Option.some.inj ranged)
      simp [failure?, failureOf?_eq_some_iff, openEndpoint, hubEndpoint, bind_eq_error_iff, pure,
        Except.pure]
  | _ => cases ranged

/-- This is what the list of refusals says of them. -/
theorem ranged_refused_iff (ranged : operation.ranged? = some (pid, endpoint)) :
    s.failure? operation = some error ↔ s.Refuses operation error := by
  rw [failure?_of_ranged ranged, clientFor_eq_error_iff]
  have caller := HostOperation.caller?_of_ranged ranged
  constructor
  · rintro (⟨unknown, rfl⟩ | ⟨client, known, beyond, rfl⟩)
    · exact .unknownPid caller unknown
    · exact .endpointOutOfRange ranged known beyond
  · intro refuses
    cases refuses with
    | unknownPid called unknown =>
        obtain rfl := Option.some.inj (called.symm.trans caller)
        exact .inl ⟨unknown, rfl⟩
    | endpointOutOfRange ranged' known beyond =>
        obtain ⟨rfl, rfl⟩ := Prod.mk.inj (Option.some.inj (ranged'.symm.trans ranged))
        exact .inr ⟨_, known, beyond, rfl⟩
    | transactionPending starts =>
        rw [HostOperation.starts?_of_ranged ranged] at starts
        cases starts
    | idsExhausted | linkFailed | notPersisted | endpointNotRegistered => cases ranged

/-- Closing fails for a process that is unknown and for an endpoint that it has not registered. -/
theorem closeEndpoint_eq_error_iff :
    s.closeEndpoint pid endpoint = .error error ↔
      s.byPid? pid = none ∧ .unknownPid pid = error ∨
        ∃ client, s.byPid? pid = some client ∧ endpoint ∉ client.endpointIds ∧
          .endpointNotRegistered pid endpoint = error := by
  rw [closeEndpoint, bind_eq_error_iff, clientOf_eq_error_iff]
  simp only [clientOf_eq_ok_iff]
  refine or_congr_right (exists_congr fun client => and_congr_right fun _ => ?_)
  by_cases there : endpoint ∈ client.endpointIds
  · simp [there, pure, Except.pure]
  · simp [there, throw, throwThe, MonadExceptOf.throw, bind, Except.bind]

/-- The switchboard refuses to close an endpoint exactly for these reasons. -/
theorem closeEndpoint_refused_iff :
    s.failure? (.closeEndpoint pid endpoint) = some error ↔
      s.Refuses (.closeEndpoint pid endpoint) error := by
  rw [failure?, failureOf?_eq_some_iff, closeEndpoint_eq_error_iff]
  constructor
  · rintro (⟨unknown, rfl⟩ | ⟨client, known, absent, rfl⟩)
    · exact .unknownPid rfl unknown
    · exact .endpointNotRegistered known absent
  · intro refuses
    cases refuses with
    | unknownPid called unknown =>
        obtain rfl := Option.some.inj called
        exact .inl ⟨unknown, rfl⟩
    | endpointNotRegistered known absent => exact .inr ⟨_, known, absent, rfl⟩
    | endpointOutOfRange ranged => cases ranged
    | transactionPending starts => cases starts

/-- A transaction is refused while another one is pending that has not run out. -/
theorem start_eq_error_iff {d : Dock} {client : ClientId} {number : TransactionNumber}
    {upload : Option Upload} {now : Instant} :
    d.start client number upload now = .error error ↔
      ∃ t, d.pending = some t ∧ now - t.activeAt < d.timeout ∧
        .transactionPending t.kind t.number t.client = error := by
  unfold Dock.start Dock.isFree
  cases d.pending with
  | none => simp
  | some t =>
      by_cases lapsed : d.timeout ≤ now - t.activeAt
      · simp [lapsed]
      · simp [lapsed, Nat.lt_of_not_le lapsed]

/-- A load or an unload fails for a process that is unknown, or for a transaction that is pending.
-/
theorem failure?_of_starts {now : Instant} (starts : operation.starts? = some (pid, now)) :
    s.failure? operation = some error ↔
      s.byPid? pid = none ∧ .unknownPid pid = error ∨
        ∃ client t, s.byPid? pid = some client ∧ s.dock.pending = some t ∧
          now - t.activeAt < s.dock.timeout ∧
          .transactionPending t.kind t.number t.client = error := by
  cases operation with
  | startLoad | startUnload =>
      obtain ⟨rfl, rfl⟩ := Prod.mk.inj (Option.some.inj starts)
      simp [failure?, failureOf?_eq_some_iff, startLoad, startUnload, Dock.startLoad,
        Dock.startUnload, bind_eq_error_iff, clientOf_eq_error_iff, clientOf_eq_ok_iff,
        start_eq_error_iff, pure, Except.pure]
  | _ => cases starts

/-- The switchboard refuses transactions exactly for these reasons. -/
theorem starts_refused_iff {now : Instant} (starts : operation.starts? = some (pid, now)) :
    s.failure? operation = some error ↔ s.Refuses operation error := by
  rw [failure?_of_starts starts]
  have caller := HostOperation.caller?_of_starts starts
  constructor
  · rintro (⟨unknown, rfl⟩ | ⟨client, t, known, pending, busy, rfl⟩)
    · exact .unknownPid caller unknown
    · exact .transactionPending starts known pending busy
  · intro refuses
    cases refuses with
    | unknownPid called unknown =>
        obtain rfl := Option.some.inj (called.symm.trans caller)
        exact .inl ⟨unknown, rfl⟩
    | transactionPending starts' known pending busy =>
        obtain ⟨rfl, rfl⟩ := Prod.mk.inj (Option.some.inj (starts'.symm.trans starts))
        exact .inr ⟨_, _, known, pending, busy, rfl⟩
    | endpointOutOfRange ranged =>
        rw [HostOperation.starts?_of_ranged ranged] at starts
        cases starts
    | idsExhausted | linkFailed | notPersisted | endpointNotRegistered => cases starts

/-- An operation fails exactly for one of the reasons. -/
theorem failure?_eq_some_iff :
    s.failure? operation = some error ↔ s.Refuses operation error := by
  cases operation with
  | register pid callback uuid around => exact register_refused_iff
  | openEndpoint pid endpoint | hubEndpoint pid endpoint => exact ranged_refused_iff rfl
  | closeEndpoint pid endpoint => exact closeEndpoint_refused_iff
  | startLoad pid _ now | startUnload pid _ now => exact starts_refused_iff rfl
  | _ =>
      refine ⟨nofun, fun refuses => ?_⟩
      cases refuses with
      | unknownPid caller => cases caller
      | endpointOutOfRange ranged => cases ranged
      | transactionPending starts => cases starts

/-! ### What a refusal leaves behind -/

open MonitorCall (Leads)

/-- An operation that is refused asks for nothing, or for one link that the monitor refuses or that
is taken back. -/
theorem asked_of_failure (failed : s.failure? operation = some error) :
    s.asked operation = [] ∨
      ∃ pid callback, s.asked operation = [.link pid callback false] ∨
        s.asked operation = [.link pid callback true, .unlink pid callback] := by
  cases operation with
  | register pid callback uuid around =>
      rw [failure?, failureOf?_eq_some_iff] at failed
      have admitted := s.admission pid callback uuid around
      rw [failed] at admitted
      rw [asked]
      generalize (s.register pid callback uuid around).2.2.calls = calls at admitted ⊢
      generalize (s.register pid callback uuid around).2.1 = later at admitted
      cases admitted with
      | refused calls => exact calls.imp_right fun calls => ⟨pid, callback, calls⟩
  | death pid => cases failed
  | _ => exact .inl rfl

/-- What it asks for leads back to where it started. -/
theorem leads_of_failure (failed : s.failure? operation = some error) :
    Leads s.links (s.asked operation) s.links := by
  rcases asked_of_failure failed with asked | ⟨pid, callback, asked | asked⟩
  · exact asked ▸ .done _
  · exact asked ▸ .refused (.done _)
  · exact asked ▸ .accepted (.ended (.done _))

end Switchboard

/-- A refused operation leaves the office as it was. -/
theorem Office.after_of_failure {o : Office} {operation : HostOperation} {error : HostError}
    (failed : o.board.failure? operation = some error) : o.after (.operation operation) = o := by
  have kept {result : Except HostError Switchboard} (failed : failureOf? result = some error) :
      { o with board := result.toOption.getD o.board } = o := by
    rw [failureOf?_eq_some_iff.mp failed]
    rfl
  cases operation with
  | register pid callback uuid around =>
      rw [Switchboard.failure?, failureOf?_eq_some_iff] at failed
      have registered := o.board.registers pid callback uuid around
      rw [Office.after]
      generalize o.board.register pid callback uuid around = outcome at failed registered
      cases registered with
      | refused => rfl
      | returned | entered => cases failed
  | openEndpoint | closeEndpoint | startLoad | startUnload => exact kept failed
  | hubEndpoint => rfl
  | _ => cases failed

/-- An operation fails in an office exactly for one of the reasons, and then changes nothing:
clients, roster, file and what is under way are as before. It does not matter how far the operation
got: all the steps that it took are taken back. What the monitor was asked leads from the links of
the clients back to them, and the links that were made are those that were ended.

How far an operation gets before it fails does not show in what it comes to as a whole. So its steps
are also taken one by one at a `Desk`, which keeps what each of them has done. -/
theorem refusals_change_nothing (settings : HostSettings) (file : Option ByteArray)
    (events : List OfficeEvent) (operation : HostOperation) (error : HostError) :
    let o := (Office.ofFile settings file).run events
    let asked := o.board.asked operation
    (o.board.failure? operation = some error ↔ o.board.Refuses operation error) ∧
      (o.board.failure? operation = some error →
        o.after (.operation operation) = o ∧
          (∀ calls, Desk.perform operation ⟨o, calls⟩ = (.error error, ⟨o, calls ++ asked⟩)) ∧
          MonitorCall.Leads o.board.links asked o.board.links ∧
          MonitorCall.linked asked = MonitorCall.unlinked asked) := by
  intro o asked
  refine ⟨Switchboard.failure?_eq_some_iff, fun failed => ?_⟩
  have unchanged := Office.after_of_failure failed
  have leads := Switchboard.leads_of_failure failed
  refine ⟨unchanged, fun calls => ?_, leads, ?_⟩
  · rw [Desk.perform_eq, failed, unchanged]
    rfl
  · have balance := leads.balance
    rw [add_comm] at balance
    exact add_right_cancel balance

/-- A client that has an endpoint open and a transaction under way. -/
def OfficeEvent.working : List OfficeEvent :=
  [.operation (.register 7 ⟨0⟩ (.ofNat 1) ⟨true, true⟩), .operation (.openEndpoint 7 5),
    .operation (.startUnload 7 9 0)]

/-- Another one that registers as its process and cannot be written down. -/
theorem refusals_change_nothing_working :
    let o := (Office.ofFile {} none).run OfficeEvent.working
    let operation := HostOperation.register 7 ⟨1⟩ (.ofNat 2) ⟨true, false⟩
    o.board.failure? operation = some (.notPersisted "hublink_clients.json") ∧
      o.board.asked operation = [.link 7 ⟨1⟩ true, .unlink 7 ⟨1⟩] ∧
      o.after (.operation operation) = o ∧
      Desk.perform operation ⟨o, []⟩ =
        (.error (.notPersisted "hublink_clients.json"), ⟨o, [.link 7 ⟨1⟩ true, .unlink 7 ⟨1⟩]⟩) ∧
      (o.board.byPid? 7).map Client.endpointIds = some [5] ∧
      o.board.dock.pending.map Transaction.number = some 9 := by
  intro o operation
  have failed : o.board.failure? operation = some (.notPersisted "hublink_clients.json") := by
    decide +kernel
  have asked : o.board.asked operation = [.link 7 ⟨1⟩ true, .unlink 7 ⟨1⟩] := by decide +kernel
  obtain ⟨unchanged, steps, -⟩ :=
    (refusals_change_nothing {} none OfficeEvent.working operation _).2 failed
  refine ⟨failed, asked, unchanged, ?_, by decide +kernel, by decide +kernel⟩
  have performed := steps []
  rwa [asked] at performed

end HubRelay
