import HubRelay.Proofs.Directory
import HubRelay.Proofs.Session.Segments

/-!
Slots belong to the endpoints that stand at their handles.

A slot is made for a request that is sent or received, and goes when its endpoint is unregistered.
A sender that has to wait for its slot looks its endpoint up before it waits and not again. If the
endpoint is gone by then, the request takes a slot that belongs to nobody, or to the endpoint that
has come since. `History.Faithful` rules this out, and it alone: while it holds, every slot belongs
to the registration at its handle.
-/

namespace HubRelay

/-! ### Which slots there are -/

/-- Whether a request is pending or open on the slot. -/
def Slot.inUse (s : Slot) : Bool := s.outgoing.pending || s.incoming.unanswered

namespace Ledger

variable {l : Ledger}

/-- Whether the pair has a slot. The ledger keeps slots that are idle, so that the next request goes
on with their numbers; whether it knows a slot is thus more than whether the slot is in use. -/
def knows (l : Ledger) (handle : Handle) (command : Command) : Bool :=
  (l.slot? handle command).isSome

/-- A slot that the ledger does not know looks as if it had never been used. -/
theorem slotAt_of_unknown {handle : Handle} {command : Command}
    (unknown : l.knows handle command = false) :
    l.slotAt handle command = { handle, command } := by
  rw [knows, Option.isSome_eq_false_iff, Option.isNone_iff_eq_none] at unknown
  rw [slotAt, unknown, Option.getD_none]

/-- A slot with a pending request is known. -/
theorem knows_of_awaits {key : RequestKey} (pending : l.awaits key = true) :
    ∃ slot, l.slot? key.handle key.command = some slot ∧ slot.inUse = true := by
  rw [awaits_of_slotAt, slotAt] at pending
  cases found : l.slot? key.handle key.command with
  | none =>
      rw [found] at pending
      cases pending.1
  | some slot =>
      rw [found] at pending
      have pending : slot.outgoing.pending = true := pending.1
      refine ⟨slot, rfl, ?_⟩
      rw [Slot.inUse, pending, Bool.true_or]

/-- Changing a slot neither creates nor forgets one. -/
theorem knows_modify (wf : l.WellFormed) (handle h : Handle) (command c : Command)
    (f : Slot → Slot) : (l.modify handle command f).knows h c = l.knows h c := by
  unfold knows
  rw [slot?_modify wf]
  split
  · rename_i here
    obtain ⟨rfl, rfl⟩ := here
    exact Option.isSome_map
  · rfl

/-- Putting a slot into use creates it, and no other. -/
theorem knows_allocate (wf : l.WellFormed) (handle h : Handle) (command c : Command) :
    (l.allocate handle command).knows h c = true ↔
      (handle = h ∧ command = c) ∨ l.knows h c = true := by
  unfold knows
  rw [slot?_allocate wf]
  split
  · rename_i here
    simp [here]
  · rename_i elsewhere
    simp [elsewhere]

theorem knows_withRequest (wf : l.WellFormed) (handle h : Handle) (command c : Command)
    (timeout : Option Span) (now : Instant) :
    (l.withRequest handle command timeout now).knows h c = true ↔
      (handle = h ∧ command = c) ∨ l.knows h c = true := by
  rw [withRequest, knows_modify (wellFormed_allocate wf handle command), knows_allocate wf]

theorem knows_openIncoming (wf : l.WellFormed) (handle h : Handle) (command c : Command)
    (transaction : TransactionId) (now : Instant) :
    (l.openIncoming handle command transaction now).knows h c = true ↔
      (handle = h ∧ command = c) ∨ l.knows h c = true := by
  rw [openIncoming, knows_modify (wellFormed_allocate wf handle command), knows_allocate wf]

theorem knows_withoutRequest (wf : l.WellFormed) (handle h : Handle) (command c : Command) :
    (l.withoutRequest handle command).knows h c = l.knows h c :=
  knows_modify wf handle h command c Slot.finish

theorem knows_closed (wf : l.WellFormed) (key : RequestKey) (h : Handle) (c : Command) :
    (l.closed key).knows h c = l.knows h c := by
  unfold closed
  split
  · exact knows_modify wf key.handle h key.command c Slot.answer
  · rfl

/-- Removing an endpoint makes the ledger forget its slots and those only. -/
theorem knows_removeEndpoint (wf : l.WellFormed) (handle h : Handle) (c : Command) :
    (l.removeEndpoint handle).knows h c = true ↔ handle ≠ h ∧ l.knows h c = true := by
  unfold knows
  rw [slot?_removeEndpoint wf]
  split
  · rename_i here
    simp [here]
  · rename_i elsewhere
    simp [elsewhere]

/-- A scan forgets no slot. -/
theorem knows_takeLapsed (l : Ledger) (now : Instant) (h : Handle) (c : Command) :
    (l.takeLapsed now).2.knows h c = l.knows h c := by
  unfold knows
  rw [slot?_takeLapsed]
  exact Option.isSome_map

end Ledger

/-! ### What a move does to slots and endpoints -/

/-- An endpoint was registered at the handle. -/
def Entry.Enrolls (e : Entry) (handle : Handle) : Prop :=
  ((∃ descriptor endpoint, e.turn = .begins (.register descriptor endpoint)) ∨
      ∃ wish descriptor endpoint, e.turn = .begins (.registerAt wish descriptor endpoint)) ∧
    e.progress = .finished (.registered (.ok handle))

namespace Entry

variable {e : Entry} {handle : Handle} {command : Command}

/-- A slot is there from before, or was made for a request that the move sent or received. There is
one case for each kind of deed. -/
theorem knows_cases (wf : e.before.ledger.WellFormed)
    (deed : Deed e.before e.now e.turn (e.after, e.progress))
    (known : e.after.ledger.knows handle command = true) :
    e.before.ledger.knows handle command = true ∨
      (∃ key ∈ e.begun, key.handle = handle ∧ key.command = command) ∨
      ∃ frame r m, e.turn = .begins (.receive frame) ∧ Arrives e.before frame r m ∧
        m.header.handle = handle ∧ m.header.command = command := by
  obtain ⟨operation, found, turn, now, before, after, progress⟩ := e
  simp only at wf deed known ⊢
  cases deed with
  | idle | enrolled | enrolledAt | slotWait | waits | mailed | overdue | woke | told =>
      exact .inl known
  | @sent _ role order places idle | @sentAwaiting _ role order _ places idle =>
      refine ((Ledger.knows_withRequest wf _ _ _ _ _ _).mp known).elim (fun here => ?_) .inl
      refine .inr (.inl ⟨⟨order.handle, order.command,
        (before.ledger.slotAt order.handle order.command).nextTransaction⟩, ?_, here⟩)
      show _ ∈ before.ledger.begun (before.ledger.withRequest _ _ _ now)
      rw [Ledger.begun_withRequest wf idle]
      exact List.mem_singleton_self _
  | gaveUp | tookBack | tookBackAwaiting | delivered | absorbed =>
      rw [Ledger.knows_withoutRequest wf] at known
      exact .inl known
  | scanned =>
      rw [Ledger.knows_takeLapsed] at known
      exact .inl known
  | reset =>
      rw [Ledger.knows, Ledger.slot?_empty] at known
      cases known
  | dismissed => exact .inl ((Ledger.knows_removeEndpoint wf _ _ _).mp known).2
  | received arrives =>
      refine ((Ledger.knows_openIncoming wf _ _ _ _ _ _).mp known).elim (fun here => ?_) .inl
      exact .inr (.inr ⟨_, _, _, rfl, arrives, here⟩)
  | answered arrives | echoed arrives =>
      rw [Ledger.knows_closed (Ledger.wellFormed_openIncoming wf _ _ _ _)] at known
      refine ((Ledger.knows_openIncoming wf _ _ _ _ _ _).mp known).elim (fun here => ?_) .inl
      exact .inr (.inr ⟨_, _, _, rfl, arrives, here⟩)
  | closed =>
      rw [Ledger.knows_closed wf] at known
      exact .inl known

/-- An endpoint stays as long as a slot of it does. -/
theorem find?_of_knows (wf : e.before.ledger.WellFormed)
    (deed : Deed e.before e.now e.turn (e.after, e.progress))
    (known : e.after.ledger.knows handle command = true) {r : Registration}
    (stood : e.before.directory.find? handle = some r) :
    e.after.directory.find? handle = some r := by
  have taken {taken : Handle} {d : Directory} {descriptor : Descriptor} {endpoint : Endpoint}
      (free : e.before.directory.find? taken = none ∧
        d = e.before.directory.place taken descriptor endpoint) : d.find? handle = some r := by
    rw [free.2, Directory.find?_place, if_neg, stood]
    rintro rfl
    rw [stood] at free
    cases free.1
  obtain ⟨operation, found, turn, now, before, after, progress⟩ := e
  simp only at wf deed known stood taken ⊢
  cases deed with
  | enrolled registered => exact taken (Directory.free_of_register registered)
  | enrolledAt registered => exact taken (Directory.free_of_registerAt registered)
  | dismissed gone =>
      have other := ((Ledger.knows_removeEndpoint wf _ _ _).mp known).1
      exact (Directory.find?_of_unregister gone other).trans stood
  | _ => exact stood

/-- No endpoint comes or goes with a request. -/
theorem directory_of_begun (wf : e.before.ledger.WellFormed)
    (deed : Deed e.before e.now e.turn (e.after, e.progress)) {key : RequestKey}
    (mem : key ∈ e.begun) : e.after.directory = e.before.directory := by
  obtain ⟨operation, found, turn, now, before, after, progress⟩ := e
  unfold begun at mem
  simp only at wf deed mem ⊢
  have alike := (Ledger.SendsAlike.refl before.ledger).begun_eq wf
  cases deed with
  | enrolled | enrolledAt =>
      rw [alike] at mem
      cases mem
  | dismissed =>
      rw [Ledger.begun_removeEndpoint wf] at mem
      cases mem
  | _ => rfl

/-- Whoever registers finds a handle that nobody holds, and no slot is touched. -/
theorem free_of_enrolled (turned : e.before.turn e.turn e.now = some (e.after, e.progress))
    (enrolls : e.Enrolls handle) :
    e.before.directory.find? handle = none ∧ e.after.ledger = e.before.ledger := by
  obtain ⟨operation, found, turn, now, before, after, progress⟩ := e
  obtain ⟨turn', progress'⟩ := enrolls
  simp only at turned turn' progress' ⊢
  subst progress'
  rcases turn' with ⟨descriptor, endpoint, rfl⟩ | ⟨wish, descriptor, endpoint, rfl⟩
  · simp only [Exchange.turn, Exchange.start, Exchange.register, Exchange.finish] at turned
    cases registered : before.directory.register descriptor endpoint with
    | error error => simp [registered] at turned
    | ok place =>
        obtain ⟨taken, d⟩ := place
        simp only [registered, Option.some.injEq, Prod.mk.injEq, Progress.finished.injEq,
          Outcome.registered.injEq, Except.ok.injEq] at turned
        obtain ⟨rfl, rfl⟩ := turned
        exact ⟨(Directory.free_of_register registered).1, rfl⟩
  · simp only [Exchange.turn, Exchange.start, Exchange.registerAt, Exchange.finish] at turned
    cases registered : before.directory.registerAt wish descriptor endpoint with
    | error error => simp [registered] at turned
    | ok place =>
        obtain ⟨taken, d⟩ := place
        simp only [registered, Option.some.injEq, Prod.mk.injEq, Progress.finished.injEq,
          Outcome.registered.injEq, Except.ok.injEq] at turned
        obtain ⟨rfl, rfl⟩ := turned
        exact ⟨(Directory.free_of_registerAt registered).1, rfl⟩

end Entry

/-! ### Whose slots they are -/

namespace History

/-- The registration for which the slot was made. It is read off the history: the latest move after
which the slot is there and before which it was not, and the registration that the operation of this
move had found when it started. -/
def creator (handle : Handle) (command : Command) : History → Option Registration
  | [] => none
  | e :: past =>
      if e.after.ledger.knows handle command then
        if e.before.ledger.knows handle command then creator handle command past else e.found
      else none

/-- At every move so far, given what had happened by then. -/
def Everywhere (P : Entry → History → Prop) (h : History) : Prop :=
  ∀ e past, e :: past <:+ h → P e past

/-- Whoever made a slot to send a request on did so for the registration that stood at its handle
then. A sender that looks its endpoint up and begins in the same move does so by itself. -/
def Faithful (h : History) : Prop :=
  h.Everywhere fun e _ => ∀ key ∈ e.begun,
    e.before.ledger.knows key.handle key.command = true ∨
      e.found = e.before.directory.find? key.handle

variable {P Q : Entry → History → Prop} {e : Entry} {past h : History} {handle : Handle}
  {command : Command}

theorem everywhere_cons : Everywhere P (e :: past) ↔ P e past ∧ Everywhere P past := by
  constructor
  · intro all
    exact ⟨all e past (List.suffix_refl _), fun e' past' suffix =>
      all e' past' (suffix.trans (List.suffix_cons _ _))⟩
  · rintro ⟨here, before⟩ e' past' suffix
    rcases List.suffix_cons_iff.mp suffix with same | suffix
    · obtain ⟨rfl, rfl⟩ := List.cons.inj same
      exact here
    · exact before e' past' suffix

theorem everywhere_nil : Everywhere P [] := by
  intro e past suffix
  cases List.suffix_nil.mp suffix

/-- A history in which nothing was begun is faithful. -/
theorem faithful_of_begun (none : h.begun = []) : h.Faithful := by
  induction h with
  | nil => exact everywhere_nil
  | cons e past ih =>
      obtain ⟨here, before⟩ := List.append_eq_nil_iff.mp none
      refine everywhere_cons.mpr ⟨?_, ih before⟩
      intro key begun
      rw [List.map_eq_nil_iff.mp here] at begun
      cases begun

/-- A faithful history was so at every move. -/
theorem Everywhere.of_faithful (all : h.Everywhere fun e past => Faithful (e :: past) → P e past)
    (faithful : h.Faithful) : h.Everywhere P := by
  intro e past suffix
  refine all e past suffix ?_
  intro e' past' suffix'
  exact faithful e' past' (suffix'.trans suffix)

/-- A slot that is kept has the creator that it had. -/
theorem creator_of_kept (known : e.after.ledger.knows handle command = true)
    (before : e.before.ledger.knows handle command = true) :
    creator handle command (e :: past) = creator handle command past := by
  rw [creator, if_pos known, if_pos before]

/-- A slot that a move creates belongs to whom the move's operation found. -/
theorem creator_of_made (known : e.after.ledger.knows handle command = true)
    (before : e.before.ledger.knows handle command = false) :
    creator handle command (e :: past) = e.found := by
  rw [creator, if_pos known, if_neg (by simp [before])]

end History

/-- The slot was made for the registration that stands at the handle, and its command is one of that
registration's. -/
def Exchange.Owns (x : Exchange) (h : History) (handle : Handle) (command : Command) : Prop :=
  ∃ r, x.directory.find? handle = some r ∧ command < r.descriptor.commands ∧
    h.creator handle command = some r

/-- Every slot with a pending or an open request belongs to the registration at its handle. -/
def Exchange.Belongs (x : Exchange) (h : History) : Prop :=
  ∀ handle command slot, x.ledger.slot? handle command = some slot → slot.inUse = true →
    x.Owns h handle command

/-- An order is about the handle that its operation names. -/
theorem Operation.handle?_of_order? {x : Exchange} {operation : Operation} {order : Order}
    (ordered : operation.order? x = some order) : operation.handle? = some order.handle := by
  cases operation with
  | send | sendPatiently =>
      obtain ⟨timeout, -, rfl⟩ := Option.map_eq_some_iff.mp ordered
      rfl
  | sendWithTimeout | sendAndAwait =>
      obtain rfl := Option.some.inj ordered
      rfl
  | _ => cases ordered

namespace Session

variable {s s' : Session} {e : Entry}

/-- A sender that waits for its slot has found its endpoint when it asked. What it has found is kept
with the operation, but it is not looked up again when the slot becomes free. -/
def Informed (s : Session) : Prop :=
  ∀ task ∈ s.tasks, ∀ wait, task.activity = .blocked (.slot wait) →
    ∃ r, task.found = some r ∧ wait.order.command < r.descriptor.commands

/-- Whoever places an order has looked its endpoint up, which knows the command. -/
theorem Moved.found_of_places (moved : s.Moved s' e) (informed : s.Informed) {role : Role}
    {order : Order} (places : e.turn.Places e.before role order) :
    ∃ r, e.found = some r ∧ order.command < r.descriptor.commands := by
  generalize turn : e.turn = t at places
  cases places with
  | @started operation order r ordered found within =>
      refine ⟨r, ?_, within⟩
      rw [moved.found_of_begins turn, Operation.handle?_of_order? ordered]
      exact found
  | @resumed wait =>
      cases moved.mover with
      | starts turn' =>
          rw [turn] at turn'
          cases turn'
      | resumes mem turn' _ found =>
          rw [turn] at turn'
          rw [found]
          exact informed _ mem wait (Turn.goesOn.inj turn').1.symm

/-- Every move leaves operations with what they found. -/
theorem Moved.informed (moved : s.Moved s' e) (orderly : s.Orderly) (informed : s.Informed) :
    s'.Informed := by
  intro task mem wait activity
  rcases moved.task_cases orderly mem with mine | ⟨other, -⟩
  · obtain ⟨-, found, progress⟩ := moved.task_id mine
    have deed := moved.deed
    rw [progress, activity] at deed
    rw [found]
    exact moved.found_of_places informed deed.places_of_slotWait
  · exact informed task other wait activity

/-- In every run a sender that waits has found its endpoint. -/
theorem Reachable.informed {settings : Settings} (reached : Reachable settings s) :
    s.Informed := by
  refine reached.holds ?_ ?_
  · intro task mem
    cases mem
  · intro s s' e before moved informed
    exact moved.informed before.orderly informed

/-- A frame's operation has found the endpoint that the frame gets through to. -/
theorem Moved.found_of_received (moved : s.Moved s' e) {frame : Bytes} {r : Registration}
    {m : Message} (turn : e.turn = .begins (.receive frame))
    (arrives : Arrives e.before frame r m) : e.found = some r := by
  rw [moved.found_of_begins turn, Operation.handle?, arrives.decoded]
  exact arrives.found

/-- Every slot belongs to the registration at its handle, whether a request is on it or not. -/
def Owned (s : Session) : Prop :=
  ∀ handle command, s.exchange.ledger.knows handle command = true →
    s.exchange.Owns s.history handle command

/-- A move keeps slots with their owners if what it begins is on slots that were there, or for
whoever holds the handle now. The frames that are received need no such condition, as they are given
to the endpoint that is looked up in the same move. -/
theorem Moved.owned (moved : s.Moved s' e) (wf : s.exchange.ledger.WellFormed)
    (informed : s.Informed) (owned : s.Owned)
    (faithful : ∀ key ∈ e.begun, e.before.ledger.knows key.handle key.command = true ∨
      e.found = e.before.directory.find? key.handle) : s'.Owned := by
  intro handle command known
  have sound := moved.sound wf
  rw [moved.after] at known
  have stands {r : Registration} (stood : e.before.directory.find? handle = some r) :
      s'.exchange.directory.find? handle = some r := by
    rw [moved.after]
    exact Entry.find?_of_knows sound.before moved.deed known stood
  unfold Exchange.Owns
  rw [moved.history]
  by_cases before : e.before.ledger.knows handle command = true
  · rw [History.creator_of_kept known before]
    rw [moved.before] at before
    obtain ⟨r, stood, within, created⟩ := owned handle command before
    refine ⟨r, stands ?_, within, created⟩
    rw [moved.before]
    exact stood
  · rw [Bool.not_eq_true] at before
    rw [History.creator_of_made known before]
    rcases Entry.knows_cases sound.before moved.deed known with kept | sent | received
    · rw [before] at kept
      cases kept
    · obtain ⟨key, begun, rfl, rfl⟩ := sent
      rcases sound.begun_cases with none | ⟨role, order, places, -, -, -, one⟩
      · rw [none] at begun
        cases begun
      · obtain ⟨r, found, within⟩ := moved.found_of_places informed places
        have stood : e.found = e.before.directory.find? key.handle :=
          (faithful key begun).resolve_left (by simp [before])
        rw [one] at begun
        obtain rfl := List.mem_singleton.mp begun
        exact ⟨r, stands (stood.symm.trans found), within, found⟩
    · obtain ⟨frame, r, m, turn, arrives, rfl, rfl⟩ := received
      exact ⟨r, stands arrives.found, arrives.command, moved.found_of_received turn arrives⟩

/-- In every faithful run slots stay with their owners. -/
theorem Reachable.owned {settings : Settings} (reached : Reachable settings s)
    (faithful : s.history.Faithful) : s.Owned := by
  induction reached with
  | fresh =>
      intro handle command known
      rw [ofSettings, (Exchange.ledger_ofSettings settings).1, Ledger.knows,
        Ledger.slot?_empty] at known
      cases known
  | step before stepped ih =>
      obtain ⟨e, moved⟩ := moved_of_step stepped
      unfold History.Faithful at faithful
      rw [moved.history, History.everywhere_cons] at faithful
      exact moved.owned before.accounted.wellFormed before.informed (ih faithful.2) faithful.1

/-- What every move of a run brings about holds everywhere in its history. -/
theorem Reachable.everywhere {settings : Settings} {P : Entry → History → Prop}
    (reached : Reachable settings s)
    (step : ∀ {s s' : Session} {e : Entry}, Reachable settings s → Reachable settings s' →
      s.Moved s' e → P e s.history) : s.history.Everywhere P := by
  induction reached with
  | fresh => exact History.everywhere_nil
  | step before stepped ih =>
      obtain ⟨e, moved⟩ := moved_of_step stepped
      rw [moved.history, History.everywhere_cons]
      exact ⟨step before (before.step stepped) moved, ih⟩

/-- Where slots belong to registered endpoints after a move, its requests were begun by such
endpoints. -/
theorem Moved.faithful_of_belongs (moved : s.Moved s' e) (wf : s.exchange.ledger.WellFormed)
    (belongs : e.after.Belongs (e :: s.history)) {key : RequestKey} (begun : key ∈ e.begun) :
    e.before.ledger.knows key.handle key.command = true ∨
      e.found = e.before.directory.find? key.handle := by
  have sound := moved.sound wf
  obtain ⟨slot, found, inUse⟩ := Ledger.knows_of_awaits (sound.mem_begun.mp begun).1
  obtain ⟨r, stands, -, created⟩ := belongs key.handle key.command slot found inUse
  have known : e.after.ledger.knows key.handle key.command = true := by
    rw [Ledger.knows, found, Option.isSome_some]
  by_cases before : e.before.ledger.knows key.handle key.command = true
  · exact .inl before
  · rw [Bool.not_eq_true] at before
    rw [History.creator_of_made known before] at created
    rw [Entry.directory_of_begun sound.before moved.deed begun] at stands
    exact .inr (created.trans stands.symm)

/-- What is owned belongs to a registered endpoint. -/
theorem Owned.belongs (owned : s.Owned) : s.exchange.Belongs s.history := by
  intro handle command slot found inUse
  exact owned handle command (by rw [Ledger.knows, found, Option.isSome_some])

/-- A new endpoint finds its slots as good as new. -/
theorem Moved.fresh (moved : s.Moved s' e) (owned : s.Owned) {handle : Handle}
    (enrolls : e.Enrolls handle) (command : Command) :
    e.after.ledger.slotAt handle command = { handle, command } := by
  obtain ⟨free, same⟩ := Entry.free_of_enrolled moved.turned enrolls
  rw [same]
  refine Ledger.slotAt_of_unknown ?_
  rw [← Bool.not_eq_true]
  intro known
  rw [moved.before] at known free
  obtain ⟨r, stands, -⟩ := owned handle command known
  rw [free] at stands
  cases stands

/-- Only a sender that has waited may have found another registration than the one that stands. All
others look their endpoint up in the move in which they begin. -/
theorem Moved.found_or_waited (moved : s.Moved s' e) (wf : s.exchange.ledger.WellFormed)
    {key : RequestKey} (begun : key ∈ e.begun) :
    e.found = e.before.directory.find? key.handle ∨
      ∃ wait, e.turn = .goesOn (.blocked (.slot wait)) .woken := by
  rcases (moved.sound wf).begun_cases with none | ⟨role, order, places, -, -, -, one⟩
  · rw [none] at begun
    cases begun
  · rw [one] at begun
    obtain rfl := List.mem_singleton.mp begun
    generalize turn : e.turn = t at places
    cases places with
    | resumed => exact .inr ⟨_, rfl⟩
    | started ordered =>
        left
        rw [moved.found_of_begins turn, Operation.handle?_of_order? ordered, Option.bind_some]

/-- A request is begun only for an endpoint that is there. -/
theorem Moved.registered_of_begun (moved : s.Moved s' e) (wf : s.exchange.ledger.WellFormed)
    (informed : s.Informed) (owned : s.Owned) {key : RequestKey} (begun : key ∈ e.begun)
    (faithful : e.before.ledger.knows key.handle key.command = true ∨
      e.found = e.before.directory.find? key.handle) :
    ∃ r, e.before.directory.find? key.handle = some r ∧ key.command < r.descriptor.commands := by
  rcases faithful with known | stood
  · rw [moved.before] at known ⊢
    obtain ⟨r, stands, within, -⟩ := owned _ _ known
    exact ⟨r, stands, within⟩
  · rcases (moved.sound wf).begun_cases with none | ⟨role, order, places, -, -, -, one⟩
    · rw [none] at begun
      cases begun
    · obtain ⟨r, found, within⟩ := moved.found_of_places informed places
      rw [one] at begun
      obtain rfl := List.mem_singleton.mp begun
      exact ⟨r, stood.symm.trans found, within⟩

end Session

/-! ### Senders without an endpoint -/

/-- An operation that sends a request of the endpoint at a handle, and how it reports an error. -/
inductive Operation.Sends (handle : Handle) : Operation → (ExchangeError → Outcome) → Prop where
  | send {command : Command} {payload : Bytes} :
      Sends handle (.send handle command payload) fun error => .sent (.error error)
  | sendWithTimeout {command : Command} {payload : Bytes} {timeout : Option Span} :
      Sends handle (.sendWithTimeout handle command payload timeout)
        fun error => .sent (.error error)
  | sendPatiently {command : Command} {payload : Bytes} {patience : Span} :
      Sends handle (.sendPatiently handle command payload patience)
        fun error => .sent (.error error)
  | sendAndAwait {command : Command} {payload : Bytes} {timeout : Span} :
      Sends handle (.sendAndAwait handle command payload timeout)
        fun error => .replied (.error error)

/-- A sender whose handle nobody holds is turned away at once. -/
theorem Exchange.start_of_unregistered {x : Exchange} {handle : Handle} {operation : Operation}
    {fail : ExchangeError → Outcome} (sends : operation.Sends handle fail)
    (gone : x.directory.find? handle = none) (now : Instant) :
    x.start operation now = x.finish (fail (.unknownHandle handle)) := by
  cases sends with
  | send => simp only [start, Exchange.send, requestTimeout, gone]
  | sendPatiently => simp only [start, Exchange.sendPatiently, requestTimeout, gone]
  | sendWithTimeout => simp only [start, Exchange.sendWithTimeout, place, gone, Order.fail]
  | sendAndAwait => simp only [start, Exchange.sendAndAwait, place, gone, Order.fail]

/-! ### In every run -/

/-- Whose the slots were at every moment of a run. The first clause is an equivalence, so it says
both that faithful histories keep every slot with its owner and that nothing weaker would do. -/
structure Session.Belonging (s : Session) : Prop where
  /-- The slots in use have belonged to the registrations at their handles all the time, exactly if
  nobody has ever made a slot for a registration that was gone. -/
  belongs : s.history.Everywhere (fun e past => e.after.Belongs (e :: past)) ↔ s.history.Faithful
  /-- Only a sender that had waited for its slot can have done that. -/
  waited : s.history.Everywhere fun e _ => ∀ key ∈ e.begun,
    e.found = e.before.directory.find? key.handle ∨
      ∃ wait, e.turn = .goesOn (.blocked (.slot wait)) .woken
  /-- If nobody has, then every new endpoint found its slots as good as new. -/
  fresh : s.history.Faithful → s.history.Everywhere fun e _ =>
    ∀ handle, e.Enrolls handle → ∀ command,
      e.after.ledger.slotAt handle command = { handle, command }
  /-- And then every request was begun for an endpoint that was there. -/
  registered : s.history.Faithful → s.history.Everywhere fun e _ => ∀ key ∈ e.begun,
    ∃ r, e.before.directory.find? key.handle = some r ∧ key.command < r.descriptor.commands
  /-- In any case a sender whose endpoint is gone when it asks is refused. -/
  refused : ∀ handle operation fail, operation.Sends handle fail →
    s.exchange.directory.find? handle = none → ∀ now,
      s.exchange.start operation now = s.exchange.finish (fail (.unknownHandle handle))

/-- The slots in use belong to the registrations at their handles, as long as no sender that waited
makes one for a registration that has gone in the meantime.

The invariant is `History.Owned`, which is about all slots and not only those in use: a slot that is
left idle by its owner would otherwise be found by the next registration at the handle. -/
theorem slots_belong {settings : Settings} {s : Session}
    (reached : Session.Reachable settings s) : s.Belonging where
  belongs := by
    constructor
    · intro belongs e past suffix key begun
      refine reached.everywhere (P := fun e past => e.after.Belongs (e :: past) → ∀ key ∈ e.begun,
        e.before.ledger.knows key.handle key.command = true ∨
          e.found = e.before.directory.find? key.handle) ?_ e past suffix
        (belongs e past suffix) key begun
      intro s s' e before _ moved belongs key begun
      exact moved.faithful_of_belongs before.accounted.wellFormed belongs begun
    · refine History.Everywhere.of_faithful (reached.everywhere ?_)
      intro s s' e _ reached' moved faithful
      rw [← moved.history] at faithful
      have belongs := (reached'.owned faithful).belongs
      rw [moved.after, moved.history] at belongs
      exact belongs
  waited := by
    refine reached.everywhere ?_
    intro s s' e before _ moved key begun
    exact moved.found_or_waited before.accounted.wellFormed begun
  fresh := by
    refine History.Everywhere.of_faithful (reached.everywhere ?_)
    intro s s' e before _ moved faithful handle enrolls
    exact moved.fresh (before.owned (History.everywhere_cons.mp faithful).2) enrolls
  registered := by
    refine History.Everywhere.of_faithful (reached.everywhere ?_)
    intro s s' e before _ moved faithful key begun
    obtain ⟨here, past⟩ := History.everywhere_cons.mp faithful
    exact moved.registered_of_begun before.accounted.wellFormed before.informed
      (before.owned past) begun (here key begun)
  refused := fun _ _ _ sends gone now => Exchange.start_of_unregistered sends gone now

/-- One client with one pending request. -/
theorem slots_belong_single :
    ∃ s, Session.Reachable {} s ∧ s.exchange.ledger.awaits ⟨16, 0, 0⟩ = true ∧
      s.history.Faithful ∧ s.Belonging := by
  obtain ⟨s, reached, found, ledger, -, -, begun⟩ := Session.reachable_single .client
  have wf := reached.accounted.wellFormed
  have new : s.exchange.ledger.slotAt 16 0 = { handle := 16, command := 0 } := by
    rw [ledger, Ledger.slotAt_empty]
  have idle : (s.exchange.ledger.slotAt 16 0).outgoing.pending = false := by rw [new]
  obtain ⟨s₁, s₂, task, reached₂, -, -, exchange₁, exchange₂, history₂, -⟩ :=
    reached.startsAndResumes (.sendWithTimeout 16 0 [] none) 0 (.transport true) 0
      (Exchange.start_sendWithTimeout found (by decide : (0 : Command) < 1) idle [] none 0) rfl
  refine ⟨s₂, reached₂, ?_, ?_, slots_belong reached₂⟩
  · rw [exchange₂]
    show (s.exchange.ledger.withRequest 16 0 none 0).awaits ⟨16, 0, 0⟩ = true
    rw [Ledger.awaits_withRequest wf]
    simp [new]
  · unfold History.Faithful
    rw [history₂, History.everywhere_cons, History.everywhere_cons]
    refine ⟨?_, ?_, History.faithful_of_begun begun⟩
    · intro key begun
      have nothing : s₁.exchange.ledger.begun (s.exchange.ledger.withRequest 16 0 none 0) = [] := by
        rw [exchange₁]
        exact (Ledger.SendsAlike.refl _).begun_eq (Ledger.wellFormed_withRequest wf 16 0 none 0)
      have begun : key ∈ s₁.exchange.ledger.begun (s.exchange.ledger.withRequest 16 0 none 0) :=
        begun
      rw [nothing] at begun
      cases begun
    · intro key begun
      have one : key ∈ s.exchange.ledger.begun (s.exchange.ledger.withRequest 16 0 none 0) := begun
      rw [Ledger.begun_withRequest wf idle] at one
      rw [List.mem_singleton.mp one]
      exact .inr rfl

/-- A sender waits for its slot while its endpoint is unregistered, and takes it all the same.
Unregistering ends the request that held the slot, so the sender is woken, and it begins its own
request without another look at the directory. -/
theorem waiting_senders_take_slots :
    ¬ ∀ s, Session.Reachable {} s → s.exchange.Belongs s.history := by
  intro belongs
  obtain ⟨s₁, reached₁, found₁, ledger₁, -⟩ := Session.reachable_single .client
  obtain ⟨s₂, reached₂, exchange₂, -⟩ := reached₁.sends found₁
    (by decide : (0 : Command) < 1) (by rw [ledger₁, Ledger.slotAt_empty]) none
  have found₂ : s₂.exchange.directory.find? 16 = some (.single .client) := by
    rw [exchange₂]
    exact found₁
  have pending : s₂.exchange.isPending 16 0 = true := by
    rw [exchange₂, Exchange.isPending, Ledger.isPending_eq,
      Ledger.slotAt_withRequest reached₁.accounted.wellFormed, if_pos ⟨rfl, rfl⟩]
    rfl
  let order : Order := ⟨16, 0, [], s₂.exchange.settings.requestTimeout, .patient 10⟩
  have waits : s₂.exchange.start (.sendPatiently 16 0 [] 10) 0 =
      (s₂.exchange, .waiting (.blocked (.slot ⟨.client, order, 10⟩))) :=
    Exchange.start_sendPatiently_busy found₂ (by decide : (0 : Command) < 1) pending rfl
      (by decide : 0 < 10) []
  obtain ⟨s₃, reached₃, exchange₃, -, tasks₃, -⟩ := reached₂.starts _ _ waits
  have found₃ : s₃.exchange.directory.find? 16 = some (.single .client) := by
    rw [exchange₃]
    exact found₂
  obtain ⟨s₄, reached₄, exchange₄, -, tasks₄, -⟩ :=
    reached₃.starts _ _ (Exchange.start_unregister found₃ 0)
  have new : s₄.exchange.ledger.slotAt 16 0 = { handle := 16, command := 0 } := by
    rw [exchange₄]
    show (s₃.exchange.ledger.removeEndpoint 16).slotAt 16 0 = _
    rw [Ledger.slotAt_removeEndpoint reached₃.accounted.wellFormed, if_pos rfl]
  have gone : s₄.exchange.directory.find? 16 = none := by
    rw [exchange₄]
    exact (Table.find?_erase s₃.exchange.directory.table 16 16).trans (if_pos rfl)
  have takes := Exchange.pollSlot_free (x := s₄.exchange) ⟨.client, order, 10⟩ (by rw [new])
    (by rintro span ⟨⟩) 0
  let sender : Task :=
    ⟨s₂.started, s₂.exchange.directory.find? 16, .blocked (.slot ⟨.client, order, 10⟩)⟩
  have under : sender ∈ s₄.tasks := by
    rw [tasks₄, tasks₃]
    exact List.mem_append_right _ (List.mem_append_left _ List.mem_cons_self)
  obtain ⟨s₅, reached₅, exchange₅, -⟩ := reached₄.resumes under .woken 0 (congrArg some takes)
  have ledger₅ : s₅.exchange.ledger = s₄.exchange.ledger.withRequest 16 0 order.timeout 0 :=
    congrArg Exchange.ledger exchange₅
  have pending₅ : s₅.exchange.ledger.awaits ⟨16, 0, 0⟩ = true := by
    rw [ledger₅, Ledger.awaits_withRequest reached₄.accounted.wellFormed]
    simp [new]
  obtain ⟨slot, found, inUse⟩ := Ledger.knows_of_awaits pending₅
  obtain ⟨r, stands, -⟩ := belongs s₅ reached₅ 16 0 slot found inUse
  rw [exchange₅] at stands
  cases gone.symm.trans stands

end HubRelay
