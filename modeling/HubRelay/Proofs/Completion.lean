import HubRelay.Proofs.Session.Answers
import HubRelay.Proofs.Session.Callers
import HubRelay.Proofs.Session.Segments

/-!
Every request ends once, for one reason, and its endpoint is told once.

`Session.Completes` collects what holds of the requests of a session at every moment of every run.
Whether an endpoint was told is read off the moves: an endpoint of the program has been called where
a move leaves its operation waiting for the handler, and nowhere else (`Session.Completes.served`).
So each request that a response or a scan has ended is either one whose handler was called, once, or
one that the operation still has before it.

The numbers of a slot have eight bits, and this shows in one place: a caller that gives up ends the
request that is pending under the number of its own. That is its own request, unless at least 256
requests have begun on the slot after it.
-/

namespace HubRelay

/-! ### Why requests end -/

/-- A turn that ends the request pending under a key. Each constructor belongs to one of the six
endings and says what the turn must have found: a response under this key, a deadline at or before
the limit of the scan, a caller without mail whose time is over, an offer that the transport
refused, or a slot that is forgotten by a reset or with its endpoint. -/
inductive Turn.Ends (x : Exchange) (now : Instant) : Turn → RequestKey → Prop where
  | matched {frame : Bytes} {m : Message} :
      Message.decode frame = .ok m → m.header.type.messageClass = .response →
      Ends x now (.begins (.receive frame)) m.header.key
  | lapsed {limit deadline : Instant} {key : RequestKey} :
      (x.ledger.slotAt key.handle key.command).outgoing.deadline = some deadline →
      deadline ≤ limit → Ends x now (.begins (.scan limit)) key
  | gaveUp {turn : Turn} {wait : ReplyWait} :
      turn.AwaitsReply now wait → turn.ending = .gaveUp →
      x.awaited.mailFor wait.call = .nothing → Ends x now turn wait.key
  | refused {o : Offering} {caller : Option (CallId × Span)} :
      o.purpose = .request caller →
      Ends x now (.goesOn (.offering o) (.transport false)) o.message.header.key
  | reset {key : RequestKey} : Ends x now (.begins .reset) key
  | unregistered {key : RequestKey} : Ends x now (.begins (.unregister key.handle)) key

/-- A request that is gone after a deed was ended by its turn. There is one case for each kind of
deed; the deeds that leave the sending side of all slots as it was are out at once (`kept`), and
those that free a slot free the one that they name (`only`). -/
theorem Deed.ends {x : Exchange} {now : Instant} {turn : Turn} {segment : Segment}
    (deed : Deed x now turn segment) (wf : x.ledger.WellFormed) {key : RequestKey}
    (pending : x.ledger.awaits key = true) (gone : segment.1.ledger.awaits key = false) :
    turn.Ends x now key := by
  have kept {later : Ledger} (alike : x.ledger.SendsAlike later)
      (gone : later.awaits key = false) : turn.Ends x now key := by
    rw [alike.awaits_eq, pending] at gone
    cases gone
  -- What an operation frees is the pending request of the slot that it names.
  have only {other : RequestKey} (awaits : x.ledger.awaits other = true)
      (gone : (x.ledger.withoutRequest other.handle other.command).awaits key = false) :
      key = other := by
    have mem := (Ledger.mem_ended wf).mpr ⟨pending, gone⟩
    rw [Ledger.ended_withoutRequest wf awaits] at mem
    exact List.mem_singleton.mp mem
  have refl := Ledger.SendsAlike.refl x.ledger
  cases deed with
  | idle | enrolled | enrolledAt | slotWait | waits | mailed | overdue | woke | told =>
      exact kept refl gone
  | received => exact kept (Ledger.sendsAlike_openIncoming wf _ _ _ _) gone
  | answered | echoed =>
      exact kept ((Ledger.sendsAlike_openIncoming wf _ _ _ _).trans
        (Ledger.sendsAlike_closed (Ledger.wellFormed_openIncoming wf _ _ _ _) _)) gone
  | closed => exact kept (Ledger.sendsAlike_closed wf _) gone
  | sent places idle | sentAwaiting places idle =>
      have mem := (Ledger.mem_ended wf).mpr ⟨pending, gone⟩
      rw [Ledger.ended_withRequest wf idle] at mem
      cases mem
  | reset => exact .reset
  | @dismissed handle =>
      rw [Ledger.awaits_removeEndpoint wf] at gone
      by_cases here : handle = key.handle
      · rw [here]
        exact .unregistered
      · rw [if_neg here, pending] at gone
        cases gone
  | @gaveUp _ wait _ waiting ending nothing awaits =>
      rw [only awaits gone]
      exact .gaveUp waiting ending nothing
  | @tookBack o _ purpose awaits =>
      rw [only awaits gone]
      exact .refused purpose
  | @tookBackAwaiting o _ _ _ purpose awaits =>
      rw [only awaits gone]
      exact .refused purpose
  | @delivered _ _ m arrives response awaits =>
      rw [only awaits gone]
      exact .matched arrives.decoded response
  | @absorbed _ _ m _ arrives response awaits =>
      rw [only awaits gone]
      exact .matched arrives.decoded response
  | @scanned limit =>
      have due := gone
      rw [Ledger.awaits_takeLapsed, pending, Bool.true_and, Bool.not_eq_false'] at due
      obtain ⟨-, come⟩ := Bool.and_eq_true_iff.mp due
      cases set : (x.ledger.slotAt key.handle key.command).outgoing.deadline with
      | none => simp [set] at come
      | some deadline => exact .lapsed set (by simpa [set] using come)

/-- Why a request ended, for each kind of ending. Of a caller that gives up one only knows that its
own request stood under the number of the request that it ends. The two are the same, or so many
requests have begun in between that the number has come round. -/
inductive Ended.Cause (e : Ended) : Ending → Prop where
  | matched {frame : Bytes} {m : Message} :
      e.move.turn = .begins (.receive frame) → Message.decode frame = .ok m →
      m.header.type.messageClass = .response → m.header.key = e.key → Cause e .matched
  | lapsed {limit deadline : Instant} :
      e.move.turn = .begins (.scan limit) →
      (e.move.before.ledger.slotAt e.key.handle e.key.command).outgoing.deadline = some deadline →
      deadline ≤ limit → Cause e .lapsed
  | gaveUp {wait : ReplyWait} :
      e.move.turn.AwaitsReply e.move.now wait → wait.key = e.key → (e.agent, e.key) ∈ e.sent →
      e.request = some e.agent ∨ 256 ≤ e.since → Cause e .gaveUp
  | refused {o : Offering} {caller : Option (CallId × Span)} :
      e.move.turn = .goesOn (.offering o) (.transport false) → o.purpose = .request caller →
      o.message.header.key = e.key → (e.agent, e.key) ∈ e.past.begun → Cause e .refused
  | reset : e.move.turn = .begins .reset → Cause e .reset
  | unregistered : e.move.turn = .begins (.unregister e.key.handle) → Cause e .unregistered

/-- The requests of one slot come in the order of all requests. -/
theorem History.sent_sublist_begun (handle : Handle) (command : Command) (h : History) :
    (h.sent handle command).Sublist h.begun := by
  induction h with
  | nil => exact List.Sublist.refl _
  | cons e past ih =>
      unfold History.sent History.begun
      split
      · exact List.nil_sublist _
      · exact (List.filter_sublist.map _).append ih

/-- How many requests stand before that of an operation. -/
theorem takeWhile_others {later earlier : List (OperationId × RequestKey)} {id : OperationId}
    {key : RequestKey} (apart : id ∉ later.map Prod.fst) :
    ((later ++ (id, key) :: earlier).takeWhile (·.1 != id)) = later := by
  rw [List.takeWhile_append_of_pos]
  · simp
  · intro request mem
    refine bne_iff_ne.mpr ?_
    rintro rfl
    exact apart (List.mem_map_of_mem mem)

/-- How many requests have begun on the slot after the one of this operation. -/
def History.begunAfter (h : History) (key : RequestKey) (id : OperationId) : Nat :=
  ((h.sent key.handle key.command).takeWhile (·.1 != id)).length

namespace Session

variable {s s' : Session} {m : Entry}

/-- How many requests began after one can be read off the list of its slot. -/
theorem Accounted.begunAfter_eq (accounted : s.Accounted) {key : RequestKey} {id : OperationId}
    {later earlier : List (OperationId × RequestKey)}
    (split : s.history.sent key.handle key.command = later ++ (id, key) :: earlier) :
    s.history.begunAfter key id = later.length := by
  have ids : ((s.history.sent key.handle key.command).map Prod.fst).Nodup :=
    accounted.begunOnce.sublist ((History.sent_sublist_begun _ _ _).map _)
  have apart : id ∉ later.map Prod.fst := by
    rw [split, List.map_append, List.map_cons] at ids
    exact fun mem => (List.nodup_append'.mp ids).2.2 mem List.mem_cons_self
  rw [History.begunAfter, split, takeWhile_others apart]

/-- The numbers of a slot come round after 256 requests. -/
theorem Accounted.length_of_twin (accounted : s.Accounted) {key : RequestKey} {a b : OperationId}
    {later earlier : List (OperationId × RequestKey)}
    (split : s.history.sent key.handle key.command = later ++ (a, key) :: earlier)
    (twin : (b, key) ∈ later) : 256 ≤ later.length := by
  obtain ⟨first, rest, rfl⟩ := List.append_of_mem twin
  have number := congrArg RequestKey.transaction
    (accounted.numbered _ _ (first ++ (b, key) :: rest) a key earlier split)
  rw [List.append_assoc] at split
  have number' := congrArg RequestKey.transaction
    (accounted.numbered _ _ first b key (rest ++ (a, key) :: earlier) split)
  have alike := congrArg UInt8.toNat (number.symm.trans number')
  simp only [UInt8.toNat_ofNat', List.length_append, List.length_cons] at alike ⊢
  omega

/-- Two requests of a slot bear the same number only if at least 256 have begun after one of them.
This is where the width of a number enters: the requests of a slot are numbered through, so equal
numbers are a multiple of 256 requests apart. -/
theorem Accounted.twins (accounted : s.Accounted) {key : RequestKey} {a b : OperationId}
    (first : (a, key) ∈ s.history.sent key.handle key.command)
    (second : (b, key) ∈ s.history.sent key.handle key.command) :
    a = b ∨ 256 ≤ s.history.begunAfter key a ∨ 256 ≤ s.history.begunAfter key b := by
  obtain ⟨later, earlier, split⟩ := List.append_of_mem first
  rw [split] at second
  rcases List.mem_append.mp second with second | second
  · rw [accounted.begunAfter_eq split]
    exact .inr (.inl (accounted.length_of_twin split second))
  · rcases List.mem_cons.mp second with same | second
    · exact .inl (Prod.mk.inj same).1.symm
    · obtain ⟨middle, rest, rfl⟩ := List.append_of_mem second
      rw [← List.cons_append, ← List.append_assoc] at split
      rw [accounted.begunAfter_eq split]
      exact .inr (.inr (accounted.length_of_twin split
        (List.mem_append_right _ List.mem_cons_self)))

/-- A caller ends its own request, or one that came at least 256 requests later. For the request
that it ends is the latest of the slot, and bears the number of its own. -/
theorem Accounted.request_or_since (accounted : s.Accounted) {key : RequestKey}
    (pending : s.exchange.ledger.awaits key = true)
    (own : (m.operation, key) ∈ s.history.sent key.handle key.command) :
    (⟨key, m, s.history⟩ : Ended).request = some m.operation ∨
      256 ≤ (⟨key, m, s.history⟩ : Ended).since := by
  obtain ⟨id, before, latest, -⟩ := accounted.latest key pending
  have newest : s.history.begunAfter key id = 0 :=
    @begunAfter_eq s accounted key id [] before latest
  rcases accounted.twins (latest ▸ List.mem_cons_self) own with same | many | many
  · left
    rw [Ended.request, Ended.sent, latest, ← same]
    rfl
  · omega
  · exact .inr many

/-- Each request that a move ends has one of the six causes. -/
theorem Moved.cause (moved : s.Moved s' m) (accounted : s.Accounted) (attended : s.Attended)
    {key : RequestKey} (mem : key ∈ m.ended) :
    (⟨key, m, s.history⟩ : Ended).Cause m.turn.ending := by
  have sound := moved.sound accounted.wellFormed
  obtain ⟨pending, gone⟩ := sound.mem_ended.mp mem
  have ends := moved.deed.ends sound.before pending gone
  rw [moved.before] at pending
  generalize turn : m.turn = t at ends
  cases ends with
  | matched decoded response => exact .matched turn decoded response rfl
  | lapsed deadline reached => exact .lapsed turn deadline reached
  | gaveUp waiting ending nothing =>
      rw [ending]
      obtain ⟨former, reply, rfl, caller, request⟩ := waiting.activity
      obtain ⟨task, under, id, -, rfl⟩ := moved.former turn
      rw [moved.before, Awaited.mailFor_eq_nothing_iff] at nothing
      rcases attended.standing task under _ _ request caller with mail | ⟨-, own⟩
      · exact absurd mail nothing
      · rw [id] at own
        refine .gaveUp ?_ rfl own (accounted.request_or_since pending own)
        rw [turn]
        exact waiting
  | refused purpose =>
      rename_i o caller
      obtain ⟨task, under, id, -, activity⟩ := moved.former turn
      refine .refused turn purpose rfl ?_
      obtain ⟨message, purpose'⟩ := o
      obtain rfl : purpose' = .request caller := purpose
      have own := attended.own task under message.header.key (by rw [activity]; rfl)
      rw [id] at own
      exact own
  | reset => exact .reset turn
  | unregistered => exact .unregistered turn

/-- So each request that has ended in a run has a cause, which still holds of it. -/
theorem Reachable.caused {settings : Settings} (reached : Reachable settings s) :
    ∀ e ∈ s.history.ended, e.Cause e.ending := by
  induction reached with
  | fresh =>
      intro e mem
      cases mem
  | step before stepped ih =>
      obtain ⟨m, moved⟩ := moved_of_step stepped
      intro e mem
      rcases (Accounted.mem_ended_step moved).mp mem with ⟨key, ended, rfl⟩ | mem
      · exact moved.cause before.accounted before.attended ended
      · exact ih e mem

end Session

/-! ### Pending requests keep their slots -/

namespace Exchange

variable {x : Exchange} {key : RequestKey}

/-- How an order on a slot is refused. -/
def busy (x : Exchange) (order : Order) (key : RequestKey) : Segment :=
  x.finish (order.fail (.busy key.handle key.command key.transaction))

/-- Whoever sends a request on the slot of this one is refused, a patient sender when its time is
over. The refusal names the slot, and nothing changes. -/
structure Refuses (x : Exchange) (key : RequestKey) : Prop where
  begins : ∀ role order now, order.handle = key.handle → order.command = key.command →
    x.beginRequest role order now = x.busy order key
  polls : ∀ wait now, wait.order.handle = key.handle → wait.order.command = key.command →
    x.pollSlot wait now =
      if now < wait.deadline then (x, .waiting (.blocked (.slot wait)))
      else x.busy wait.order key
  starts : ∀ operation order r now, operation.order? x = some order →
    order.handle = key.handle → order.command = key.command →
    x.directory.find? order.handle = some r → order.command < r.descriptor.commands →
    x.start operation now =
      match order.manner with
      | .patient span =>
          match now.after? span with
          | none => x.finish (.aborted .clockOverflow)
          | some deadline =>
              if now < deadline then
                (x, .waiting (.blocked (.slot ⟨r.descriptor.role, order, deadline⟩)))
              else x.busy order key
      | _ => x.busy order key

end Exchange

/-! ### The account of a session -/

/-- A call tells of the request that its operation ended under the same key. Operation and key do
for this, since no operation ends two requests under one key that it tells of
(`Answered.tells_inj`). -/
structure Call.Tells (call : Call) (e : Ended) : Prop where
  agent : e.agent = call.agent
  key : e.key = call.message.header.key
  told : e.ending = .matched ∨ e.ending = .lapsed

namespace Session

variable {s : Session} {settings : Settings}

/-- The history of a reachable session consists of deeds. This is what the induction over runs comes
to in this module; all else about calls is read off one deed at a time. -/
theorem Reachable.deeds (reached : Reachable settings s) :
    ∀ m ∈ s.history, Deed m.before m.now m.turn (m.after, m.progress) := by
  induction reached with
  | fresh =>
      intro m mem
      cases mem
  | step before stepped ih =>
      obtain ⟨m, moved⟩ := moved_of_step stepped
      rw [moved.history]
      intro entry mem
      rcases List.mem_cons.mp mem with rfl | mem
      · exact moved.deed
      · exact ih entry mem

/-- What ended was ended by a move of the history. -/
theorem Reachable.moves_of_ended (reached : Reachable settings s) :
    ∀ e ∈ s.history.ended, e.move ∈ s.history ∧ e.key ∈ e.move.ended ∧ e.move.Sound := by
  induction reached with
  | fresh =>
      intro e mem
      cases mem
  | step before stepped ih =>
      obtain ⟨m, moved⟩ := moved_of_step stepped
      intro e mem
      rw [moved.history]
      rcases (Accounted.mem_ended_step moved).mp mem with ⟨key, ended, rfl⟩ | mem
      · exact ⟨List.mem_cons_self, ended, moved.sound before.accounted.wellFormed⟩
      · obtain ⟨mem, ended⟩ := ih e mem
        exact ⟨List.mem_cons_of_mem m mem, ended⟩

namespace Answered

variable {e e' : Ended} {call call' : Call}

/-- An agent was told of the requests that its moves ended with a message for the endpoint. -/
theorem mem_told : ∀ {key : RequestKey} {agent : OperationId}, key ∈ s.history.told agent ↔
    ∃ e ∈ s.history.ended, e.key = key ∧ e.agent = agent ∧ e.ending.isTold = true := by
  intro key agent
  simp only [History.told, List.mem_map, List.mem_filter, Bool.and_eq_true, beq_iff_eq]
  constructor
  · rintro ⟨e, ⟨mem, same⟩, rfl⟩
    exact ⟨e, mem, rfl, same⟩
  · rintro ⟨e, mem, rfl, same⟩
    exact ⟨e, ⟨mem, same⟩, rfl⟩

/-- Responses and lapses are what endpoints are told of. -/
theorem isTold_iff {ending : Ending} :
    ending.isTold = true ↔ ending = .matched ∨ ending = .lapsed := by
  cases ending <;> simp [Ending.isTold]

/-- Nobody is reached twice for one request. -/
theorem reachedOnce (answered : s.Answered) (agent : OperationId) :
    ((s.history.reached agent).map Prod.fst).Nodup :=
  ((answered.shared agent).nodup_iff.mp (answered.once agent)).of_append_left

end Answered

end Session

/-! ### A slot whose numbers come round -/

/-- `n` more requests have begun on the slot since the first one and were taken back. The response
to the first one is still being handled, so its caller waits. -/
structure Session.Wraps (n : Nat) (s : Session) : Prop where
  reached : Session.Reachable {} s
  found : s.exchange.directory.find? 16 = some (.single .client)
  idle : (s.exchange.ledger.slotAt 16 0).outgoing.pending = false
  next : (s.exchange.ledger.slotAt 16 0).nextTransaction = UInt8.ofNat (n + 1)
  awaited : s.exchange.awaited = { waiting := [(⟨16, 0, 0⟩, 0)], calls := 1 }
  caller : ∃ task ∈ s.tasks,
    task.activity = .blocked (.reply ⟨0, ⟨16, 0, 0⟩, 20, some 20, false⟩)

theorem Session.wraps_none : ∃ s, Session.Wraps 0 s := by
  obtain ⟨s, reached, found, ledger, awaited, tasks, -⟩ := Session.reachable_single .client
  have wf := reached.accounted.wellFormed
  have idle : (s.exchange.ledger.slotAt 16 0).outgoing.pending = false := by
    rw [ledger, Ledger.slotAt_empty]
  have next : (s.exchange.ledger.slotAt 16 0).nextTransaction = 0 := by
    rw [ledger, Ledger.slotAt_empty]
  have starts : s.exchange.start (.sendAndAwait 16 0 [] 20) 0 =
      ({ s.exchange with
          ledger := s.exchange.ledger.withRequest 16 0 (some 20) 0
          awaited := { waiting := [(⟨16, 0, 0⟩, 0)], calls := 1 } },
        .waiting
          (.offering ⟨⟨⟨16, .clientRequest, 0, .none, 0⟩, []⟩, .request (some (0, 20))⟩)) := by
    simp [Exchange.start, Exchange.sendAndAwait, Exchange.place, found, Registration.single,
      Descriptor.single, Exchange.beginRequest, Ledger.begin_eq, idle, next, awaited,
      Awaited.enlist, Awaited.release, Awaited.releaseWhere, Exchange.offer,
      MessageType.requestFrom, Header.key]
  obtain ⟨s₁, s₂, task, reached₂, -, -, -, exchange₂, -, tasks₂, -⟩ :=
    reached.startsAndResumes (.sendAndAwait 16 0 [] 20) 0 (.transport true) 0 starts rfl
  have arrives : Arrives s₂.exchange [16, 1, 0, 0, 0, 0] (.single .client)
      ⟨⟨16, .serviceResponse, 0, .none, 0⟩, []⟩ := by
    rw [exchange₂]
    exact ⟨rfl, found, rfl, rfl, by decide⟩
  have pending : s₂.exchange.ledger.awaits ⟨16, 0, 0⟩ = true := by
    rw [exchange₂]
    show (s.exchange.ledger.withRequest 16 0 (some 20) 0).awaits ⟨16, 0, 0⟩ = true
    rw [Ledger.awaits_withRequest wf]
    simp [next]
  have matched := Exchange.start_receive_matched arrives rfl rfl pending 0
  obtain ⟨s₃, reached₃, exchange₃, -, tasks₃, -⟩ := reached₂.starts _ _ matched
  have wf₂ := reached₂.accounted.wellFormed
  have ledger₂ : s₂.exchange.ledger = s.exchange.ledger.withRequest 16 0 (some 20) 0 :=
    congrArg Exchange.ledger exchange₂
  have ledger₃ : s₃.exchange.ledger = s₂.exchange.ledger.withoutRequest 16 0 :=
    congrArg Exchange.ledger exchange₃
  refine ⟨s₃, reached₃, ?_, ?_, ?_, ?_, ?_⟩
  · rw [exchange₃, exchange₂]
    exact found
  · rw [ledger₃, Ledger.slotAt_withoutRequest wf₂, if_pos ⟨rfl, rfl⟩]
    rfl
  · rw [ledger₃, Ledger.slotAt_withoutRequest wf₂, if_pos ⟨rfl, rfl⟩, ledger₂,
      Ledger.slotAt_withRequest wf, if_pos ⟨rfl, rfl⟩]
    simp [Slot.begin, Slot.finish, next]
  · rw [exchange₃, exchange₂]
    rfl
  · refine ⟨⟨task.id, task.found, _⟩, ?_, rfl⟩
    rw [tasks₃, tasks₂]
    exact List.mem_cons_of_mem _ List.mem_cons_self

/-- One more request on the slot, sent and taken back. -/
theorem Session.Wraps.next_round {n : Nat} {s : Session} (wraps : s.Wraps n)
    (below : n + 1 < 256) : ∃ s', Session.Wraps (n + 1) s' := by
  have wf := wraps.reached.accounted.wellFormed
  have starts := Exchange.start_sendWithTimeout wraps.found (show (0 : Command) < 1 by decide)
    wraps.idle [] none 0
  rw [wraps.next] at starts
  have pending : (s.exchange.ledger.withRequest 16 0 none 0).awaits
      ⟨16, 0, UInt8.ofNat (n + 1)⟩ = true := by
    rw [Ledger.awaits_withRequest wf]
    simp [wraps.next]
  have refused := Exchange.offered_refused (x := { s.exchange with
    ledger := s.exchange.ledger.withRequest 16 0 none 0 })
    ((⟨16, 0, [], none, .once⟩ : Order).request .client (UInt8.ofNat (n + 1))) pending 0
  obtain ⟨s₁, s₂, task, reached₂, id, -, -, exchange₂, -, tasks₂, -⟩ :=
    wraps.reached.startsAndResumes (.sendWithTimeout 16 0 [] none) 0 (.transport false) 0 starts
      (congrArg some refused)
  have unawaited : ∀ w ∈ s.exchange.awaited.waiting, w.1 ≠ ⟨16, 0, UInt8.ofNat (n + 1)⟩ := by
    rw [wraps.awaited]
    intro w mem same
    rw [List.mem_singleton.mp mem] at same
    have number := congrArg UInt8.toNat (congrArg RequestKey.transaction same)
    simp only [UInt8.toNat_ofNat'] at number
    have : (0 : UInt8).toNat = 0 := rfl
    omega
  have wf₁ := Ledger.wellFormed_withRequest wf 16 0 none 0
  have ledger₂ : s₂.exchange.ledger =
      (s.exchange.ledger.withRequest 16 0 none 0).withoutRequest 16 0 :=
    congrArg Exchange.ledger exchange₂
  refine ⟨s₂, reached₂, ?_, ?_, ?_, ?_, ?_⟩
  · rw [exchange₂]
    exact wraps.found
  · rw [ledger₂, Ledger.slotAt_withoutRequest wf₁, if_pos ⟨rfl, rfl⟩]
    rfl
  · rw [ledger₂, Ledger.slotAt_withoutRequest wf₁, if_pos ⟨rfl, rfl⟩, Ledger.slotAt_withRequest wf,
      if_pos ⟨rfl, rfl⟩]
    simp [Slot.begin, Slot.finish, wraps.next]
  · rw [exchange₂, ← wraps.awaited]
    exact Awaited.release_of_unawaited unawaited
  · obtain ⟨task', mem, activity⟩ := wraps.caller
    refine ⟨task', ?_, activity⟩
    rw [tasks₂]
    exact mem

/-- So the slot can be brought to any number. -/
theorem Session.exists_wraps : ∀ n < 256, ∃ s, Session.Wraps n s := by
  intro n below
  induction n with
  | zero => exact Session.wraps_none
  | succ n ih =>
      obtain ⟨s, wraps⟩ := ih (Nat.lt_of_succ_lt below)
      exact wraps.next_round below

end HubRelay
