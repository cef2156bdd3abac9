import HubRelay.Proofs.Completion

/-!
What a slot has forgotten does not reach the requests begun on it later.

When the link is reset, or an endpoint goes, the slots are forgotten and their numbers start again
from zero. An old request cannot be taken for a later one until the later ones have come to its
number: if it was number `t` of its slot, for as long as at most `t` requests have begun since.
`Session.Isolates` says what that means for everything that may still be done for the old one.
-/

namespace HubRelay

/-- A request that began before its slot was last forgotten. It has begun, but it is not among the
requests of the slot as the slot counts them now. -/
structure Session.Outdated (s : Session) (id : OperationId) (key : RequestKey) : Prop where
  begun : (id, key) ∈ s.history.begun
  forgotten : (id, key) ∉ s.history.sent key.handle key.command

/-- Nothing that is done for an old request ends or answers a later one. The clauses go through
everything that may still be under way for it: a response that comes late, the operation that sent
it and that now learns of a refusal or of the end of its time, and handlers of responses and scans
that were told of it before and now return. -/
structure Session.Isolates (s : Session) (id : OperationId) (key : RequestKey) : Prop where
  /-- No request is pending under the old key, and no caller waits there. -/
  idle : s.exchange.ledger.awaits key = false
  unawaited : ∀ w ∈ s.exchange.awaited.waiting, w.1 ≠ key
  /-- A late response is stale if the endpoint now at the handle takes such frames at all. -/
  stale : ∀ frame m r now, Message.decode frame = .ok m →
    m.header.type.messageClass = .response → m.header.key = key →
    s.exchange.directory.find? key.handle = some r →
    r.descriptor.role = m.header.type.receiver → Exchange.longEnough r m = true →
    s.exchange.start (.receive frame) now = s.exchange.finish (.disposed .stale)
  /-- In any case it changes nothing and reaches nobody. -/
  undelivered : ∀ frame m now, Message.decode frame = .ok m →
    m.header.type.messageClass = .response → m.header.key = key →
    ∃ disposition, (disposition = .stale ∨ disposition = .rejected .invalidArg none) ∧
      s.exchange.start (.receive frame) now = s.exchange.finish (.disposed disposition)
  /-- The sender of the old request ends nothing and wakes nobody, whether the transport refuses
  its frame now or its own time is over. -/
  sender : ∀ task ∈ s.tasks, task.id = id → task.activity.request? = some key →
    ∀ reply now segment, s.exchange.proceed task.activity reply now = some segment →
      segment.1.ledger = s.exchange.ledger ∧
        segment.1.awaited.waiting = s.exchange.awaited.waiting
  /-- Nor does a handler that was called with a response to it before, or a scan that was told of
  it before. -/
  posted : ∀ m : Message, m.header.key = key → s.exchange.awaited.post m = s.exchange.awaited
  handled : ∀ r m code now, m.header.key = key →
    s.exchange.served ⟨r, m, .wakeCaller⟩ code now =
      s.exchange.finish (.disposed (.delivered code))
  scanned : ∀ r m rest count code now, m.header.key = key →
    s.exchange.served ⟨r, m, .nextLapsed rest count⟩ code now = s.exchange.tellLapsed count rest

namespace Exchange

variable {x : Exchange} {frame : Bytes} {m : Message}

/-- A response that belongs to no pending request goes nowhere. -/
theorem start_receive_unmatched (decoded : Message.decode frame = .ok m)
    (response : m.header.type.messageClass = .response)
    (unknown : x.ledger.awaits m.header.key = false) (now : Instant) :
    x.start (.receive frame) now =
      match x.directory.find? m.header.handle with
      | none => x.finish (.disposed (.rejected .invalidArg none))
      | some r =>
          if r.descriptor.role ≠ m.header.type.receiver ∨ longEnough r m = false then
            x.finish (.disposed (.rejected .invalidArg none))
          else x.finish (.disposed .stale) := by
  have silent : m.header.response? .invalidArg = none := by
    unfold Header.response?
    cases type : m.header.type with
    | serviceResponse | clientResponse => rfl
    | _ =>
        rw [type] at response
        cases response
  have rejected : x.reject m.header .invalidArg =
      x.finish (.disposed (.rejected .invalidArg none)) := by
    rw [reject, silent]
  obtain ⟨correlation, unmatched, completed⟩ := Ledger.complete_of_not_awaits unknown now
  simp only [Header.key] at completed
  simp only [start, receive, decoded, rejected]
  cases found : x.directory.find? m.header.handle with
  | none => rfl
  | some r =>
      simp only
      by_cases role : r.descriptor.role = m.header.type.receiver
      · cases long : longEnough r m with
        | false => simp [role]
        | true =>
            simp only [role, ne_eq, not_true_eq_false, if_false, Bool.not_true, response,
              Bool.false_eq_true, Bool.true_eq_false, or_self]
            unfold receiveResponse
            simp only [completed]
            split
            · rfl
            · cases correlation with
              | matched latency => exact absurd rfl (unmatched latency)
              | mismatch | notPending => rfl
      · simp [role]

end Exchange

/-- A sender that waits for its slot has no request yet. -/
theorem Turn.Places.request? {x : Exchange} {activity : Activity} {reply : Reply} {role : Role}
    {order : Order} (places : Turn.Places x (.goesOn activity reply) role order) :
    activity.request? = none := by
  cases places
  rfl

namespace Session

variable {s : Session} {id : OperationId} {key : RequestKey}

/-- The number of a request tells how many had begun on its slot before. So while fewer have begun
since the slot was forgotten, none of them bears this number. -/
theorem Accounted.absent_of_few (accounted : s.Accounted)
    (few : (s.history.sent key.handle key.command).length ≤ key.transaction.toNat)
    (other : OperationId) : (other, key) ∉ s.history.sent key.handle key.command := by
  intro mem
  obtain ⟨later, earlier, split⟩ := List.append_of_mem mem
  have number := congrArg RequestKey.transaction
    (accounted.numbered _ _ later other key earlier split)
  have below := key.transaction.toNat_lt
  rw [split, List.length_append, List.length_cons] at few
  have same := congrArg UInt8.toNat number
  rw [UInt8.toNat_ofNat'] at same
  omega

theorem Accounted.idle_of_absent (accounted : s.Accounted)
    (absent : ∀ other, (other, key) ∉ s.history.sent key.handle key.command) :
    s.exchange.ledger.awaits key = false := by
  cases pending : s.exchange.ledger.awaits key with
  | false => rfl
  | true =>
      obtain ⟨other, earlier, sent, -⟩ := accounted.latest key pending
      exact absurd (sent ▸ List.mem_cons_self) (absent other)

/-- An operation that goes on for a request that is not pending changes nothing for others. -/
theorem proceed_of_idle {activity : Activity} (request : activity.request? = some key)
    (idle : s.exchange.ledger.awaits key = false)
    (unawaited : ∀ w ∈ s.exchange.awaited.waiting, w.1 ≠ key) {reply : Reply} {now : Instant}
    {segment : Segment} (proceeded : s.exchange.proceed activity reply now = some segment) :
    segment.1.ledger = s.exchange.ledger ∧
      segment.1.awaited.waiting = s.exchange.awaited.waiting := by
  have deed : Deed s.exchange now (.goesOn activity reply) segment := deed_of_turn proceeded
  have own {wait : ReplyWait} (awaits : Turn.AwaitsReply now (.goesOn activity reply) wait) :
      wait.key = key := by
    obtain ⟨former, reply', turn, -, request'⟩ := awaits.activity
    obtain ⟨rfl, -⟩ := Turn.goesOn.inj turn
    exact Option.some.inj (request'.symm.trans request)
  have released : (s.exchange.awaited.release key).waiting = s.exchange.awaited.waiting :=
    congrArg Awaited.waiting (Awaited.release_of_unawaited unawaited)
  -- Whatever would touch the ledger asks for a pending request first, and there is none.
  cases deed with
  | idle | waits => exact ⟨rfl, rfl⟩
  | mailed => exact ⟨rfl, rfl⟩
  | overdue awaits =>
      rw [← own awaits] at released
      exact ⟨rfl, released⟩
  | gaveUp awaits _ _ pending =>
      rw [own awaits, idle] at pending
      cases pending
  | @tookBack o _ purpose pending =>
      obtain ⟨message, purpose'⟩ := o
      obtain rfl : purpose' = .request none := purpose
      obtain rfl : message.header.key = key := Option.some.inj request
      rw [idle] at pending
      cases pending
  | @tookBackAwaiting o _ _ _ purpose pending =>
      obtain ⟨message, purpose'⟩ := o
      obtain rfl : purpose' = .request _ := purpose
      obtain rfl : message.header.key = key := Option.some.inj request
      rw [idle] at pending
      cases pending
  | slotWait places | sent places | sentAwaiting places =>
      rw [places.request?] at request
      cases request
  | closed closes =>
      cases closes <;> cases request
  | woke | told => cases request

theorem Reachable.isolates {settings : Settings} (reached : Reachable settings s)
    (few : (s.history.sent key.handle key.command).length ≤ key.transaction.toNat) :
    s.Isolates id key := by
  have accounted := reached.accounted
  have absent := accounted.absent_of_few few
  have idle := accounted.idle_of_absent absent
  have unawaited : ∀ w ∈ s.exchange.awaited.waiting, w.1 ≠ key := by
    rintro w mem rfl
    obtain ⟨other, sent⟩ := reached.attended.awaited w mem
    exact absent other sent
  have posted (m : Message) (old : m.header.key = key) :
      s.exchange.awaited.post m = s.exchange.awaited :=
    Awaited.post_of_unawaited (by rw [old]; exact unawaited)
  exact
    { idle
      unawaited
      posted
      stale := by
        rintro frame m r now decoded response rfl found role long
        rw [Exchange.start_receive_unmatched decoded response idle]
        simp only [Header.key] at found
        simp [found, role, long]
      undelivered := by
        rintro frame m now decoded response rfl
        rw [Exchange.start_receive_unmatched decoded response idle]
        split
        · exact ⟨_, .inr rfl, rfl⟩
        · split
          · exact ⟨_, .inr rfl, rfl⟩
          · exact ⟨_, .inl rfl, rfl⟩
      sender := by
        intro task _ _ request reply now segment proceeded
        exact proceed_of_idle request idle unawaited proceeded
      handled := by
        intro r m code now old
        simp only [Exchange.served, Exchange.responseServed, posted m old]
      scanned := by
        intro r m rest count code now old
        simp only [Exchange.served, posted m old] }

/-- What ended was the latest request of its slot. -/
theorem Reachable.latest_of_ended {settings : Settings} (reached : Reachable settings s) :
    ∀ e ∈ s.history.ended, ∃ id, e.request = some id ∧ (id, e.key) ∈ e.sent := by
  induction reached with
  | fresh =>
      intro e mem
      cases mem
  | step before stepped ih =>
      obtain ⟨m, moved⟩ := moved_of_step stepped
      intro e mem
      rcases (Accounted.mem_ended_step moved).mp mem with ⟨key, ended, rfl⟩ | mem
      · obtain ⟨id, earlier, sent, -⟩ := before.accounted.request_of_ended moved ended
        refine ⟨id, ?_, ?_⟩
        · simp [Ended.request, Ended.sent, sent]
        · show (id, key) ∈ History.sent key.handle key.command _
          rw [sent]
          exact List.mem_cons_self
      · exact ih e mem

/-- Handlers are told of requests that began on their slots since these were last forgotten, as of
the moment when the frame came or the scan began. A scan keeps what it has found in its hands, so
the handler may be called when the slot has been forgotten in the meantime
(`scans_tell_of_forgotten_requests`). -/
theorem Reachable.told_of_latest {settings : Settings} (reached : Reachable settings s)
    {call : Call} (mem : call ∈ s.history.calls) :
    ∃ e ∈ s.history.ended, call.Tells e ∧ (∃ operation, e.move.turn = .begins operation) ∧
      ∃ id, e.request = some id ∧ (id, e.key) ∈ e.sent := by
  have key := (reached.answered.shared call.agent).mem_iff.mpr
    (List.mem_append_left _ (List.mem_map_of_mem (History.mem_calls_iff.mp mem)))
  obtain ⟨e, mem, key, agent, told⟩ := Answered.mem_told.mp key
  have cause := reached.caused e mem
  have tells : call.Tells e := ⟨agent, key, Answered.isTold_iff.mp told⟩
  refine ⟨e, mem, tells, ?_, reached.latest_of_ended e mem⟩
  rcases tells.told with matched | lapsed
  · rw [matched] at cause
    cases cause with
    | matched turn => exact ⟨_, turn⟩
  · rw [lapsed] at cause
    cases cause with
    | lapsed turn => exact ⟨_, turn⟩

end Session

/-- What is still done for a request that its slot has forgotten touches no later request, as long
as the later ones have not come to its number. They are numbered through from zero, and handlers are
told of no request that had been forgotten when the frame came or the scan began.

The bound is the number of the old request itself. It cannot be raised: after a reset the first
request is given the number zero again, which a late response to the first one before the reset
bears too (`responses_end_later_requests`). -/
theorem outdated_requests_isolated {settings : Settings} {s : Session}
    (reached : Session.Reachable settings s) :
    (∀ id key, s.Outdated id key →
      (s.history.sent key.handle key.command).length ≤ key.transaction.toNat →
        s.Isolates id key) ∧
    (∀ handle command later id key earlier,
      s.history.sent handle command = later ++ (id, key) :: earlier →
        key = ⟨handle, command, UInt8.ofNat earlier.length⟩) ∧
    ∀ call ∈ s.history.calls, ∃ e ∈ s.history.ended, call.Tells e ∧
      (∃ operation, e.move.turn = .begins operation) ∧
        ∃ id, e.request = some id ∧ (id, e.key) ∈ e.sent :=
  ⟨fun _ _ _ few => reached.isolates few, reached.accounted.numbered,
    fun _ => reached.told_of_latest⟩

theorem outdated_requests_isolated_single :
    ∃ s id, Session.Reachable {} s ∧ s.Outdated id ⟨16, 0, 1⟩ ∧
      s.exchange.ledger.awaits ⟨16, 0, 0⟩ = true ∧ s.Isolates id ⟨16, 0, 1⟩ := by
  obtain ⟨s₁, wraps⟩ := Session.wraps_none
  have within : (0 : Command) < (Registration.single .client).descriptor.commands := by decide
  obtain ⟨s₂, reached₂, exchange₂, -, -, -, begun₂⟩ :=
    wraps.reached.sends wraps.found within wraps.idle none
  obtain ⟨s₃, reached₃, exchange₃, -, sent₃, begun₃⟩ := reached₂.resets
  have found₃ : s₃.exchange.directory.find? 16 = some (.single .client) := by
    rw [exchange₃, exchange₂]
    exact wraps.found
  have new : s₃.exchange.ledger.slotAt 16 0 = { handle := 16, command := 0 } := by
    rw [exchange₃]
    exact Ledger.slotAt_empty 16 0
  obtain ⟨s₄, reached₄, exchange₄, -, -, sent₄, begun₄⟩ :=
    reached₃.sends found₃ within (by rw [new]) none
  rw [wraps.next] at begun₂
  rw [new, sent₃] at sent₄
  have outdated : s₄.Outdated s₁.started ⟨16, 0, 1⟩ := by
    constructor
    · rw [begun₄, begun₃, begun₂]
      exact List.mem_cons_of_mem _ List.mem_cons_self
    · rw [sent₄]
      simp
  have few : (s₄.history.sent 16 0).length ≤ 1 := by
    rw [sent₄]
    exact Nat.le_refl _
  refine ⟨s₄, s₁.started, reached₄, outdated, ?_,
    (outdated_requests_isolated reached₄).1 _ _ outdated few⟩
  rw [exchange₄]
  show (s₃.exchange.ledger.withRequest 16 0 none 0).awaits ⟨16, 0, 0⟩ = true
  rw [Ledger.awaits_withRequest reached₃.accounted.wellFormed]
  simp [new]

/-- Fewer than 256 requests are not enough: the first one after a reset is ended by the response to
the first one before it. -/
theorem responses_end_later_requests :
    ¬ ∀ s, Session.Reachable {} s → ∀ id key, s.Outdated id key →
      (s.history.sent key.handle key.command).length < 256 →
      ∀ frame m now, Message.decode frame = .ok m → m.header.type.messageClass = .response →
        m.header.key = key →
        s.exchange.ledger.ended (s.exchange.start (.receive frame) now).1.ledger = [] := by
  intro isolated
  obtain ⟨s₁, reached₁, found₁, ledger₁, -⟩ := Session.reachable_single .client
  have within : (0 : Command) < (Registration.single .client).descriptor.commands := by decide
  have new₁ : s₁.exchange.ledger.slotAt 16 0 = { handle := 16, command := 0 } := by
    rw [ledger₁]
    exact Ledger.slotAt_empty 16 0
  obtain ⟨s₂, reached₂, exchange₂, -, -, -, begun₂⟩ :=
    reached₁.sends found₁ within (by rw [new₁]) none
  obtain ⟨s₃, reached₃, exchange₃, -, sent₃, begun₃⟩ := reached₂.resets
  have found₃ : s₃.exchange.directory.find? 16 = some (.single .client) := by
    rw [exchange₃, exchange₂]
    exact found₁
  have new₃ : s₃.exchange.ledger.slotAt 16 0 = { handle := 16, command := 0 } := by
    rw [exchange₃]
    exact Ledger.slotAt_empty 16 0
  obtain ⟨s₄, reached₄, exchange₄, -, -, sent₄, begun₄⟩ :=
    reached₃.sends found₃ within (by rw [new₃]) none
  rw [new₁] at begun₂
  rw [new₃, sent₃] at sent₄
  rw [new₃, begun₃, begun₂] at begun₄
  have apart : s₃.started ≠ s₁.started := by
    have once := reached₄.accounted.begunOnce
    rw [begun₄] at once
    exact fun same => (List.nodup_cons.mp once).1 (same ▸ List.mem_cons_self)
  have outdated : s₄.Outdated s₁.started ⟨16, 0, 0⟩ := by
    constructor
    · rw [begun₄]
      exact List.mem_cons_of_mem _ List.mem_cons_self
    · rw [sent₄]
      intro mem
      exact apart (Prod.mk.inj (List.mem_singleton.mp mem)).1.symm
  have few : (s₄.history.sent 16 0).length < 256 := by
    rw [sent₄]
    exact (by decide : 1 < 256)
  have pending : s₄.exchange.ledger.awaits ⟨16, 0, 0⟩ = true := by
    rw [exchange₄]
    show (s₃.exchange.ledger.withRequest 16 0 none 0).awaits ⟨16, 0, 0⟩ = true
    rw [Ledger.awaits_withRequest reached₃.accounted.wellFormed]
    simp [new₃]
  have arrives : Arrives s₄.exchange [16, 1, 0, 0, 0, 0] (.single .client)
      ⟨⟨16, .serviceResponse, 0, .none, 0⟩, []⟩ := by
    rw [exchange₄]
    exact ⟨rfl, found₃, rfl, rfl, by decide⟩
  have unended := isolated s₄ reached₄ s₁.started ⟨16, 0, 0⟩ outdated few _ _ 0 arrives.decoded
    rfl rfl
  rw [Exchange.start_receive_matched arrives rfl rfl pending] at unended
  have ended := Ledger.ended_withoutRequest reached₄.accounted.wellFormed pending
  exact List.cons_ne_nil _ _ (ended.symm.trans unended)

/-- Two requests of one endpoint whose time is over at once. -/
theorem Ledger.takeLapsed_pair (handle : Handle) :
    (((empty.withRequest handle 0 (some 0) 0).withRequest handle 1 (some 0) 0).takeLapsed 0).1 =
      [⟨handle, 0, 0, some 0⟩, ⟨handle, 1, 0, some 0⟩] := by
  simp [takeLapsed, withRequest, allocate, modify, empty, Slot.begin, Slot.isDue, Slot.lapsed,
    Instant.after?]

/-- A scan that is under way when the link is reset goes on to tell of requests from before. -/
theorem scans_tell_of_forgotten_requests :
    ¬ ∀ s, Session.Reachable {} s → ∀ (e : Entry) (past : History), s.history = e :: past →
      ∀ key call, (key, some call) ∈ e.reached →
        ∃ id, (id, key) ∈ past.sent key.handle key.command := by
  intro remembered
  let descriptor : Descriptor := { Descriptor.single .client with commands := 2 }
  let r : Registration := { Registration.single .client with descriptor }
  obtain ⟨s₁, reached₁, exchange₁, -⟩ :=
    (Session.Reachable.fresh : Session.Reachable {} _).starts
      (.registerAt 16 descriptor (.custom 0)) 0 rfl
  have found₁ : s₁.exchange.directory.find? 16 = some r := by rw [exchange₁]; rfl
  have ledger₁ : s₁.exchange.ledger = .empty := by rw [exchange₁]; rfl
  obtain ⟨s₂, reached₂, exchange₂, -⟩ := reached₁.sends found₁
    (by decide : (0 : Command) < 2)
    (by rw [ledger₁, Ledger.slotAt_empty]) (some 0)
  have found₂ : s₂.exchange.directory.find? 16 = some r := by rw [exchange₂]; exact found₁
  have new₂ : s₂.exchange.ledger.slotAt 16 1 = { handle := 16, command := 1 } := by
    rw [exchange₂]
    show (s₁.exchange.ledger.withRequest 16 0 (some 0) 0).slotAt 16 1 = _
    rw [Ledger.slotAt_withRequest reached₁.accounted.wellFormed, if_neg (by decide), ledger₁,
      Ledger.slotAt_empty]
  obtain ⟨s₃, reached₃, exchange₃, -⟩ := reached₂.sends found₂
    (by decide : (1 : Command) < 2)
    (by rw [new₂]) (some 0)
  have found₃ : s₃.exchange.directory.find? 16 = some r := by rw [exchange₃]; exact found₂
  have lapsed : (s₃.exchange.ledger.takeLapsed 0).1 =
      [⟨16, 0, 0, some 0⟩, ⟨16, 1, 0, some 0⟩] := by
    rw [exchange₃, exchange₂, ledger₁]
    exact Ledger.takeLapsed_pair 16
  have scans : s₃.exchange.start (.scan 0) 0 =
      ({ s₃.exchange with ledger := (s₃.exchange.ledger.takeLapsed 0).2 },
        .waiting (.serving ⟨r, r.timeoutMessage ⟨16, 0, 0, some 0⟩,
          .nextLapsed [⟨16, 1, 0, some 0⟩] 2⟩)) := by
    simp only [Exchange.start, Exchange.scan, lapsed, Exchange.tellLapsed, found₃]
    rfl
  obtain ⟨s₄, reached₄, exchange₄, -, tasks₄, -⟩ := reached₃.starts _ _ scans
  obtain ⟨s₅, reached₅, exchange₅, tasks₅, sent₅, -⟩ := reached₄.resets
  have found₅ : s₅.exchange.directory.find? 16 = some r := by
    rw [exchange₅, exchange₄]
    exact found₃
  let scanner : Task := ⟨s₃.started, none, .serving ⟨r, r.timeoutMessage ⟨16, 0, 0, some 0⟩,
    .nextLapsed [⟨16, 1, 0, some 0⟩] 2⟩⟩
  have under : scanner ∈ s₅.tasks := by
    refine tasks₅ _ ?_
    rw [tasks₄]
    exact List.mem_append_left _ List.mem_cons_self
  obtain ⟨s₆, reached₆, -, history₆, -⟩ := reached₅.resumes under (.endpoint .none) 0 rfl
  have visited : (⟨16, 1, 0⟩, some ⟨s₃.started, r, r.timeoutMessage ⟨16, 1, 0, some 0⟩⟩) ∈
      (s₅.reentry scanner (.endpoint .none) 0
        ((s₅.exchange.served ⟨r, r.timeoutMessage ⟨16, 0, 0, some 0⟩,
          .nextLapsed [⟨16, 1, 0, some 0⟩] 2⟩ .none 0))).reached := by
    refine List.mem_append_right _ (List.mem_map.mpr ⟨(⟨16, 1, 0, some 0⟩, some r), ?_, rfl⟩)
    exact Entry.visited_of_lapsed (deed_of_turn rfl) rfl found₅
  obtain ⟨id, sent⟩ := remembered s₆ reached₆ _ _ history₆ ⟨16, 1, 0⟩
    ⟨s₃.started, r, r.timeoutMessage ⟨16, 1, 0, some 0⟩⟩ visited
  rw [sent₅] at sent
  cases sent

/-- Neither a bound of 256 requests nor a reset keeps everything from before away. -/
theorem isolation_has_limits :
    (¬ ∀ s, Session.Reachable {} s → ∀ id key, s.Outdated id key →
      (s.history.sent key.handle key.command).length < 256 →
      ∀ frame m now, Message.decode frame = .ok m → m.header.type.messageClass = .response →
        m.header.key = key →
        s.exchange.ledger.ended (s.exchange.start (.receive frame) now).1.ledger = []) ∧
    ¬ ∀ s, Session.Reachable {} s → ∀ (e : Entry) (past : History), s.history = e :: past →
      ∀ key call, (key, some call) ∈ e.reached →
        ∃ id, (id, key) ∈ past.sent key.handle key.command :=
  ⟨responses_end_later_requests, scans_tell_of_forgotten_requests⟩

end HubRelay
