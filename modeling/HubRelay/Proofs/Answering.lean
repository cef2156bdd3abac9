import HubRelay.Proofs.Ledger.Received
import HubRelay.Proofs.Session.Segments

/-!
Who answers a request that its handler failed.

A received request is open until a response is tried. When the handler fails and the request is
still open, the exchange answers for it. A response that is tried closes the request before the
transport has said whether it takes the frame; so if the transport refuses it, and the handler then
fails, nobody answers. `Session.Answers` says when the exchange answers, and when that is what the
sender of the request needs.
-/

namespace HubRelay

/-! ### What happens meanwhile -/

/-- What has happened since the last move of an operation. -/
def History.meanwhile (id : OperationId) (h : History) : History :=
  h.takeWhile (·.operation != id)

/-- Another request has come to an endpoint on the slot, or the slot was forgotten. In both cases
the slot does not wait for an answer to the request any more, through no fault of whoever handles
it. -/
def Entry.Disturbs (e : Entry) (key : RequestKey) : Prop :=
  e.restarts key.handle = true ∨
    ∃ frame r m, e.turn = .begins (.receive frame) ∧ Arrives e.before frame r m ∧
      m.header.type.messageClass = .request ∧ m.header.handle = key.handle ∧
      m.header.command = key.command

/-- The transport has taken a response to the request. -/
def Entry.Accepts (e : Entry) (key : RequestKey) : Prop :=
  ∃ o, e.turn = .goesOn (.offering o) (.transport true) ∧
    o.message.header.type.messageClass = .response ∧ o.message.header.key = key

namespace History

variable {e : Entry} {past : History} {id : OperationId}

theorem meanwhile_of_own (own : e.operation = id) : meanwhile id (e :: past) = [] := by
  simp [meanwhile, own]

theorem meanwhile_of_other (other : e.operation ≠ id) :
    meanwhile id (e :: past) = e :: past.meanwhile id := by
  simp [meanwhile, other]

end History

/-! ### What keeps a request open -/

/-- A turn that closes a request does so whatever comes of it. -/
theorem Turn.Closes.ledger {x : Exchange} {now : Instant} {turn : Turn} {key : RequestKey}
    {segment : Segment} (closes : turn.Closes key) (turned : x.turn turn now = some segment) :
    segment.1.ledger = x.ledger.closed key := by
  cases closes with
  | @respond request error payload =>
      obtain rfl := Option.some.inj turned
      show (x.offerResponse request error payload .response now).1.ledger = _
      rw [offerResponse_eq]
      split <;> rfl
  | @failed r m code failed =>
      obtain rfl := Option.some.inj turned
      show (x.requestServed m.header code now).1.ledger = _
      rw [requestServed_eq, if_neg (by simp [failed])]
  | @unechoed message request =>
      obtain rfl := Option.some.inj turned
      show (x.requestServed request .unspecified now).1.ledger = _
      rw [requestServed_eq, if_neg (by decide)]

namespace Entry

variable {e : Entry} {key : RequestKey}

/-- Only what closes a request settles it, as long as nothing disturbs its slot. -/
theorem owes_of_open (wf : e.before.ledger.WellFormed)
    (deed : Deed e.before e.now e.turn (e.after, e.progress)) (calm : ¬ e.Disturbs key)
    (kept : ¬ e.turn.Closes key) : e.after.ledger.owes key = e.before.ledger.owes key := by
  obtain ⟨operation, found, turn, now, before, after, progress⟩ := e
  simp only at wf deed kept ⊢
  have elsewhere {m : Message} {frame : Bytes} {r : Registration}
      (turn' : turn = .begins (.receive frame)) (arrives : Arrives before frame r m)
      (request : m.header.type.messageClass = .request) :
      ¬ (m.header.handle = key.handle ∧ m.header.command = key.command) := fun here =>
    calm (.inr ⟨frame, r, m, turn', arrives, request, here.1, here.2⟩)
  have steady (restarts : Entry.restarts ⟨operation, found, turn, now, before, after, progress⟩
      key.handle = true) : False := calm (.inl restarts)
  cases deed with
  | idle | enrolled | enrolledAt | slotWait | waits | mailed | overdue | woke | told => rfl
  | sent | sentAwaiting => exact (Ledger.receivesAlike_withRequest wf _ _ _ _).owes_eq key
  | gaveUp | tookBack | tookBackAwaiting | delivered | absorbed =>
      exact (Ledger.receivesAlike_withoutRequest wf _ _).owes_eq key
  | scanned => exact (Ledger.receivesAlike_takeLapsed _ _).owes_eq key
  | reset => exact absurd rfl steady
  | @dismissed handle =>
      rw [Ledger.owes_removeEndpoint wf, if_neg]
      intro here
      exact steady (beq_iff_eq.mpr here)
  | received arrives request =>
      rw [Ledger.owes_openIncoming wf, if_neg (elsewhere rfl arrives request)]
  | @answered frame r m _ arrives request | @echoed frame r m _ arrives request =>
      have apart : m.header.key ≠ key := by
        rintro rfl
        exact elsewhere rfl arrives request ⟨rfl, rfl⟩
      rw [Ledger.owes_closed (Ledger.wellFormed_openIncoming wf _ _ _ _), if_neg apart,
        Ledger.owes_openIncoming wf, if_neg (elsewhere rfl arrives request)]
  | @closed _ other _ closes =>
      rw [Ledger.owes_closed wf, if_neg]
      rintro rfl
      exact kept closes

theorem owes_of_closes (wf : e.before.ledger.WellFormed)
    (turned : e.before.turn e.turn e.now = some (e.after, e.progress))
    (closes : e.turn.Closes key) : e.after.ledger.owes key = false := by
  have ledger : e.after.ledger = e.before.ledger.closed key := closes.ledger turned
  rw [ledger, Ledger.owes_closed wf, if_pos rfl]

end Entry

/-! ### Handlers at work -/

/-- The handler of a request is at work, and whether the request was left open to it. The echoing
endpoint tries its response first, so to it the request is closed already. -/
inductive Activity.Handles : Activity → Header → Bool → Prop where
  | called {r : Registration} {m : Message} :
      Handles (.serving ⟨r, m, .answerRequest⟩) m.header true
  | echoing {message : Message} {request : Header} :
      Handles (.offering ⟨message, .echo request⟩) request false

theorem Progress.Plain.not_handles {p : Progress} (plain : p.Plain) {activity : Activity}
    {request : Header} {opened : Bool} (handles : activity.Handles request opened) :
    p ≠ .waiting activity := by
  rintro rfl
  cases handles with
  | called => cases plain
  | echoing =>
      cases plain with
      | offering _ noEcho => exact noEcho _ rfl

/-- A handler goes to work on the request that a frame has just brought. -/
theorem Deed.of_handles {x x' : Exchange} {now : Instant} {turn : Turn} {activity : Activity}
    {request : Header} {opened : Bool} (deed : Deed x now turn (x', .waiting activity))
    (handles : activity.Handles request opened) (wf : x.ledger.WellFormed) :
    request.type.messageClass = .request ∧ x'.ledger.owes request.key = opened := by
  cases deed with
  | idle idle => exact absurd rfl (idle.plain.not_handles handles)
  | reset plain | answered _ _ plain | closed _ plain =>
      exact absurd rfl (plain.not_handles handles)
  | received arrives asks =>
      cases handles
      refine ⟨asks, ?_⟩
      rw [Ledger.owes_openIncoming wf, if_pos ⟨rfl, rfl⟩]
      exact beq_self_eq_true _
  | echoed arrives asks =>
      cases handles
      refine ⟨asks, ?_⟩
      rw [Ledger.owes_closed (Ledger.wellFormed_openIncoming wf _ _ _ _), if_pos rfl]
  | scanned tells | told tells =>
      cases tells
      cases handles
  | slotWait | sent | sentAwaiting | waits | delivered => cases handles

namespace Session

variable {s s' : Session} {e : Entry}

/-- Nothing but responses and other slots concern the handler of `key` since the operation called
it. This is the condition under which the open request tells what the handler has done. -/
def Undisturbed (s : Session) (id : OperationId) (key : RequestKey) : Prop :=
  ∀ e ∈ s.history.meanwhile id, ¬ e.Disturbs key

/-- The transport has taken a response since the operation called the handler. -/
def Accepted (s : Session) (id : OperationId) (key : RequestKey) : Prop :=
  ∃ e ∈ s.history.meanwhile id, e.Accepts key

/-- A response was tried since the operation called the handler. -/
def Tried (s : Session) (id : OperationId) (key : RequestKey) : Prop :=
  ∃ e ∈ s.history.meanwhile id, e.turn.Closes key

/-- A request that is being handled is open exactly as long as no response was tried. It is the
invariant behind `failed_requests_answered`, and speaks of tried responses and not of accepted ones,
since the slot is closed before the transport is asked. -/
def Attentive (s : Session) : Prop :=
  ∀ task ∈ s.tasks, ∀ request opened, task.activity.Handles request opened →
    request.type.messageClass = .request ∧ (s.Undisturbed task.id request.key →
      (s.exchange.ledger.owes request.key = true ↔
        opened = true ∧ ¬ s.Tried task.id request.key))

theorem Moved.attentive (moved : s.Moved s' e) (wf : s.exchange.ledger.WellFormed)
    (orderly : s.Orderly) (attentive : s.Attentive) : s'.Attentive := by
  intro task mem request opened handles
  have before : e.before.ledger.WellFormed := by
    rw [moved.before]
    exact wf
  rcases moved.task_cases orderly mem with mine | ⟨other, apart⟩
  · obtain ⟨own, -, progress⟩ := moved.task_id mine
    have deed := moved.deed
    rw [progress] at deed
    obtain ⟨asks, owes⟩ := deed.of_handles handles before
    have none : s'.history.meanwhile task.id = [] := by
      rw [moved.history]
      exact History.meanwhile_of_own own.symm
    have untried : ¬ s'.Tried task.id request.key := by
      rintro ⟨e', mem, -⟩
      rw [none] at mem
      cases mem
    refine ⟨asks, fun _ => ?_⟩
    rw [moved.after, owes]
    exact (and_iff_left untried).symm
  · obtain ⟨asks, kept⟩ := attentive task other request opened handles
    have meanwhile : s'.history.meanwhile task.id = e :: s.history.meanwhile task.id := by
      rw [moved.history]
      exact History.meanwhile_of_other apart.symm
    refine ⟨asks, fun calm => ?_⟩
    unfold Undisturbed at calm
    rw [meanwhile, List.forall_mem_cons] at calm
    have tried : s'.Tried task.id request.key ↔
        e.turn.Closes request.key ∨ s.Tried task.id request.key := by
      unfold Tried
      rw [meanwhile]
      exact List.exists_mem_cons_iff _ _ _
    rw [moved.after, tried]
    by_cases closes : e.turn.Closes request.key
    · rw [Entry.owes_of_closes before moved.turned closes]
      simp [closes]
    · rw [Entry.owes_of_open before moved.deed calm.1 closes, moved.before, kept calm.2]
      simp [closes]

theorem Reachable.attentive {settings : Settings} (reached : Reachable settings s) :
    s.Attentive := by
  refine reached.holds ?_ ?_
  · intro task mem
    cases mem
  · intro s s' e before moved attentive
    exact moved.attentive before.accounted.wellFormed before.orderly attentive

end Session

/-! ### What comes of a failure -/

/-- What the sender of a failed request needs: one response with the code, unless the transport has
taken a response already. Whether the exchange does this depends on what it knows, which is the
ledger and not the transport. -/
structure Progress.AnswersFor (p : Progress) (request : Header) (code : ErrorCode)
    (accepted : Prop) : Prop where
  silent : accepted → p = .finished (.disposed (.delivered code))
  answers : ¬ accepted → ∃ response, request.response? code = some response ∧
    response.key = request.key ∧ response.error = code ∧
      p = .waiting (.offering ⟨⟨response, []⟩, .errorAnswer code⟩)

theorem Exchange.answersFor_requestServed (x : Exchange) {request : Header} {code : ErrorCode}
    {accepted : Prop} (asks : request.type.messageClass = .request) (failed : code.isOk = false)
    (now : Instant) :
    (x.requestServed request code now).2.AnswersFor request code accepted ↔
      (accepted ↔ x.ledger.owes request.key = false) := by
  obtain ⟨response, answer, key, error, -⟩ := Header.response?_of_request asks code
  rw [requestServed_eq, if_neg (by simp [failed])]
  cases owes : x.ledger.owes request.key with
  | true =>
      simp only [if_true, answer]
      constructor
      · intro answers
        refine ⟨fun taken => ?_, nofun⟩
        cases answers.silent taken
      · intro untaken
        exact ⟨fun taken => (nomatch untaken.mp taken),
          fun _ => ⟨response, answer, key, error, rfl⟩⟩
  | false =>
      simp only [Bool.false_eq_true, if_false]
      constructor
      · intro answers
        refine ⟨fun _ => trivial, fun _ => ?_⟩
        by_contra untaken
        obtain ⟨_, _, _, _, waiting⟩ := answers.answers untaken
        cases waiting
      · intro taken
        exact ⟨fun _ => rfl, fun untaken => absurd (taken.mpr trivial) untaken⟩

/-- What comes of requests whose handlers fail, and of responses that fail. The exchange gives the
sender what it needs exactly if the responses that were tried are those that were accepted, so it
fails in one case: a response was tried, the transport has refused it, and then the handler fails.
-/
structure Session.Answers (s : Session) : Prop where
  /-- A handler of the program has failed. -/
  called : ∀ task ∈ s.tasks, ∀ r m, task.activity = .serving ⟨r, m, .answerRequest⟩ →
    s.Undisturbed task.id m.header.key → ∀ code now, code.isOk = false →
      ∃ segment, s.exchange.proceed task.activity (.endpoint code) now = some segment ∧
        (segment.2.AnswersFor m.header code (s.Accepted task.id m.header.key) ↔
          (s.Accepted task.id m.header.key ↔ s.Tried task.id m.header.key))
  /-- The echoing endpoint has failed, since the transport refused the echo. -/
  echoing : ∀ task ∈ s.tasks, ∀ message request,
    task.activity = .offering ⟨message, .echo request⟩ →
    s.Undisturbed task.id request.key → ∀ now,
      ∃ segment, s.exchange.proceed task.activity (.transport false) now = some segment ∧
        (segment.2.AnswersFor request .unspecified (s.Accepted task.id request.key) ↔
          s.Accepted task.id request.key)
  /-- The probe fails every request at once. -/
  probed : ∀ frame r m now, Arrives s.exchange frame r m →
    m.header.type.messageClass = .request → r.endpoint = .probe →
      (s.exchange.start (.receive frame) now).2.AnswersFor m.header .unhandled False
  /-- Whatever the transport says to the exchange's own answer, no other one follows. -/
  once : ∀ message code accepted now,
    s.exchange.proceed (.offering ⟨message, .errorAnswer code⟩) (.transport accepted) now =
      some (s.exchange.finish (.disposed (.delivered code)))
  /-- Responding closes the request that it answers, and fails at once for want of a response. -/
  tried : ∀ request error payload now,
    ((∀ key, (s.exchange.start (.respond request error payload) now).1.ledger.owes key =
        s.exchange.ledger.owes key) ↔ s.exchange.ledger.owes request.key = false) ∧
      (s.exchange.start (.respond request error payload) now).2 =
        match request.response? error with
        | none => .finished (.acknowledged (.error (.unknownType request.handle request.type.code)))
        | some header => .waiting (.offering ⟨⟨header, payload⟩, .response⟩)
  /-- That the transport refuses the response changes nothing any more. -/
  refused : ∀ message now,
    s.exchange.proceed (.offering ⟨message, .response⟩) (.transport false) now =
      some (s.exchange.finish
        (.acknowledged (.error (.refused message.header.handle message.header.command))))

namespace Exchange

variable {x : Exchange} {frame : Bytes} {r : Registration} {m : Message}

/-- A request that reaches an endpoint is opened and handed over. -/
theorem start_receive_request (arrives : Arrives x frame r m)
    (asks : m.header.type.messageClass = .request) (now : Instant) :
    x.start (.receive frame) now = x.receiveRequest r m now := by
  simp [start, receive, arrives.decoded, arrives.found, arrives.role, arrives.long, asks]

theorem start_receive_probe (arrives : Arrives x frame r m)
    (asks : m.header.type.messageClass = .request) (probe : r.endpoint = .probe) (now : Instant) :
    x.start (.receive frame) now =
      { x with
        ledger := x.ledger.openIncoming m.header.handle m.header.command m.header.transaction
          now }.requestServed m.header .unhandled now := by
  have inRange : ¬ r.descriptor.commands ≤ m.header.command := UInt16.not_le.mpr arrives.command
  rw [start_receive_request arrives asks, receiveRequest, if_neg inRange]
  simp only [probe]

theorem owes_respond (wf : x.ledger.WellFormed) (request : Header) (error : ErrorCode)
    (payload : Bytes) (now : Instant) :
    (∀ key, (x.start (.respond request error payload) now).1.ledger.owes key =
      x.ledger.owes key) ↔ x.ledger.owes request.key = false := by
  have closed : (x.start (.respond request error payload) now).1.ledger =
      x.ledger.closed request.key :=
    Turn.Closes.ledger (.respond : Turn.Closes (.begins (.respond request error payload)) _) rfl
  rw [closed]
  constructor
  · intro same
    have settled := same request.key
    rw [Ledger.owes_closed wf, if_pos rfl] at settled
    exact settled.symm
  · intro settled key
    rw [Ledger.closed_of_not_owes settled]

end Exchange

/-- A handler that fails is answered for exactly if no response was tried before. That is right as
long as the transport has taken what was tried.

Every transport and every handler is covered, also one that responds for another's request. The
clauses are independent of one another: the first three are the three kinds of endpoints, and the
rest says what trying a response does. -/
theorem failed_requests_answered {settings : Settings} {s : Session}
    (reached : Session.Reachable settings s) : s.Answers where
  called := by
    intro task mem r m activity calm code now failed
    have handles : task.activity.Handles m.header true := by
      rw [activity]
      exact .called
    obtain ⟨asks, kept⟩ := reached.attentive task mem _ _ handles
    -- The exchange looks at the open request, and this tells it whether a response was tried.
    have settled : s.exchange.ledger.owes m.header.key = false ↔
        s.Tried task.id m.header.key := by
      rw [← Bool.not_eq_true, kept calm, not_and, not_not]
      exact ⟨fun tried => tried rfl, fun tried _ => tried⟩
    refine ⟨s.exchange.requestServed m.header code now, by rw [activity]; rfl, ?_⟩
    rw [Exchange.answersFor_requestServed _ asks failed, settled]
  echoing := by
    intro task mem message request activity calm now
    have handles : task.activity.Handles request false := by
      rw [activity]
      exact .echoing
    obtain ⟨asks, kept⟩ := reached.attentive task mem _ _ handles
    have settled : s.exchange.ledger.owes request.key = false := by
      rw [← Bool.not_eq_true, kept calm]
      exact fun both => Bool.false_ne_true both.1
    refine ⟨s.exchange.requestServed request .unspecified now, by rw [activity]; rfl, ?_⟩
    rw [Exchange.answersFor_requestServed _ asks rfl, settled]
    simp
  probed := by
    intro frame r m now arrives asks probe
    rw [Exchange.start_receive_probe arrives asks probe,
      Exchange.answersFor_requestServed _ asks rfl,
      Ledger.owes_openIncoming reached.accounted.wellFormed, if_pos ⟨rfl, rfl⟩]
    simp [Header.key]
  once := fun _ _ _ _ => rfl
  tried := by
    intro request error payload now
    refine ⟨Exchange.owes_respond reached.accounted.wellFormed request error payload now, ?_⟩
    show (s.exchange.offerResponse request error payload .response now).2 = _
    rw [offerResponse_eq]
    cases request.response? error with
    | none => rfl
    | some header => rfl
  refused := fun _ _ => rfl

/-- A request has come to a service, whose handler is at work. -/
theorem Session.reachable_serving (transaction : TransactionId) :
    ∃ (s : Session) (task : Task), Reachable {} s ∧ s.tasks = [task] ∧
      task.activity = .serving ⟨.single .service, ⟨⟨16, .clientRequest, transaction, .none, 0⟩, []⟩,
        .answerRequest⟩ ∧
      s.history.meanwhile task.id = [] ∧ task.id < s.started := by
  obtain ⟨s₁, reached₁, found₁, -, -, tasks₁, -⟩ := Session.reachable_single .service
  have arrives : Arrives s₁.exchange [16, 0, transaction, 0, 0, 0] (.single .service)
      ⟨⟨16, .clientRequest, transaction, .none, 0⟩, []⟩ :=
    ⟨rfl, found₁, rfl, rfl, (by decide : (0 : Command) < 1)⟩
  obtain ⟨s₂, reached₂, -, history₂, tasks₂, started₂⟩ :=
    reached₁.starts _ 0 (Exchange.start_receive_request arrives rfl 0)
  rw [tasks₁] at tasks₂
  refine ⟨s₂, _, reached₂, tasks₂, rfl, ?_, ?_⟩
  · rw [history₂]
    exact History.meanwhile_of_own rfl
  · rw [started₂]
    exact Nat.lt_succ_self _

theorem failed_requests_answered_serving :
    ∃ (s : Session) (task : Task), Session.Reachable {} s ∧ task ∈ s.tasks ∧
      s.Undisturbed task.id ⟨16, 0, 7⟩ ∧ s.Answers := by
  obtain ⟨s, task, reached, tasks, -, meanwhile, -⟩ := Session.reachable_serving 7
  refine ⟨s, task, reached, ?_, ?_, failed_requests_answered reached⟩
  · rw [tasks]
    exact List.mem_cons_self
  · intro e mem
    rw [meanwhile] at mem
    cases mem

/-- A response that the transport refuses leaves a failed request without any answer. The service
has tried to respond and failed, so it returns an error, and nothing is sent. -/
theorem refused_responses_silence :
    ¬ ∀ s, Session.Reachable {} s → ∀ task ∈ s.tasks, ∀ r m,
      task.activity = .serving ⟨r, m, .answerRequest⟩ → s.Undisturbed task.id m.header.key →
      ∀ code now segment, code.isOk = false →
        s.exchange.proceed task.activity (.endpoint code) now = some segment →
        segment.2.AnswersFor m.header code (s.Accepted task.id m.header.key) := by
  intro answered
  obtain ⟨s₁, task, reached₁, tasks₁, activity, meanwhile₁, old⟩ := Session.reachable_serving 7
  let request : Header := ⟨16, .clientRequest, 7, .none, 0⟩
  have responds : s₁.exchange.start (.respond request .none []) 0 =
      ({ s₁.exchange with ledger := s₁.exchange.ledger.closed request.key },
        .waiting (.offering ⟨⟨⟨16, .serviceResponse, 7, .none, 0⟩, []⟩, .response⟩)) :=
    offerResponse_eq s₁.exchange request .none [] .response 0
  obtain ⟨s, s₂, responder, reached₂, own, offering, -, exchange₂, history₂, tasks₂, -⟩ :=
    reached₁.startsAndResumes (.respond request .none []) 0 (.transport false) 0 responds rfl
  have under : task ∈ s₂.tasks := by
    rw [tasks₂, tasks₁]
    exact List.mem_cons_self
  have turns : ∀ e ∈ s₂.history.meanwhile task.id,
      e.turn = .goesOn responder.activity (.transport false) ∨
        e.turn = .begins (.respond request .none []) := by
    intro e mem
    have apart : s₁.started ≠ task.id := Nat.ne_of_gt old
    rw [history₂, History.meanwhile_of_other (by rw [Session.reentry, own]; exact apart),
      History.meanwhile_of_other apart, meanwhile₁] at mem
    rcases List.mem_cons.mp mem with rfl | mem
    · exact .inl rfl
    · obtain rfl := List.mem_singleton.mp mem
      exact .inr rfl
  rw [offering] at turns
  have calm : s₂.Undisturbed task.id request.key := by
    intro e mem disturbs
    rcases disturbs with restarts | ⟨frame, r, m, received, -⟩
    · rw [Entry.restarts_of_routine] at restarts
      · cases restarts
      · rcases turns e mem with turn | turn <;> rw [turn] <;> rfl
    · rcases turns e mem with turn | turn <;> rw [turn] at received <;> cases received
  have untaken : ¬ s₂.Accepted task.id request.key := by
    rintro ⟨e, mem, o, taken, -⟩
    rcases turns e mem with turn | turn <;> rw [turn] at taken <;> cases taken
  have settled : s₂.exchange.ledger.owes request.key = false := by
    rw [exchange₂]
    show (s₁.exchange.ledger.closed request.key).owes request.key = false
    rw [Ledger.owes_closed reached₁.accounted.wellFormed, if_pos rfl]
  have answers := answered s₂ reached₂ task under _ _ activity calm .busy 0
    (s₂.exchange.requestServed request .busy 0) rfl (by rw [activity]; rfl)
  rw [Exchange.answersFor_requestServed _ rfl rfl] at answers
  exact untaken (answers.mpr settled)

end HubRelay
