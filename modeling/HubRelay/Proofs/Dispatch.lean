import HubRelay.Proofs.Linked.Basic
import HubRelay.Proofs.Session.Fates
import HubRelay.Proofs.Session.Strands

/-!
Every frame meets its fate.

`Fate.Met` says what a fate means: whose handler is called, what the transport gets to see and what
changes. A handler of the program is called where a move of the frame's operation leaves it waiting
for that handler; this is how `Entry.called` counts. Only the endpoints of the exchange itself,
which answer within the move that takes the frame, are read off the end of that move.

The operation of a frame begins as its fate says, and every later move brings it nearer to its end
(`Fate.Runs`). Whatever is sent because of a frame is the response to a request, and responses are
not answered; so frames cannot call up one another without end.
-/

namespace HubRelay

/-! ### What the moves of a frame's operation add up to -/

/-- The calls of handlers in a move. A handler of the program is called where the move leaves the
operation waiting for it. An endpoint of the exchange itself has answered a frame when the move that
takes it is over. -/
def Entry.called (e : Entry) : List (Registration × Message) :=
  match e.turn, e.progress with
  | _, .waiting (.serving ⟨r, m, _⟩) => [(r, m)]
  | .begins (.receive frame), .finished (.disposed (.delivered _))
  | .begins (.receive frame), .waiting (.offering ⟨_, .echo _⟩)
  | .begins (.receive frame), .waiting (.offering ⟨_, .errorAnswer _⟩) => e.before.residents frame
  | _, _ => []

namespace History

/-- The calls of handlers, the last one first. -/
def called (h : History) : List (Registration × Message) := h.flatMap Entry.called

/-- The frames that were offered to the transport, the last one first. -/
def offers (h : History) : List Offering := h.flatMap (·.progress.offers)

end History

/-- What the transport gets to see. -/
def Fate.Offers : Fate → List Offering → Prop
  | .refused code reply, offers => offers = reply.toList.map (⟨·, .rejection code⟩)
  | .admitted _ m, offers =>
      (∀ o ∈ offers, ∃ code, m.header.response? code = some o.message.header) ∧
        (offers.filter Offering.isOwn).length ≤ 1
  | _, offers => offers = []

section Sums

variable {x : Exchange} {m : Message} {r : Registration} {frame : Bytes} {fate : Fate}
  {now : Instant} {e : Entry}

/-- An admitted frame decodes to a message that suits an endpoint. -/
theorem Exchange.Destines.suits (destined : x.Destines frame (.admitted r m)) :
    Message.decode frame = .ok m ∧ x.Suits r m := by
  cases destined with
  | message decoded deserves =>
      cases deserves with
      | admitted suits => exact ⟨decoded, suits⟩

/-- The first move of a frame makes the calls of its fate. A handler of the program is waited for
from then on. A resident has answered already. -/
theorem Fate.Begins.called (begins : fate.Begins e.before e.now (e.after, e.progress))
    (destined : e.before.Destines frame fate) (turn : e.turn = .begins (.receive frame)) :
    e.called = fate.calls := by
  obtain ⟨id, found, turn', now, x, after, p⟩ := e
  obtain rfl : turn' = .begins (.receive frame) := turn
  change fate.Begins x now (after, p) at begins
  cases begins with
  | dropped | refused | refusing | stale => rfl
  | asks | brings | notifies => rfl
  | echoes _ resident | declines _ resident | takes _ resident | notes _ resident =>
      obtain ⟨decoded, suits⟩ := destined.suits
      exact Exchange.residents_eq decoded suits.found resident

/-- The first move offers what the fate allows. -/
theorem Fate.Begins.offers {segment : Segment} (begins : fate.Begins x now segment) :
    fate.Offers segment.2.offers := by
  cases fate with
  | dropped | stale => cases begins; rfl
  | refused => cases begins <;> rfl
  | admitted r m =>
      have own := begins.leaves.own_eq
      refine ⟨begins.leaves.answers, ?_⟩
      omega

/-- A handler is called when a frame arrives and not later. -/
theorem Entry.called_of_goesOn {activity : Activity} {reply : Reply}
    (leaves : fate.Leaves e.progress) (near : e.progress.ahead < 2)
    (turn : e.turn = .goesOn activity reply) : e.called = [] := by
  unfold Entry.called
  rw [turn]
  generalize e.progress = p at leaves near
  cases leaves with
  | serving => exact absurd near (Nat.lt_irrefl 2)
  | done yields => cases yields <;> rfl
  | _ => rfl

end Sums

/-- What the moves of a frame's operation add up to that began with `b`. -/
structure Fate.Runs (fate : Fate) (b latest : Entry) (earlier : History) : Prop where
  leaves : fate.Leaves latest.progress
  brief : earlier.length + latest.progress.ahead ≤ 2
  waited : ∀ e ∈ earlier, ∃ activity, e.progress = .waiting activity
  calls : History.called (latest :: earlier) = fate.calls
  offers : fate.Offers (History.offers (latest :: earlier))
  single : ((History.offers (latest :: earlier)).filter Offering.isOwn).length +
    (latest.progress.ahead - 1) ≤ 1
  untouched : fate.isAdmitted = false → ∀ e ∈ latest :: earlier, e.after = e.before
  settled : ∀ r m, fate = .admitted r m → m.header.type.messageClass = .response →
    ∀ e ∈ latest :: earlier, e = b ∨ e.after.ledger = e.before.ledger

namespace Fate

variable {fate : Fate} {frame : Bytes} {b latest e : Entry} {earlier h : History}

/-- With the first move the operation is on its way. -/
theorem Begins.runs (begins : fate.Begins b.before b.now (b.after, b.progress))
    (destined : b.before.Destines frame fate) (turn : b.turn = .begins (.receive frame)) :
    fate.Runs b b [] where
  leaves := begins.leaves
  brief := by
    rw [List.length_nil, Nat.zero_add]
    exact b.progress.ahead_le
  waited := fun _ mem => (List.not_mem_nil mem).elim
  calls := by
    have called := begins.called destined turn
    simpa [History.called] using called
  offers := by
    have offered := begins.offers
    simpa [History.offers] using offered
  single := by
    have own : (b.progress.offers.filter Offering.isOwn).length + (b.progress.ahead - 1) =
        min 1 b.progress.ahead := begins.leaves.own_eq
    simp only [History.offers, List.flatMap_cons, List.flatMap_nil, List.append_nil, own]
    exact Nat.min_le_left ..
  untouched := by
    intro out e mem
    obtain rfl := List.mem_singleton.mp mem
    exact begins.untouched out
  settled := by
    intro r m admitted response e mem
    exact .inl (List.mem_singleton.mp mem)

/-- A further move brings it nearer to its end. It calls no other handler. -/
theorem Runs.goesOn {activity : Activity} {reply : Reply} (runs : fate.Runs b latest earlier)
    (waits : latest.progress = .waiting activity) (turn : e.turn = .goesOn activity reply)
    (turned : e.before.turn e.turn e.now = some (e.after, e.progress)) :
    fate.Runs b e (latest :: earlier) := by
  have leaves : fate.Leaves (.waiting activity) := waits ▸ runs.leaves
  rw [turn] at turned
  obtain ⟨left, shorter, untouched, settled⟩ := leaves.goesOn turned
  rw [← waits] at shorter
  -- Fewer moves are ahead than before. The exchange's own frame is offered with the last of them
  -- ahead, so it has offered none while there were two.
  have offered : History.offers (e :: latest :: earlier) =
      e.progress.offers ++ History.offers (latest :: earlier) := rfl
  have single : ((History.offers (e :: latest :: earlier)).filter Offering.isOwn).length +
      (e.progress.ahead - 1) ≤ 1 := by
    have own := left.own_eq
    have before := runs.single
    rw [offered, List.filter_append, List.length_append]
    simp only at own shorter
    omega
  constructor
  case leaves => exact left
  case brief =>
    have before := runs.brief
    simp only [List.length_cons] at shorter ⊢
    omega
  case waited =>
    rintro n (_ | ⟨_, mem⟩)
    · exact ⟨activity, waits⟩
    · exact runs.waited n mem
  case calls =>
    show e.called ++ History.called (latest :: earlier) = fate.calls
    have near : e.progress.ahead < 2 := Nat.lt_of_lt_of_le shorter latest.progress.ahead_le
    rw [Entry.called_of_goesOn left near turn, List.nil_append, runs.calls]
  case offers =>
    have before := runs.offers
    rw [offered]
    cases fate with
    | dropped | stale | refused =>
        rw [(untouched rfl).2]
        exact before
    | admitted r m =>
        refine ⟨fun o mem => ?_, Nat.le_of_add_right_le (offered ▸ single)⟩
        rcases List.mem_append.mp mem with mem | mem
        · exact left.answers o mem
        · exact before.1 o mem
  case single => exact single
  case untouched =>
    rintro out n (_ | ⟨_, mem⟩)
    · exact (untouched out).1
    · exact runs.untouched out n mem
  case settled =>
    rintro r m admitted response n (_ | ⟨_, mem⟩)
    · exact .inr (settled r m admitted response)
    · exact runs.settled r m admitted response n mem

/-- The moves of an operation form a strand, so they all follow the fate. -/
theorem runs_of_strand (strand : History.Strand b h)
    (begins : fate.Begins b.before b.now (b.after, b.progress))
    (destined : b.before.Destines frame fate) (turn : b.turn = .begins (.receive frame))
    (turned : ∀ e ∈ h, e.before.turn e.turn e.now = some (e.after, e.progress)) :
    ∃ latest earlier, h = latest :: earlier ∧ fate.Runs b latest earlier := by
  induction strand with
  | begun => exact ⟨b, [], rfl, begins.runs destined turn⟩
  | goesOn _ waits goesOn ih =>
      obtain ⟨latest, earlier, same, runs⟩ := ih fun e mem => turned e (List.mem_cons_of_mem _ mem)
      obtain ⟨rfl, rfl⟩ := List.cons.inj same
      exact ⟨_, _, rfl, runs.goesOn waits goesOn (turned _ List.mem_cons_self)⟩

end Fate

/-! ### Frames meet their fates -/

/-- The operation waits for the transport or for an endpoint, and goes on whatever the answer. -/
inductive Session.Expects (s : Session) (id : OperationId) : Prop where
  | transport {task : Task} {o : Offering} :
      task ∈ s.tasks → task.id = id → task.activity = .offering o →
      (∀ accepted now, ∃ s', s.step (.resume id (.transport accepted) now) = some s') →
      Expects s id
  | endpoint {task : Task} {serving : Serving} :
      task ∈ s.tasks → task.id = id → task.activity = .serving serving →
      (∀ code now, ∃ s', s.step (.resume id (.endpoint code) now) = some s') → Expects s id

/-- What a fate means for the frame whose operation began with the move `b`. A handler that has to
be called is called when `b` is made, in the state that `b` leaves. -/
structure Fate.Met (fate : Fate) (frame : Bytes) (s : Session) (b : Entry) : Prop where
  /-- Frames without a whole header are dropped, and no others. -/
  short : fate = .dropped ↔ frame.length < 6
  /-- The operation has reported what the fate says, or it waits for an answer and can go on
  whatever the answer is. -/
  ends : (∃ d, fate.Yields d ∧ s.history.outcomes b.operation = [.disposed d]) ∨
    s.history.outcomes b.operation = [] ∧ s.Expects b.operation
  /-- It makes three moves at most. -/
  brief : (s.history.moves b.operation).length ≤ 3
  /-- The one handler of an admitted message is called with it, once; nobody else is called. -/
  calls : (s.history.moves b.operation).called = fate.calls
  /-- Nothing is offered to the transport but answers to this frame, and only one of them by the
  exchange itself. -/
  offers : fate.Offers (s.history.moves b.operation).offers
  /-- Of the frames that are refused, those that are requests are answered, with their own header
  and the reason. -/
  replies : ∀ code reply, fate = .refused code reply → ∀ answer : Message,
    reply = some answer ↔ ∃ m, Message.decode frame = .ok m ∧
      m.header.type.messageClass = .request ∧
      m.header.response? code = some answer.header ∧ answer.payload = []
  /-- What is not admitted changes nothing. -/
  untouched : fate.isAdmitted = false →
    ∀ e ∈ s.history.moves b.operation, e.after = e.before
  /-- A response that is admitted frees its slot at once and touches no other, and later moves touch
  none. -/
  frees : ∀ r m, fate = .admitted r m → m.header.type.messageClass = .response →
    (∀ handle command, b.after.ledger.slotAt handle command =
      if m.header.handle = handle ∧ m.header.command = command then
        (b.before.ledger.slotAt handle command).finish
      else b.before.ledger.slotAt handle command) ∧
    ∀ e ∈ s.history.moves b.operation, e = b ∨ e.after.ledger = e.before.ledger

section Meeting

variable {x : Exchange} {frame : Bytes} {fate : Fate} {code : ErrorCode} {reply : Option Message}

/-- A refusal answers requests, with their own header and without payload. -/
theorem Message.refusal?_eq_some_iff {m answer : Message} :
    m.refusal? code = some answer ↔ m.header.type.messageClass = .request ∧
      m.header.response? code = some answer.header ∧ answer.payload = [] := by
  obtain ⟨header, payload⟩ := answer
  constructor
  · intro answered
    obtain ⟨response, answer, same⟩ := Option.map_eq_some_iff.mp answered
    obtain ⟨rfl, rfl⟩ := Message.mk.inj same
    exact ⟨Header.request_of_response? answer, answer, rfl⟩
  · rintro ⟨-, answer, rfl⟩
    simp [Message.refusal?, answer]

/-- The answer that a refused message gets is this refusal. -/
theorem Exchange.Deserves.refuses {m : Message} (deserves : x.Deserves m (.refused code reply)) :
    reply = m.refusal? code := by
  cases deserves with
  | unsuited | beyond => rfl

/-- A refused frame is answered exactly if it was a request. -/
theorem Exchange.Destines.replies (destined : x.Destines frame (.refused code reply))
    (answer : Message) :
    reply = some answer ↔ ∃ m, Message.decode frame = .ok m ∧
      m.header.type.messageClass = .request ∧
      m.header.response? code = some answer.header ∧ answer.payload = [] := by
  cases destined with
  | unknown long second beyond =>
      refine ⟨nofun, ?_⟩
      rintro ⟨m, decoded, -⟩
      obtain ⟨handle, unknown⟩ := Message.decode_of_unknown long second beyond
      rw [unknown] at decoded
      cases decoded
  | @message m _ decoded deserves =>
      rw [deserves.refuses, Message.refusal?_eq_some_iff]
      constructor
      · exact fun answers => ⟨m, decoded, answers⟩
      · rintro ⟨m', decoded', answers⟩
        rw [decoded] at decoded'
        obtain rfl := Except.ok.inj decoded'
        exact answers

/-- Nothing but a frame that is too short is dropped without a word. -/
theorem Exchange.Destines.short_of_dropped (destined : x.Destines frame .dropped) :
    frame.length < 6 := by
  cases destined with
  | short short => exact short
  | message _ deserves => cases deserves

end Meeting

namespace Session

variable {s : Session} {settings : Settings} {b : Entry} {frame : Bytes} {fate : Fate}
  {latest : Entry} {earlier : History}

/-- An operation that waits is one of the tasks of the session. -/
theorem Strung.expects (strung : s.Strung b) (orderly : s.Orderly)
    (moves : s.history.moves b.operation = latest :: earlier) {activity : Activity}
    (waits : latest.progress = .waiting activity) (leaves : fate.Leaves (.waiting activity)) :
    s.Expects b.operation := by
  obtain ⟨task, mem, own, rfl⟩ := strung.waits moves waits
  rw [← own]
  generalize here : task.activity = activity at leaves
  have goesOn {reply : Reply} {now : Instant}
      (proceeds : (s.exchange.proceed activity reply now).isSome = true) :
      ∃ s', s.step (.resume task.id reply now) = some s' :=
    exists_step_resume orderly mem (here ▸ proceeds)
  cases leaves with
  | refusing | echoing | answering =>
      exact .transport mem rfl here fun _ _ => goesOn rfl
  | serving => exact .endpoint mem rfl here fun _ _ => goesOn rfl

end Session

/-- What an operation returns is read off its own moves. -/
theorem History.outcomes_moves (id : OperationId) (h : History) :
    h.outcomes id = (h.moves id).flatMap (·.outcome id) := by
  induction h with
  | nil => rfl
  | cons e past ih =>
      show e.outcome id ++ History.outcomes id past = _
      by_cases own : e.operation = id
      · rw [History.moves_cons_of_eq own, List.flatMap_cons, ih]
      · rw [History.moves_cons_of_ne own, Entry.outcome, if_neg own, List.nil_append, ih]

/-- The operation has ended with what its last move left, if that move left nothing to wait for. -/
theorem History.outcomes_of_moves {latest : Entry} {earlier h : History} {id : OperationId}
    (moves : h.moves id = latest :: earlier)
    (waited : ∀ e ∈ earlier, ∃ activity, e.progress = .waiting activity) :
    h.outcomes id =
      match latest.progress with
      | .finished outcome => [outcome]
      | .waiting _ => [] := by
  have none : earlier.flatMap (·.outcome id) = [] := by
    refine List.flatMap_eq_nil_iff.mpr fun e mem => ?_
    obtain ⟨activity, waits⟩ := waited e mem
    simp [Entry.outcome, waits]
  have own : latest.operation = id :=
    (History.mem_moves.mp (moves ▸ List.mem_cons_self : latest ∈ h.moves id)).2
  rw [History.outcomes_moves, moves, List.flatMap_cons, none, List.append_nil]
  cases left : latest.progress with
  | finished | waiting => simp only [Entry.outcome, own, if_true, left]

/-- The operation of a frame is over or waits for somebody. -/
theorem Fate.Leaves.progress {fate : Fate} {p : Progress} (leaves : fate.Leaves p) :
    (∃ d, fate.Yields d ∧ p = .finished (.disposed d)) ∨ ∃ activity, p = .waiting activity := by
  cases leaves with
  | done yields => exact .inl ⟨_, yields, rfl⟩
  | _ => exact .inr ⟨_, rfl⟩

/-- Each frame of a run meets its fate. Its moves so far are put together from the first to the
last. -/
theorem Session.Reachable.meets {settings : Settings} {s : Session} {b : Entry} {frame : Bytes}
    {fate : Fate} (reached : Reachable settings s) (mem : b ∈ s.history)
    (turn : b.turn = .begins (.receive frame)) (destined : b.before.Destines frame fate)
    (alone : ∀ other, b.before.Destines frame other → other = fate) : fate.Met frame s b := by
  have wf : b.before.ledger.WellFormed := reached.of_mem
    (P := fun e => e.before.ledger.WellFormed)
    (fun before moved => moved.before ▸ before.accounted.wellFormed) mem
  have turned : ∀ e ∈ s.history, e.before.turn e.turn e.now = some (e.after, e.progress) :=
    fun e here => reached.of_mem
      (P := fun e => e.before.turn e.turn e.now = some (e.after, e.progress))
      (fun _ moved => moved.turned) here
  have begins : fate.Begins b.before b.now (b.after, b.progress) := by
    have first := turned b mem
    rw [turn] at first
    have same : b.before.receive frame b.now = (b.after, b.progress) := Option.some.inj first
    rw [← same]
    exact destined.begins wf b.now
  have strung := reached.strung mem turn
  obtain ⟨latest, earlier, moves, runs⟩ := Fate.runs_of_strand strung.strand begins destined turn
    fun e here => turned e (History.mem_moves.mp here).1
  have outcomes := History.outcomes_of_moves moves runs.waited
  -- All that is left is read off the strand of moves, which follows the fate from its first move
  -- on.
  constructor
  case short =>
    constructor
    · rintro rfl
      exact destined.short_of_dropped
    · exact fun short => (alone _ (.short short)).symm
  case ends =>
    rcases runs.leaves.progress with ⟨d, yields, ended⟩ | ⟨activity, waits⟩
    · rw [ended] at outcomes
      exact .inl ⟨d, yields, outcomes⟩
    · rw [waits] at outcomes
      exact .inr ⟨outcomes, strung.expects reached.orderly moves waits (waits ▸ runs.leaves)⟩
  case brief =>
    have brief := runs.brief
    rw [moves, List.length_cons]
    omega
  case calls => rw [moves, runs.calls]
  case offers =>
    rw [moves]
    exact runs.offers
  case replies =>
    rintro code reply rfl
    exact destined.replies
  case untouched =>
    rw [moves]
    exact runs.untouched
  case frees =>
    rintro r m rfl response
    constructor
    · intro handle command
      have freed : b.after.ledger = _ := begins.frees response
      rw [freed, Ledger.slotAt_withoutRequest wf]
    · rw [moves]
      exact runs.settled r m rfl response

/-- Whatever is sent because of a frame answers a request, and is a response. -/
theorem Exchange.Destines.answers {x : Exchange} {frame : Bytes} {fate : Fate}
    {offers : List Offering} {o : Offering} (destined : x.Destines frame fate)
    (offered : fate.Offers offers) (mem : o ∈ offers) :
    (∃ m, Message.decode frame = .ok m ∧ m.header.type.messageClass = .request) ∧
      o.message.header.type.messageClass = .response := by
  cases fate with
  | dropped | stale =>
      obtain rfl : offers = [] := offered
      cases mem
  | refused code reply =>
      obtain rfl : offers = _ := offered
      obtain ⟨answer, sent, rfl⟩ := List.mem_map.mp mem
      obtain ⟨m, decoded, request, response, -⟩ :=
        (destined.replies answer).mp (Option.mem_toList.mp sent)
      exact ⟨⟨m, decoded, request⟩, Header.response_of_response? response⟩
  | admitted r m =>
      obtain ⟨code, response⟩ := offered.1 o mem
      exact ⟨⟨m, destined.suits.1, Header.request_of_response? response⟩,
        Header.response_of_response? response⟩

/-- Every frame has exactly one fate and meets it. And there is no storm: what an exchange sends
because of a frame makes no exchange send anything when it arrives there. -/
theorem frames_meet_their_fates {settings : Settings} {s : Session} {b : Entry} {frame : Bytes}
    (reached : Session.Reachable settings s) (mem : b ∈ s.history)
    (turn : b.turn = .begins (.receive frame)) :
    (∃ fate, (∀ other, b.before.Destines frame other ↔ other = fate) ∧ fate.Met frame s b) ∧
      ∀ o ∈ (s.history.moves b.operation).offers,
        ∀ (settings' : Settings) (s' : Session) (b' : Entry),
          Session.Reachable settings' s' → b' ∈ s'.history →
            b'.turn = .begins (.receive o.frame) →
              (s'.history.moves b'.operation).offers = [] := by
  obtain ⟨fate, destined, alone⟩ := b.before.exists_destines frame
  have met := reached.meets mem turn destined alone
  constructor
  · refine ⟨fate, fun other => ⟨alone other, ?_⟩, met⟩
    rintro rfl
    exact destined
  · intro o offered settings' s' b' reached' mem' turn'
    -- What was sent is a response; only a request would be answered.
    have response := (destined.answers met.offers offered).2
    obtain ⟨fate', destined', alone'⟩ := b'.before.exists_destines o.frame
    have met' := reached'.meets mem' turn' destined' alone'
    by_contra sent
    obtain ⟨o', offered'⟩ := List.exists_mem_of_ne_nil _ sent
    obtain ⟨m, decoded, request⟩ := (destined'.answers met'.offers offered').1
    rw [Offering.frame, Message.decode_encode] at decoded
    obtain rfl := Except.ok.inj decoded
    rw [response] at request
    cases request

/-- A request for a command that the endpoint does not have. -/
theorem frames_meet_their_fates_refusing :
    ∃ (s : Session) (b : Entry), Session.Reachable {} s ∧ b ∈ s.history ∧
      b.turn = .begins (.receive [16, 0, 7, 0, 1, 0]) ∧
      (s.history.moves b.operation).offers =
        [⟨⟨⟨16, .serviceResponse, 7, .invalidCommand, 1⟩, []⟩, .rejection .invalidCommand⟩] ∧
      ∃ fate : Fate, fate.Met [16, 0, 7, 0, 1, 0] s b := by
  obtain ⟨s, reached, found, -⟩ := Session.reachable_single .service
  obtain ⟨s', reached', -, history, -⟩ := reached.starts (.receive [16, 0, 7, 0, 1, 0]) 0 rfl
  have mem : s.entry (.receive [16, 0, 7, 0, 1, 0]) 0
      (s.exchange.start (.receive [16, 0, 7, 0, 1, 0]) 0) ∈ s'.history := by
    rw [history]
    exact List.mem_cons_self
  obtain ⟨⟨fate, destined, met⟩, -⟩ := frames_meet_their_fates reached' mem rfl
  have refused : s.exchange.Destines [16, 0, 7, 0, 1, 0] (.refused .invalidCommand
      (some ⟨⟨16, .serviceResponse, 7, .invalidCommand, 1⟩, []⟩)) := by
    apply Exchange.Destines.message rfl
    exact .beyond ⟨found, rfl, .inr (Nat.zero_le _)⟩ rfl (by decide)
  obtain rfl := (destined _).mp refused
  exact ⟨s', _, reached', mem, rfl, met.offers, _, met⟩

end HubRelay
