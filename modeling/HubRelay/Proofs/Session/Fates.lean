import HubRelay.Proofs.Frames
import HubRelay.Proofs.Ledger.Received
import HubRelay.Proofs.Session.Deed

/-!
What becomes of a frame that arrives.

Every string of bytes has exactly one fate at an exchange (`Exchange.Destines`): it is dropped, it
is refused, it is a stale response, or it is admitted to the endpoint at its handle. `Fate.Begins`
lists the first segments that go with each, and `Fate.Leaves` where the operation can stand from
then on.
-/

namespace HubRelay

/-! ### Frames and messages -/

/-- A frame is too short for a header, or its second byte names no kind of message, or it carries a
message. -/
theorem Message.decode_cases (frame : Bytes) :
    frame.length < 6 ∧ Message.decode frame = .error (.truncatedHeader frame.length) ∨
      6 ≤ frame.length ∧ ((∃ handle type, frame[1]? = some type ∧ 5 < type ∧
          Message.decode frame = .error (.unknownType handle type)) ∨
        ∃ m type, frame[1]? = some type ∧ type ≤ 5 ∧ Message.decode frame = .ok m) := by
  generalize read : Message.decode frame = answer
  cases Message.decode_eq_iff.mp read with
  | short short => exact .inl ⟨short, rfl⟩
  | unknown long _ second beyond => exact .inr ⟨long, .inl ⟨_, _, second, beyond, rfl⟩⟩
  | message carried =>
      obtain ⟨long, type, second, named⟩ := carried.long
      exact .inr ⟨long, .inr ⟨_, type, second, named, rfl⟩⟩

/-- The answer to a message that is refused: the header of the response with the reason, and nothing
else. Only requests are answered. -/
def Message.refusal? (m : Message) (code : ErrorCode) : Option Message :=
  (m.header.response? code).map fun header => ⟨header, []⟩

/-- A frame of full length whose second byte names no type is told apart from a short one. -/
theorem Message.decode_of_unknown {frame : Bytes} {type : UInt8} (long : 6 ≤ frame.length)
    (second : frame[1]? = some type) (beyond : 5 < type) :
    ∃ handle, Message.decode frame = .error (.unknownType handle type) := by
  have first : frame[0]? = some frame[0] := List.getElem?_eq_getElem _
  exact ⟨frame[0], Message.decode_eq_unknown_iff.mpr ⟨long, first, second, beyond⟩⟩

/-- Only requests have a response. -/
theorem Header.response?_eq_none_iff {h : Header} {code : ErrorCode} :
    h.response? code = none ↔ h.type.messageClass ≠ .request := by
  rw [Header.response?, Option.map_eq_none_iff, ← Option.not_isSome_iff_eq_none,
    MessageType.response?_isSome, beq_iff_eq]

/-- What has a response is a request. -/
theorem Header.request_of_response? {h later : Header} {code : ErrorCode}
    (answered : h.response? code = some later) : h.type.messageClass = .request := by
  by_contra other
  rw [Header.response?_eq_none_iff.mpr other] at answered
  cases answered

/-- What answers a request is a response. -/
theorem Header.response_of_response? {h later : Header} {code : ErrorCode}
    (answered : h.response? code = some later) : later.type.messageClass = .response := by
  obtain ⟨response, answer, -, -, kind⟩ :=
    Header.response?_of_request (Header.request_of_response? answered) code
  rw [answered] at answer
  obtain rfl := Option.some.inj answer
  exact kind

/-! ### Fates -/

/-- An endpoint stands at the message's handle, has the role that the kind of message asks for, and
the payload is long enough for it; a response that reports an error needs none. These are the checks
that all classes of messages have in common. -/
structure Exchange.Suits (x : Exchange) (r : Registration) (m : Message) : Prop where
  found : x.directory.find? m.header.handle = some r
  role : r.descriptor.role = m.header.type.receiver
  long : m.header.type.messageClass = .response ∧ m.header.error ≠ .none ∨
    r.descriptor.minPayload ≤ m.payload.length

/-- What can become of a frame: it is dropped for being too short, refused with an error, found to
be a stale response, or admitted to an endpoint. -/
inductive Fate where
  | dropped
  | refused (code : ErrorCode) (reply : Option Message)
  | stale
  | admitted (r : Registration) (m : Message)

/-- The fate of a message. -/
inductive Exchange.Deserves (x : Exchange) (m : Message) : Fate → Prop where
  | unsuited : (∀ r, ¬ x.Suits r m) → Deserves x m (.refused .invalidArg (m.refusal? .invalidArg))
  | beyond {r : Registration} :
      x.Suits r m → m.header.type.messageClass = .request →
      r.descriptor.commands ≤ m.header.command →
      Deserves x m (.refused .invalidCommand (m.refusal? .invalidCommand))
  | stale {r : Registration} :
      x.Suits r m → m.header.type.messageClass = .response →
      ¬ (m.header.command < r.descriptor.commands ∧ x.ledger.awaits m.header.key = true) →
      Deserves x m .stale
  | admitted {r : Registration} :
      x.Suits r m →
      (m.header.type.messageClass = .request → m.header.command < r.descriptor.commands) →
      (m.header.type.messageClass = .response →
        m.header.command < r.descriptor.commands ∧ x.ledger.awaits m.header.key = true) →
      Deserves x m (.admitted r m)

/-- The fate of a frame. -/
inductive Exchange.Destines (x : Exchange) (frame : Bytes) : Fate → Prop where
  | short : frame.length < 6 → Destines x frame .dropped
  | unknown {type : UInt8} :
      6 ≤ frame.length → frame[1]? = some type → 5 < type →
      Destines x frame (.refused .invalidCommand none)
  | message {m : Message} {fate : Fate} :
      Message.decode frame = .ok m → x.Deserves m fate → Destines x frame fate

section Fates

variable {x : Exchange} {m : Message} {r : Registration} {frame : Bytes} {fate other : Fate}

/-- The endpoint that a message suits is the one under its handle, so there is no other. -/
theorem Exchange.Suits.unique {r' : Registration} (suits : x.Suits r m) (suits' : x.Suits r' m) :
    r' = r := by
  have found := suits.found
  rw [suits'.found] at found
  exact Option.some.inj found

/-- The fates exclude one another. The condition of each contradicts those of the rest. -/
theorem Exchange.Deserves.unique (deserves : x.Deserves m fate) (deserves' : x.Deserves m other) :
    other = fate := by
  cases deserves with
  | unsuited none =>
      cases deserves' with
      | unsuited => rfl
      | beyond suits | stale suits | admitted suits => exact absurd suits (none _)
  | beyond suits request beyond =>
      cases deserves' with
      | unsuited none => exact absurd suits (none _)
      | beyond => rfl
      | stale _ response =>
          rw [request] at response
          cases response
      | admitted suits' within =>
          obtain rfl := suits.unique suits'
          exact absurd (within request) (UInt16.not_lt.mpr beyond)
  | stale suits response none =>
      cases deserves' with
      | unsuited none => exact absurd suits (none _)
      | beyond _ request =>
          rw [request] at response
          cases response
      | stale => rfl
      | admitted suits' _ awaited =>
          obtain rfl := suits.unique suits'
          exact absurd (awaited response) none
  | admitted suits within awaited =>
      cases deserves' with
      | unsuited none => exact absurd suits (none _)
      | beyond suits' request beyond =>
          obtain rfl := suits.unique suits'
          exact absurd (within request) (UInt16.not_lt.mpr beyond)
      | stale suits' response none =>
          obtain rfl := suits.unique suits'
          exact absurd (awaited response) none
      | admitted suits' =>
          obtain rfl := suits.unique suits'
          rfl

/-- Every message has a fate. -/
theorem Exchange.exists_deserves (x : Exchange) (m : Message) : ∃ fate, x.Deserves m fate := by
  by_cases suited : ∃ r, x.Suits r m
  · obtain ⟨r, suits⟩ := suited
    cases kind : m.header.type.messageClass with
    | request =>
        by_cases beyond : r.descriptor.commands ≤ m.header.command
        · exact ⟨_, .beyond suits kind beyond⟩
        · refine ⟨_, .admitted suits (fun _ => UInt16.not_le.mp beyond) ?_⟩
          rw [kind]
          exact nofun
    | response =>
        by_cases awaited : m.header.command < r.descriptor.commands ∧
            x.ledger.awaits m.header.key = true
        · refine ⟨_, .admitted suits ?_ fun _ => awaited⟩
          rw [kind]
          exact nofun
        · exact ⟨_, .stale suits kind awaited⟩
    | notification =>
        refine ⟨_, .admitted suits ?_ ?_⟩
        · rw [kind]
          exact nofun
        · rw [kind]
          exact nofun
  · exact ⟨_, .unsuited (not_exists.mp suited)⟩

/-- A frame has exactly one fate. -/
theorem Exchange.exists_destines (x : Exchange) (frame : Bytes) :
    ∃ fate, x.Destines frame fate ∧ ∀ other, x.Destines frame other → other = fate := by
  rcases Message.decode_cases frame with ⟨short, decoded⟩ |
    ⟨long, ⟨handle, type, second, beyond, decoded⟩ | ⟨m, type, second, named, decoded⟩⟩
  · refine ⟨_, .short short, fun other destined => ?_⟩
    cases destined with
    | short => rfl
    | unknown long => exact absurd short (Nat.not_lt.mpr long)
    | message decoded' =>
        rw [decoded] at decoded'
        cases decoded'
  · refine ⟨_, .unknown long second beyond, fun other destined => ?_⟩
    cases destined with
    | short short => exact absurd short (Nat.not_lt.mpr long)
    | unknown => rfl
    | message decoded' =>
        rw [decoded] at decoded'
        cases decoded'
  · obtain ⟨fate, deserves⟩ := x.exists_deserves m
    refine ⟨fate, .message decoded deserves, fun other destined => ?_⟩
    cases destined with
    | short short => exact absurd short (Nat.not_lt.mpr long)
    | unknown _ second' beyond =>
        rw [second] at second'
        obtain rfl := Option.some.inj second'
        exact absurd beyond (UInt8.not_lt.mpr named)
    | message decoded' deserves' =>
        rw [decoded] at decoded'
        obtain rfl := Except.ok.inj decoded'
        exact deserves.unique deserves'

end Fates

/-! ### What a fate means -/

/-- What the operation of a frame reports. -/
inductive Fate.Yields : Fate → Disposition → Prop where
  | dropped : Yields .dropped .dropped
  | refused {code : ErrorCode} {reply : Option Message} :
      Yields (.refused code reply) (.rejected code reply)
  | stale : Yields .stale .stale
  | admitted {r : Registration} {m : Message} {code : ErrorCode} :
      Yields (.admitted r m) (.delivered code)

/-- The handlers that are called. -/
def Fate.calls : Fate → List (Registration × Message)
  | .admitted r m => [(r, m)]
  | _ => []

def Fate.isAdmitted : Fate → Bool
  | .admitted .. => true
  | _ => false

/-- What follows when the endpoint has answered. -/
def Message.sequel (m : Message) : Sequel :=
  match m.header.type.messageClass with
  | .request => .answerRequest
  | .response => .wakeCaller
  | .notification => .nothing

/-- The first segment of a frame's operation. It leaves the operation waiting for an endpoint of the
program, if that is whom the frame is admitted to; the endpoints of the exchange itself answer
within it. A response or a notification to one of these is over at once, and so is a request to the
probe but for the answer that it offers. -/
inductive Fate.Begins (x : Exchange) (now : Instant) : Fate → Segment → Prop where
  | dropped : Begins x now .dropped (x, .finished (.disposed .dropped))
  | refused {code : ErrorCode} :
      Begins x now (.refused code none) (x, .finished (.disposed (.rejected code none)))
  | refusing {code : ErrorCode} {reply : Message} :
      Begins x now (.refused code (some reply))
        (x, .waiting (.offering ⟨reply, .rejection code⟩))
  | stale : Begins x now .stale (x, .finished (.disposed .stale))
  | asks {r : Registration} {m : Message} :
      m.header.type.messageClass = .request → r.endpoint.isResident = false →
      Begins x now (.admitted r m)
        ({ x with
            ledger := x.ledger.openIncoming m.header.handle m.header.command
              m.header.transaction now }, .waiting (.serving ⟨r, m, .answerRequest⟩))
  | echoes {r : Registration} {m : Message} {response : Header} :
      m.header.type.messageClass = .request → r.endpoint.isResident = true →
      m.header.response? .none = some response →
      Begins x now (.admitted r m)
        ({ x with
            ledger := (x.ledger.openIncoming m.header.handle m.header.command
              m.header.transaction now).closed m.header.key },
          .waiting (.offering ⟨⟨response, m.payload⟩, .echo m.header⟩))
  | declines {r : Registration} {m : Message} {code : ErrorCode} {response : Header} :
      m.header.type.messageClass = .request → r.endpoint.isResident = true →
      m.header.response? code = some response →
      Begins x now (.admitted r m)
        ({ x with
            ledger := (x.ledger.openIncoming m.header.handle m.header.command
              m.header.transaction now).closed m.header.key },
          .waiting (.offering ⟨⟨response, []⟩, .errorAnswer code⟩))
  | brings {r : Registration} {m : Message} :
      m.header.type.messageClass = .response → r.endpoint.isResident = false →
      Begins x now (.admitted r m)
        ({ x with ledger := x.ledger.withoutRequest m.header.handle m.header.command },
          .waiting (.serving ⟨r, m, .wakeCaller⟩))
  | takes {r : Registration} {m : Message} {code : ErrorCode} :
      m.header.type.messageClass = .response → r.endpoint.isResident = true →
      Begins x now (.admitted r m)
        ({ x with
            ledger := x.ledger.withoutRequest m.header.handle m.header.command
            awaited := x.awaited.post m }, .finished (.disposed (.delivered code)))
  | notifies {r : Registration} {m : Message} :
      m.header.type.messageClass = .notification → r.endpoint.isResident = false →
      Begins x now (.admitted r m) (x, .waiting (.serving ⟨r, m, .nothing⟩))
  | notes {r : Registration} {m : Message} {code : ErrorCode} :
      m.header.type.messageClass = .notification → r.endpoint.isResident = true →
      Begins x now (.admitted r m) (x, .finished (.disposed (.delivered code)))

/-- Where a frame's operation can stand. -/
inductive Fate.Leaves : Fate → Progress → Prop where
  | done {fate : Fate} {d : Disposition} : fate.Yields d → Leaves fate (.finished (.disposed d))
  | refusing {code : ErrorCode} {reply : Message} :
      Leaves (.refused code (some reply)) (.waiting (.offering ⟨reply, .rejection code⟩))
  | serving {r : Registration} {m : Message} {sequel : Sequel} :
      m.sequel = sequel → Leaves (.admitted r m) (.waiting (.serving ⟨r, m, sequel⟩))
  | echoing {r : Registration} {m : Message} {response : Header} :
      m.header.response? .none = some response →
      Leaves (.admitted r m)
        (.waiting (.offering ⟨⟨response, m.payload⟩, .echo m.header⟩))
  | answering {r : Registration} {m : Message} {code : ErrorCode} {response : Header} :
      m.header.response? code = some response →
      Leaves (.admitted r m) (.waiting (.offering ⟨⟨response, []⟩, .errorAnswer code⟩))

/-- The frames that are with the transport. -/
def Progress.offers : Progress → List Offering
  | .waiting (.offering o) => [o]
  | _ => []

/-- How many more moves an operation makes at most that stands there because of a frame. It goes
down with each of them, so no frame keeps an operation going. -/
def Progress.ahead : Progress → Nat
  | .finished _ => 0
  | .waiting (.offering ⟨_, .echo _⟩) => 2
  | .waiting (.offering _) => 1
  | .waiting _ => 2

/-- No operation of a frame has more than two answers ahead of it, that of the handler and that of
the transport. -/
theorem Progress.ahead_le (p : Progress) : p.ahead ≤ 2 := by
  unfold Progress.ahead
  split <;> decide

/-- Whether the exchange sends it of its own accord: an echo is the answer of an endpoint. -/
def Offering.isOwn (o : Offering) : Bool :=
  match o.purpose with
  | .echo _ => false
  | _ => true

/-! ### The first segment -/

/-- Responses that report an error may be shorter than the endpoint demands. -/
theorem longEnough_iff {r : Registration} {m : Message} :
    Exchange.longEnough r m = true ↔
      m.header.type.messageClass = .response ∧ m.header.error ≠ .none ∨
        r.descriptor.minPayload ≤ m.payload.length := by
  simp [Exchange.longEnough, ErrorCode.isOk]

section First

variable {x : Exchange} {m : Message} {r : Registration} {frame : Bytes} {fate : Fate}

/-- A frame that suits an endpoint is handled by its class. -/
theorem Exchange.Suits.receive (suits : x.Suits r m) (decoded : Message.decode frame = .ok m)
    (now : Instant) :
    x.receive frame now =
      match m.header.type.messageClass with
      | .request => x.receiveRequest r m now
      | .response => x.receiveResponse r m now
      | .notification => x.receiveNotification r m := by
  cases kind : m.header.type.messageClass with
  | request | response | notification =>
      simp only [Exchange.receive, decoded, suits.found, suits.role, longEnough_iff.mpr suits.long,
        kind, ne_eq, not_true_eq_false, Bool.not_true, Bool.false_eq_true, if_false]

/-- A message that suits nobody is rejected. -/
theorem Exchange.receive_of_unsuited (none : ∀ r, ¬ x.Suits r m)
    (decoded : Message.decode frame = .ok m) (now : Instant) :
    x.receive frame now = x.reject m.header .invalidArg := by
  simp only [Exchange.receive, decoded]
  cases found : x.directory.find? m.header.handle with
  | none => rfl
  | some r =>
      by_cases role : r.descriptor.role = m.header.type.receiver
      · have short : Exchange.longEnough r m = false :=
          Bool.eq_false_iff.mpr fun long => none r ⟨found, role, longEnough_iff.mp long⟩
        simp [role, short]
      · simp [role]

/-- A rejection has done all that the fate of a refused frame says, once its answer has been
offered. -/
theorem begins_reject (x : Exchange) (now : Instant) (m : Message) (code : ErrorCode) :
    Fate.Begins x now (.refused code (m.refusal? code)) (x.reject m.header code) := by
  unfold Exchange.reject Message.refusal?
  cases m.header.response? code with
  | none => exact .refused
  | some response => exact .refusing

/-- A request that suits an endpoint is opened before the handler sees it. -/
theorem begins_receiveRequest (wf : x.ledger.WellFormed)
    (request : m.header.type.messageClass = .request)
    (within : m.header.command < r.descriptor.commands) (now : Instant) :
    Fate.Begins x now (.admitted r m) (x.receiveRequest r m now) := by
  have inRange : ¬ r.descriptor.commands ≤ m.header.command := UInt16.not_le.mpr within
  simp only [Exchange.receiveRequest, inRange, if_false]
  cases endpoint : r.endpoint with
  | custom number => exact .asks request (congrArg Endpoint.isResident endpoint)
  | echo =>
      obtain ⟨response, answer, -⟩ := Header.response?_of_request request .none
      simp only [offerResponse_eq, answer]
      exact .echoes request (congrArg Endpoint.isResident endpoint) answer
  | probe =>
      obtain ⟨response, answer, -⟩ := Header.response?_of_request request .unhandled
      have owed : (x.ledger.openIncoming m.header.handle m.header.command m.header.transaction
          now).owes m.header.key = true := by
        rw [Ledger.owes_openIncoming wf, if_pos ⟨rfl, rfl⟩]
        exact beq_self_eq_true _
      simp only [requestServed_eq, owed, answer, if_true]
      exact .declines request (congrArg Endpoint.isResident endpoint) answer

/-- A response that is awaited reaches the handler of its endpoint. -/
theorem begins_receiveResponse (response : m.header.type.messageClass = .response)
    (within : m.header.command < r.descriptor.commands)
    (awaited : x.ledger.awaits m.header.key = true) (now : Instant) :
    Fate.Begins x now (.admitted r m) (x.receiveResponse r m now) := by
  have inRange : ¬ r.descriptor.commands ≤ m.header.command := UInt16.not_le.mpr within
  have completed := Ledger.complete_of_awaits awaited now
  simp only [Header.key] at completed
  simp only [Exchange.receiveResponse, inRange, if_false, completed]
  cases standing : r.endpoint.standing? m.header.type with
  | none => exact .brings response (Endpoint.standing?_eq_none_iff.mp standing)
  | some code => exact .takes response (Endpoint.isResident_of_standing? standing)

/-- A response that nobody awaits is dropped without a word. -/
theorem receiveResponse_stale
    (none : ¬ (m.header.command < r.descriptor.commands ∧ x.ledger.awaits m.header.key = true))
    (now : Instant) : x.receiveResponse r m now = x.finish (.disposed .stale) := by
  unfold Exchange.receiveResponse
  by_cases beyond : r.descriptor.commands ≤ m.header.command
  · exact if_pos beyond
  · have unknown : x.ledger.awaits m.header.key = false :=
      Bool.eq_false_iff.mpr fun awaited => none ⟨UInt16.not_le.mp beyond, awaited⟩
    rw [if_neg beyond]
    obtain ⟨correlation, unmatched, completed⟩ := Ledger.complete_of_not_awaits unknown now
    simp only [Header.key] at completed
    simp only [completed]
    cases correlation with
    | matched latency => exact absurd rfl (unmatched latency)
    | mismatch | notPending => rfl

/-- A notification is given to the handler, whatever the ledger says. -/
theorem begins_receiveNotification (notification : m.header.type.messageClass = .notification)
    (now : Instant) : Fate.Begins x now (.admitted r m) (x.receiveNotification r m) := by
  unfold Exchange.receiveNotification
  cases standing : r.endpoint.standing? m.header.type with
  | none => exact .notifies notification (Endpoint.standing?_eq_none_iff.mp standing)
  | some code => exact .notes notification (Endpoint.isResident_of_standing? standing)

/-- The exchange begins with a frame as its fate says. There is one case for each fate. -/
theorem Exchange.Deserves.begins (deserves : x.Deserves m fate) (wf : x.ledger.WellFormed)
    (decoded : Message.decode frame = .ok m) (now : Instant) :
    fate.Begins x now (x.receive frame now) := by
  cases deserves with
  | unsuited none =>
      rw [Exchange.receive_of_unsuited none decoded]
      exact begins_reject x now m .invalidArg
  | beyond suits request beyond =>
      rw [suits.receive decoded, request]
      simp only [Exchange.receiveRequest, beyond, if_true]
      exact begins_reject x now m .invalidCommand
  | stale suits response none =>
      rw [suits.receive decoded, response]
      simp only [receiveResponse_stale none]
      exact .stale
  | admitted suits within awaited =>
      rw [suits.receive decoded]
      cases kind : m.header.type.messageClass with
      | request => exact begins_receiveRequest wf kind (within kind) now
      | response => exact begins_receiveResponse kind (awaited kind).1 (awaited kind).2 now
      | notification => exact begins_receiveNotification kind now

/-- A frame's operation begins as its fate says. -/
theorem Exchange.Destines.begins (destined : x.Destines frame fate) (wf : x.ledger.WellFormed)
    (now : Instant) : fate.Begins x now (x.receive frame now) := by
  cases destined with
  | short short =>
      simp only [Exchange.receive, Message.decode_eq_truncated_iff.mpr ⟨short, rfl⟩]
      exact .dropped
  | unknown long second beyond =>
      obtain ⟨handle, decoded⟩ := Message.decode_of_unknown long second beyond
      simp only [Exchange.receive, decoded]
      exact .refused
  | message decoded deserves => exact deserves.begins wf decoded now

namespace Fate

variable {now : Instant} {segment : Segment}

/-- What the first move leaves to be done is what the fate allows. -/
theorem Begins.leaves (begins : fate.Begins x now segment) : fate.Leaves segment.2 := by
  cases begins with
  | dropped => exact .done .dropped
  | refused => exact .done .refused
  | refusing => exact .refusing
  | stale => exact .done .stale
  | asks kind | brings kind | notifies kind => exact .serving (by rw [Message.sequel, kind])
  | echoes _ _ answer => exact .echoing answer
  | declines _ _ answer => exact .answering answer
  | takes | notes => exact .done .admitted

/-- A frame that is not admitted changes nothing. -/
theorem Begins.untouched (begins : fate.Begins x now segment) (out : fate.isAdmitted = false) :
    segment.1 = x := by
  cases begins with
  | dropped | refused | refusing | stale => rfl
  | _ => cases out

/-- A response frees its slot before anything else happens. -/
theorem Begins.frees (begins : (admitted r m).Begins x now segment)
    (response : m.header.type.messageClass = .response) :
    segment.1.ledger = x.ledger.withoutRequest m.header.handle m.header.command := by
  cases begins with
  | brings | takes => rfl
  | asks other | echoes other | declines other | notifies other | notes other =>
      rw [response] at other
      cases other

end Fate

end First

/-! ### Going on -/

/-- What a frame's operation does when the transport or an endpoint has answered. It gets nearer to
its end, calls no handler, and offers at most the one answer of the exchange itself. -/
structure Fate.GoesOn (fate : Fate) (x : Exchange) (activity : Activity) (segment : Segment) :
    Prop where
  leaves : fate.Leaves segment.2
  shorter : segment.2.ahead < (Progress.waiting activity).ahead
  untouched : fate.isAdmitted = false → segment.1 = x ∧ segment.2.offers = []
  settled : ∀ r m, fate = .admitted r m → m.header.type.messageClass = .response →
    segment.1.ledger = x.ledger

section Later

variable {x : Exchange} {m : Message} {r : Registration} {fate : Fate} {activity : Activity}
  {reply : Reply} {now : Instant} {segment : Segment}

/-- When the handler of a request returns, at most one answer is still to be offered. -/
theorem goesOn_requestServed (request : m.header.type.messageClass = .request) (x : Exchange)
    (r : Registration) (code : ErrorCode) (now : Instant)
    (far : (Progress.waiting activity).ahead = 2) :
    (Fate.admitted r m).GoesOn x activity (x.requestServed m.header code now) := by
  have settled : ∀ r' m', Fate.admitted r m = .admitted r' m' →
      m'.header.type.messageClass = .response →
      (x.requestServed m.header code now).1.ledger = x.ledger := by
    rintro r' m' ⟨⟩ response
    rw [request] at response
    cases response
  obtain ⟨response, answer, -⟩ := Header.response?_of_request request code
  rw [requestServed_eq, answer] at settled ⊢
  by_cases ok : code.isOk = true
  · rw [if_pos ok] at settled ⊢
    exact ⟨.done .admitted, by rw [far]; exact Nat.two_pos, nofun, settled⟩
  · rw [if_neg ok] at settled ⊢
    by_cases owed : x.ledger.owes m.header.key = true
    · simp only [owed, if_true] at settled ⊢
      exact ⟨.answering answer, by rw [far]; exact Nat.one_lt_two, nofun, settled⟩
    · simp only [owed] at settled ⊢
      exact ⟨.done .admitted, by rw [far]; exact Nat.two_pos, nofun, settled⟩

/-- Whatever the reply, the operation of a frame goes on as its fate allows. -/
theorem Fate.Leaves.goesOn (leaves : fate.Leaves (.waiting activity))
    (proceeded : x.proceed activity reply now = some segment) : fate.GoesOn x activity segment := by
  cases leaves with
  | refusing =>
      cases reply with
      | transport accepted =>
          obtain rfl := Option.some.inj proceeded
          refine ⟨.done .refused, Nat.one_pos, fun _ => ⟨rfl, rfl⟩, fun _ _ other => ?_⟩
          cases other
      | _ => cases proceeded
  | @serving r m _ sequel =>
      cases reply with
      | endpoint code =>
          obtain rfl := Option.some.inj proceeded
          subst sequel
          unfold Exchange.served Message.sequel
          cases kind : m.header.type.messageClass with
          | request => exact goesOn_requestServed kind x r code now rfl
          | response => exact ⟨.done .admitted, Nat.two_pos, nofun, fun _ _ _ _ => rfl⟩
          | notification => exact ⟨.done .admitted, Nat.two_pos, nofun, fun _ _ _ _ => rfl⟩
      | _ => cases proceeded
  | @echoing r m response answer =>
      cases reply with
      | transport accepted =>
          obtain rfl := Option.some.inj proceeded
          exact goesOn_requestServed (Header.request_of_response? answer) x r _ now rfl
      | _ => cases proceeded
  | answering =>
      cases reply with
      | transport accepted =>
          obtain rfl := Option.some.inj proceeded
          exact ⟨.done .admitted, Nat.one_pos, nofun, fun _ _ _ _ => rfl⟩
      | _ => cases proceeded

variable {p : Progress}

/-- While two moves are ahead, the exchange has sent nothing of its own. -/
theorem Fate.Leaves.own_eq (leaves : fate.Leaves p) :
    (p.offers.filter Offering.isOwn).length + (p.ahead - 1) = min 1 p.ahead := by
  cases leaves <;> rfl

/-- Each frame offered because of a request is a response to it. -/
theorem Fate.Leaves.answers (leaves : (Fate.admitted r m).Leaves p) :
    ∀ o ∈ p.offers, ∃ code, m.header.response? code = some o.message.header := by
  intro o mem
  cases leaves with
  | done | serving => cases mem
  | echoing answer | answering answer =>
      obtain rfl := List.mem_singleton.mp mem
      exact ⟨_, answer⟩

end Later

end HubRelay
