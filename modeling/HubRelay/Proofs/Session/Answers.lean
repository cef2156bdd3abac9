import HubRelay.Proofs.Session.Requests

/-!
The endpoints that are told how their requests ended.

A frame that brings the response and a scan that finds requests overdue end requests of which the
endpoints are then told. At every moment the requests that an operation ended in this way are those
it has got to and those that it still has before it; no request is among them twice.
-/

namespace HubRelay

/-- Whether the endpoint is told of requests that end like this. -/
def Ending.isTold : Ending → Bool
  | .matched | .lapsed => true
  | _ => false

/-- An operation that goes on has not been told anything yet. -/
theorem Turn.not_told_of_goesOn (activity : Activity) (reply : Reply) :
    (Turn.goesOn activity reply).ending.isTold = false := by
  unfold Turn.ending
  split <;> first | rfl | contradiction

/-- A turn in which endpoints may be told of ended requests. -/
def Turn.mayTell : Turn → Bool
  | .begins (.receive _) | .begins (.scan _)
  | .goesOn (.serving ⟨_, _, .nextLapsed _ _⟩) _ => true
  | _ => false

namespace Entry

/-- The ended requests that a move has before it. -/
def due (e : Entry) : List RequestKey :=
  match e.turn with
  | .begins _ => if e.turn.ending.isTold then e.ended else []
  | .goesOn activity _ => activity.lapsed.map Lapsed.key

/-- The ended requests that a move leaves for the next one. -/
def left (e : Entry) : List RequestKey :=
  match e.progress with
  | .finished _ => []
  | .waiting activity => activity.lapsed.map Lapsed.key

end Entry

namespace History

/-- The requests that an operation ended so that their endpoints are told. -/
def told (agent : OperationId) (h : History) : List RequestKey :=
  (h.ended.filter fun e => e.agent == agent && e.ending.isTold).map Ended.key

end History

namespace Session

/-- The ended requests that an operation still has before it. -/
def due (s : Session) (agent : OperationId) : List RequestKey :=
  (s.tasks.filter (·.id == agent)).flatMap fun task => task.activity.lapsed.map Lapsed.key

end Session

/-! ### One move -/

namespace Entry

variable {e : Entry}

/-- Plain progress leaves no request over that would still have to be told. -/
theorem left_of_plain (plain : e.progress.Plain) : e.left = [] := by
  unfold left
  generalize e.progress = p at plain
  cases plain <;> rfl

/-- Only a scan has lapsed requests before it. -/
theorem lapsed_of_silent (silent : e.turn.mayTell = false) : e.lapsed = [] := by
  unfold lapsed
  generalize e.turn = turn at silent
  cases turn with
  | begins operation => cases operation <;> first | rfl | cases silent
  | goesOn activity reply =>
      cases activity with
      | serving serving =>
          obtain ⟨r, m, sequel⟩ := serving
          cases sequel <;> first | rfl | cases silent
      | _ => rfl

/-- A move that finds nothing lapsed visits nobody. -/
theorem visits_of_none (none : e.lapsed = []) : e.visits = [] := by
  rw [visits, none, List.take_nil, List.map_nil]

/-- What a scan goes past at once has been told. -/
theorem told?_of_passes {l : Lapsed} (passes : e.before.directory.passes l = true) :
    e.told? l = e.before.directory.find? l.handle := by
  unfold told?
  cases found : e.before.directory.find? l.handle with
  | none => rfl
  | some r =>
      rw [Directory.passes_of_find? found] at passes
      rw [Option.filter_some, passes]
      rfl

/-- The endpoint at which a scan waits has been told. -/
theorem told?_of_called {l : Lapsed} {r : Registration}
    (found : e.before.directory.find? l.handle = some r)
    (called : e.progress.told? = some (r, r.timeoutMessage l)) : e.told? l = some r := by
  rw [told?, found, Option.filter_some, called]
  simp

/-- A scan gets to the requests before it up to the first endpoint that it has to call, and tells
everyone whom it gets to. -/
theorem visits_eq {count : Nat} (tells : e.progress.Tells e.before.directory count e.lapsed) :
    e.visits = e.before.directory.visits e.lapsed := by
  have passed {front : List Lapsed} (all : ∀ l ∈ front, e.before.directory.passes l = true) :
      front.map (fun l => (l, e.told? l)) =
        front.map fun l => (l, e.before.directory.find? l.handle) :=
    List.map_congr_left fun l mem => congrArg (l, ·) (told?_of_passes (all l mem))
  unfold visits
  generalize left : e.progress = p at tells
  cases tells with
  | done all => rw [Directory.visits_of_passes all, ← passed all]; simp [Progress.lapsed]
  | @next front rest l r split all found custom =>
      have called := told?_of_called found (congrArg Progress.told? left)
      have reached : e.lapsed.take (e.lapsed.length - rest.length) = front ++ [l] := by
        rw [split, List.append_cons, List.length_append, Nat.add_sub_cancel]
        exact List.take_left
      rw [split, Directory.visits_append all, Directory.visits_of_called found custom, ← split]
      show (e.lapsed.take (e.lapsed.length - rest.length)).map _ = _
      rw [reached, List.map_append, passed all, List.map_singleton, called]

/-- Removing an endpoint and a reset are the only moves that tell without a call. -/
theorem not_mayTell_of_routine (routine : e.turn.routine = true) : e.turn.mayTell = false := by
  generalize e.turn = turn at routine
  unfold Turn.mayTell
  split <;> first | cases routine | rfl

/-- Moves that leave the exchange alone find nothing lapsed. -/
theorem lapsed_of_idle (idle : e.turn.Idle e.progress) : e.lapsed = [] := by
  cases silent : e.turn.mayTell with
  | false => exact lapsed_of_silent silent
  | true =>
      unfold Turn.mayTell at silent
      unfold lapsed
      split at silent
      · next turn => rw [turn]
      · next turn => exact absurd turn (idle.noScan _)
      · next turn => exact absurd turn (idle.noLapse _ _ _ _ _)
      · cases silent

/-- Whatever a move is, it tells those whom a scan has to tell. -/
theorem visits_of_deed (deed : Deed e.before e.now e.turn (e.after, e.progress)) :
    e.visits = e.before.directory.visits e.lapsed := by
  have quiet (none : e.lapsed = []) : e.visits = e.before.directory.visits e.lapsed := by
    rw [visits_of_none none, none]
    rfl
  have routine (routine : e.turn.routine = true) := quiet (lapsed_of_silent
    (not_mayTell_of_routine routine))
  obtain ⟨operation, found, turn, now, before, after, progress⟩ := e
  simp only at deed
  cases deed with
  | scanned tells | told tells => exact visits_eq tells
  | idle idle => exact quiet (lapsed_of_idle idle)
  | slotWait places | sent places | sentAwaiting places => exact routine places.routine
  | waits waiting | mailed waiting | overdue waiting | gaveUp waiting =>
      exact routine waiting.routine
  | closed closes => exact routine closes.routine
  | _ => exact quiet rfl

/-- Only a frame or a scan gets to requests that have ended. -/
theorem reached_of_silent (silent : e.turn.mayTell = false) : e.reached = [] := by
  have undelivered : e.delivery = [] := by
    unfold delivery
    generalize e.turn = turn at silent
    cases turn with
    | begins operation => cases operation <;> first | rfl | cases silent
    | goesOn activity reply => rfl
  rw [reached, undelivered, visits_of_none (lapsed_of_silent silent)]
  rfl

/-- A move that tells nobody by its answer has its dues met by calls, or leaves them to the moves to
come. -/
theorem due_eq_of_silent (silent : e.turn.mayTell = false) (left : e.left = []) :
    e.due = e.reached.map Prod.fst ++ e.left := by
  have nothing : e.due = [] := by
    unfold due
    cases turn : e.turn with
    | begins operation =>
        rw [turn] at silent
        cases operation <;> first | rfl | cases silent
    | goesOn activity reply =>
        have none := lapsed_of_silent silent
        rw [lapsed, turn] at none
        exact congrArg (List.map Lapsed.key) none
  rw [reached_of_silent silent, nothing, left]
  rfl

/-- This is so for all moves but removals and resets. -/
theorem due_eq_of_routine (routine : e.turn.routine = true) (left : e.left = []) :
    e.due = e.reached.map Prod.fst ++ e.left :=
  due_eq_of_silent (not_mayTell_of_routine routine) left

/-- A response that arrives is due for the request that it answers, and a scan is no part of it. -/
theorem due_of_receive {frame : Bytes} (turn : e.turn = .begins (.receive frame)) :
    e.due = e.ended ∧ e.visits = [] := by
  refine ⟨?_, visits_of_none ?_⟩
  · rw [due, turn]
    rfl
  · rw [lapsed, turn]

/-- A frame that ends no request tells nobody anything either. -/
theorem due_eq_of_undelivered {frame : Bytes} (sound : e.Sound)
    (turn : e.turn = .begins (.receive frame))
    (alike : e.before.ledger.SendsAlike e.after.ledger) (undelivered : e.delivery = [])
    (left : e.left = []) : e.due = e.reached.map Prod.fst ++ e.left := by
  have none : e.ended = [] := alike.ended_eq sound.before
  obtain ⟨due, visits⟩ := due_of_receive turn
  rw [reached, undelivered, left, due, visits, none]
  rfl

/-- A frame that ends a request brings its endpoint the response. -/
theorem due_eq_of_delivered {frame : Bytes} {r : Registration} {m : Message} (sound : e.Sound)
    (turn : e.turn = .begins (.receive frame))
    (pending : e.before.ledger.awaits m.header.key = true)
    (freed : e.after.ledger =
      e.before.ledger.withoutRequest m.header.key.handle m.header.key.command)
    (delivered : e.delivery = [(r, m)]) (left : e.left = []) :
    e.due = e.reached.map Prod.fst ++ e.left := by
  have one : e.ended = [m.header.key] := by
    rw [ended, freed]
    exact Ledger.ended_withoutRequest sound.before pending
  obtain ⟨due, visits⟩ := due_of_receive turn
  rw [reached, delivered, left, due, visits, one]
  rfl

/-- The lapsed requests that a move gets to, and those it leaves. -/
theorem lapsed_eq {count : Nat} (tells : e.progress.Tells e.before.directory count e.lapsed) :
    e.lapsed.map Lapsed.key = e.visits.map (fun visit => visit.1.key) ++ e.left := by
  rw [visits_eq tells, left]
  generalize e.progress = p at tells
  cases tells with
  | done all =>
      rw [Directory.visits_of_passes all, List.append_nil, List.map_map]
      rfl
  | next split all found custom =>
      rw [split, Directory.visits_append all, Directory.visits_of_called found custom]
      simp [Activity.lapsed, Function.comp_def]

/-- A scan gets to the requests before it up to the first endpoint that it calls. -/
theorem due_eq_of_lapsed {count : Nat}
    (tells : e.progress.Tells e.before.directory count e.lapsed)
    (due : e.due = e.lapsed.map Lapsed.key) (undelivered : e.delivery = []) :
    e.due = e.reached.map Prod.fst ++ e.left := by
  rw [reached, undelivered, due, lapsed_eq tells]
  simp [Function.comp_def]

/-- A frame's delivery is read off its outcome alone unless the endpoint answered at once. -/
theorem delivery_of_request {frame : Bytes} {m : Message}
    (turn : e.turn = .begins (.receive frame)) (decoded : Message.decode frame = .ok m)
    (request : m.header.type.messageClass = .request) (plain : e.progress.Plain) :
    e.delivery = [] := by
  unfold delivery
  rw [turn]
  generalize e.progress = p at plain
  cases plain with
  | finished outcome =>
      cases outcome with
      | disposed disposition =>
          cases disposition with
          | delivered code =>
              refine List.filter_eq_nil_iff.mpr fun brought mem => ?_
              obtain ⟨decoded', -⟩ := Exchange.mem_residents_iff.mp mem
              obtain rfl := Except.ok.inj (decoded.symm.trans decoded')
              simp [request]
          | _ => rfl
      | _ => rfl
  | _ => rfl

/-- A frame that changes nothing is delivered to nobody. -/
theorem delivery_of_idle {frame : Bytes} (turn : e.turn = .begins (.receive frame))
    (idle : e.turn.Idle e.progress) : e.delivery = [] := by
  have undelivered := idle.noDelivery frame
  have plain := idle.plain
  unfold delivery
  rw [turn] at undelivered ⊢
  generalize e.progress = p at plain undelivered
  cases plain with
  | finished outcome =>
      cases outcome with
      | disposed disposition =>
          cases disposition with
          | delivered code =>
              refine List.filter_eq_nil_iff.mpr fun brought mem response => ?_
              obtain ⟨decoded, -⟩ := Exchange.mem_residents_iff.mp mem
              exact undelivered _ code rfl decoded (beq_iff_eq.mp response) rfl
          | _ => rfl
      | _ => rfl
  | _ => rfl

/-- An endpoint of the exchange itself has been brought the response that it took at once. -/
theorem delivery_of_absorbed {frame : Bytes} {r : Registration} {m : Message} {code : ErrorCode}
    (turn : e.turn = .begins (.receive frame))
    (progress : e.progress = .finished (.disposed (.delivered code)))
    (arrives : Arrives e.before frame r m) (response : m.header.type.messageClass = .response)
    (resident : r.endpoint.isResident = true) : e.delivery = [(r, m)] := by
  have residents := Exchange.residents_eq arrives.decoded arrives.found resident
  simp [delivery, turn, progress, residents, response]

/-- What a move has before it, it gets to or leaves. -/
theorem due_eq (sound : e.Sound) (deed : Deed e.before e.now e.turn (e.after, e.progress)) :
    e.due = e.reached.map Prod.fst ++ e.left := by
  obtain ⟨operation, found, turn, now, before, after, progress⟩ := e
  have wf := sound.before
  simp only at wf deed
  -- A deed tells nobody, or brings the response to one request, or gets to some of those that
  -- lapsed.
  cases deed with
  | idle idle =>
      cases silent : turn.mayTell with
      | false => exact due_eq_of_silent silent (left_of_plain idle.plain)
      | true =>
          unfold Turn.mayTell at silent
          split at silent
          · exact due_eq_of_undelivered sound rfl (.refl _) (delivery_of_idle rfl idle)
              (left_of_plain idle.plain)
          · exact absurd rfl (idle.noScan _)
          · exact absurd rfl (idle.noLapse _ _ _ _ _)
          · cases silent
  | enrolled | enrolledAt | dismissed => exact due_eq_of_silent rfl rfl
  | reset plain => exact due_eq_of_silent rfl (left_of_plain plain)
  | slotWait places | sent places | sentAwaiting places =>
      exact due_eq_of_routine places.routine rfl
  | waits waiting | mailed waiting | overdue waiting | gaveUp waiting =>
      exact due_eq_of_routine waiting.routine rfl
  | tookBack | tookBackAwaiting | woke => exact due_eq_of_silent rfl rfl
  | closed closes plain => exact due_eq_of_routine closes.routine (left_of_plain plain)
  | received arrives request =>
      exact due_eq_of_undelivered sound rfl (Ledger.sendsAlike_openIncoming wf _ _ _ _) rfl rfl
  | answered arrives request plain =>
      refine due_eq_of_undelivered sound rfl ?_
        (delivery_of_request rfl arrives.decoded request plain) (left_of_plain plain)
      exact (Ledger.sendsAlike_openIncoming wf _ _ _ _).trans
        (Ledger.sendsAlike_closed (Ledger.wellFormed_openIncoming wf _ _ _ _) _)
  | echoed arrives request =>
      refine due_eq_of_undelivered sound rfl ?_ rfl rfl
      exact (Ledger.sendsAlike_openIncoming wf _ _ _ _).trans
        (Ledger.sendsAlike_closed (Ledger.wellFormed_openIncoming wf _ _ _ _) _)
  | delivered arrives response pending =>
      exact due_eq_of_delivered sound rfl pending rfl rfl rfl
  | absorbed arrives response pending resident =>
      exact due_eq_of_delivered sound rfl pending rfl
        (delivery_of_absorbed rfl rfl arrives response resident) rfl
  | scanned tells => exact due_eq_of_lapsed tells (Ledger.ended_takeLapsed wf _) rfl
  | told tells => exact due_eq_of_lapsed tells rfl rfl

end Entry

/-! ### Who is told -/

/-- A frame that brings a response has got through to the endpoint that holds its handle. -/
theorem Entry.arrives_of_delivery {e : Entry}
    (deed : Deed e.before e.now e.turn (e.after, e.progress)) {r : Registration} {m : Message}
    (mem : (r, m) ∈ e.delivery) :
    ∃ frame, e.turn = .begins (.receive frame) ∧ Arrives e.before frame r m ∧
      m.header.type.messageClass = .response := by
  unfold delivery at mem
  split at mem
  · rename_i frame r' m' turn progress
    obtain ⟨rfl, rfl⟩ := Prod.mk.inj (List.mem_singleton.mp mem)
    refine ⟨frame, turn, ?_⟩
    rw [turn, progress] at deed
    generalize e.after = after at deed
    cases deed with
    | delivered arrives response => exact ⟨arrives, response⟩
    | idle idle => cases idle.plain
    | answered _ _ plain | closed _ plain => cases plain
  · rename_i frame code turn progress
    refine ⟨frame, turn, ?_⟩
    obtain ⟨mem, kind⟩ := List.mem_filter.mp mem
    obtain ⟨decoded, found, -⟩ := Exchange.mem_residents_iff.mp mem
    have response : m.header.type.messageClass = .response := beq_iff_eq.mp kind
    rw [turn, progress] at deed
    generalize e.after = after at deed
    cases deed with
    | idle idle => exact absurd rfl (idle.noDelivery frame _ code rfl decoded response)
    | absorbed arrives =>
        obtain rfl := Except.ok.inj (arrives.decoded.symm.trans decoded)
        obtain rfl := Option.some.inj (arrives.found.symm.trans found)
        exact ⟨arrives, response⟩
    | answered arrives request =>
        obtain rfl := Except.ok.inj (arrives.decoded.symm.trans decoded)
        rw [request] at response
        cases response
    | closed closes => cases closes
  · cases mem

/-- Whoever holds the handle of a lapsed request that a move gets to is told. -/
theorem Entry.find?_of_visits {e : Entry} (deed : Deed e.before e.now e.turn (e.after, e.progress))
    {l : Lapsed} {found : Option Registration} (mem : (l, found) ∈ e.visits) :
    found = e.before.directory.find? l.handle :=
  Directory.find?_of_visits (visits_of_deed deed ▸ mem)

/-- A scan that goes on tells whoever holds the handle of the next request by then. -/
theorem Entry.visited_of_lapsed {e : Entry}
    (deed : Deed e.before e.now e.turn (e.after, e.progress))
    {l : Lapsed} {rest : List Lapsed} {r : Registration} (next : e.lapsed = l :: rest)
    (found : e.before.directory.find? l.handle = some r) : (l, some r) ∈ e.visits := by
  rw [visits_of_deed deed, next, Directory.visits, found]
  exact List.mem_cons_self

/-- Plain progress is not the call of a handler. -/
theorem Progress.Plain.told? {p : Progress} (plain : p.Plain) : p.told? = none := by
  cases plain <;> rfl

/-- The endpoint that a move calls with a response is one that it gets to. -/
theorem Entry.reached_of_told {e : Entry} (deed : Deed e.before e.now e.turn (e.after, e.progress))
    {r : Registration} {m : Message} (told : e.progress.told? = some (r, m)) :
    (m.header.key, some ⟨e.operation, r, m⟩) ∈ e.reached := by
  -- A scan calls the endpoint of the last request that it got to.
  have last {count : Nat} (tells : e.progress.Tells e.before.directory count e.lapsed) :
      (m.header.key, some ⟨e.operation, r, m⟩) ∈ e.reached := by
    have visits := visits_of_deed deed
    generalize e.progress = p at tells told
    cases tells with
    | done => cases told
    | @next _ _ l holder split all found called =>
        obtain ⟨rfl, rfl⟩ := Prod.mk.inj (Option.some.inj told)
        rw [split, Directory.visits_append all, Directory.visits_of_called found called] at visits
        refine List.mem_append_right _ (List.mem_map.mpr ⟨(l, some holder), ?_, rfl⟩)
        rw [visits]
        exact List.mem_append_right _ (List.mem_singleton_self _)
  obtain ⟨operation, found, turn, now, before, after, progress⟩ := e
  simp only at deed told
  cases deed with
  | idle idle =>
      rw [idle.plain.told?] at told
      cases told
  | reset plain | answered _ _ plain | closed _ plain =>
      rw [plain.told?] at told
      cases told
  | delivered =>
      obtain ⟨rfl, rfl⟩ := Prod.mk.inj (Option.some.inj told)
      exact List.mem_append_left _ (List.mem_singleton_self _)
  | scanned tells | told tells => exact last tells
  | _ => cases told

/-- Every handle is looked up when its request is reached. -/
theorem Entry.registration_of_reached {e : Entry}
    (deed : Deed e.before e.now e.turn (e.after, e.progress)) {key : RequestKey}
    {told : Option Call} (mem : (key, told) ∈ e.reached) :
    told.map Call.registration = e.before.directory.find? key.handle := by
  rcases List.mem_append.mp mem with mem | mem
  · obtain ⟨⟨r, m⟩, brought, pair⟩ := List.mem_map.mp mem
    obtain ⟨rfl, rfl⟩ := Prod.mk.inj pair
    obtain ⟨frame, -, arrives, -⟩ := arrives_of_delivery deed brought
    exact arrives.found.symm
  · obtain ⟨⟨l, found⟩, visited, pair⟩ := List.mem_map.mp mem
    obtain ⟨rfl, rfl⟩ := Prod.mk.inj pair
    simp [find?_of_visits deed visited, Lapsed.key, Function.comp_def]

/-- A frame brings its endpoint the response to the request that it ends. -/
theorem Entry.ended_of_received {e : Entry} (sound : e.Sound)
    (deed : Deed e.before e.now e.turn (e.after, e.progress)) {frame : Bytes}
    (turn : e.turn = .begins (.receive frame)) :
    e.ended = e.delivery.map fun brought => brought.2.header.key := by
  have nothing : e.left = [] := by
    have deed := deed
    rw [turn] at deed
    unfold left
    generalize e.progress = p at deed
    generalize e.after = after at deed
    cases deed with
    | idle idle => cases idle.plain <;> rfl
    | answered _ _ plain | closed _ plain => cases plain <;> rfl
    | _ => rfl
  obtain ⟨due, visits⟩ := due_of_receive turn
  have all := due_eq sound deed
  rw [due, nothing, List.append_nil, reached, visits, List.map_nil, List.append_nil,
    List.map_map] at all
  exact all

namespace History

variable {e : Entry} {past : History} {agent : OperationId}

/-- What an agent was told grows by what its own moves end, if they close with an answer. -/
theorem told_cons (e : Entry) (past : History) (agent : OperationId) :
    told agent (e :: past) =
      (if e.operation = agent ∧ e.turn.ending.isTold = true then e.ended else []) ++
        told agent past := by
  unfold told
  rw [ended, List.filter_append, List.map_append, List.filter_map, List.map_map]
  congr 1
  by_cases here : e.operation = agent ∧ e.turn.ending.isTold = true
  · rw [if_pos here, List.filter_eq_self.mpr (by simp [Ended.agent, Ended.ending, here])]
    exact List.map_id _
  · rw [if_neg here, List.filter_eq_nil_iff.mpr (fun key _ => by
        simpa [Ended.agent, Ended.ending] using here)]
    rfl

/-- Moves of others tell an agent nothing. -/
theorem told_of_other (other : e.operation ≠ agent) :
    told agent (e :: past) = told agent past := by
  rw [told_cons, if_neg (fun here => other here.1)]
  rfl

/-- What the moves of an operation have settled. -/
def settled (settles : Entry → List RequestKey) (agent : OperationId) :
    History → List RequestKey
  | [] => []
  | e :: past => (if e.operation = agent then settles e else []) ++ settled settles agent past

/-- Nor do they settle what is due from it. -/
theorem settled_of_other {settles : Entry → List RequestKey} (other : e.operation ≠ agent) :
    settled settles agent (e :: past) = settled settles agent past := by
  simp [settled, other]

/-- The requests that were settled by a call are those reached. -/
theorem settled_reached (agent : OperationId) (h : History) :
    settled (fun e => e.reached.map Prod.fst) agent h = (reached agent h).map Prod.fst := by
  induction h with
  | nil => rfl
  | cons e past ih =>
      rw [settled, reached, List.map_append, ih]
      split <;> rfl

/-- Whoever has made no move was told nothing and has settled nothing. -/
theorem of_absent {h : History} (agent : OperationId) (absent : ∀ e ∈ h, e.operation ≠ agent) :
    told agent h = [] ∧ ∀ settles, settled settles agent h = [] := by
  induction h with
  | nil => exact ⟨rfl, fun _ => rfl⟩
  | cons e past ih =>
      have other := absent e List.mem_cons_self
      obtain ⟨told, settled⟩ := ih fun entry mem => absent entry (List.mem_cons_of_mem e mem)
      refine ⟨(told_of_other other).trans told, fun settles => ?_⟩
      exact (settled_of_other other).trans (settled settles)

end History

namespace Entry

/-- What a move has before it: the requests that it ends, or what is left from before. -/
def owing (rest : Activity → List RequestKey) (e : Entry) : List RequestKey :=
  match e.turn with
  | .begins _ => if e.turn.ending.isTold then e.ended else []
  | .goesOn activity _ => rest activity

/-- What a move leaves for the next one. -/
def leaving (rest : Activity → List RequestKey) (e : Entry) : List RequestKey :=
  match e.progress with
  | .finished _ => []
  | .waiting activity => rest activity

end Entry

namespace Session

variable {s s' : Session} {e : Entry} {rest : Activity → List RequestKey}

/-- What an operation under way still has before it. -/
def under (rest : Activity → List RequestKey) (s : Session) (agent : OperationId) :
    List RequestKey :=
  (s.tasks.filter (·.id == agent)).flatMap fun task => rest task.activity

/-- What an agent still has to settle is spread over its tasks. -/
theorem under_append {s : Session} {tasks others : List Task} (both : s.tasks = tasks ++ others)
    (agent : OperationId) :
    s.under rest agent =
      (tasks.filter (·.id == agent)).flatMap (fun task => rest task.activity) ++
        (others.filter (·.id == agent)).flatMap fun task => rest task.activity := by
  rw [under, both, List.filter_append, List.flatMap_append]

/-- What the operation that moved has before it then is what the move left. -/
theorem under_of_mover (moved : s.Moved s' e) (orderly : s.Orderly) :
    s'.under rest e.operation = e.leaving rest := by
  have gone : ∀ others : List Task, (∀ task ∈ others, task.id ≠ e.operation) →
      s'.tasks = e.tasks ++ others → s'.under rest e.operation = e.leaving rest := by
    intro others apart tasks
    have none : (others.filter (·.id == e.operation)) = [] :=
      List.filter_eq_nil_iff.mpr fun task mem => by simpa using apart task mem
    rw [under_append tasks, none]
    unfold Entry.tasks Entry.leaving
    cases e.progress <;> simp
  cases moved.mover with
  | starts _ operation _ _ tasks =>
      refine gone s.tasks ?_ tasks
      intro task mem
      rw [operation]
      exact Nat.ne_of_lt (orderly.old task mem)
  | resumes _ _ operation _ _ tasks =>
      refine gone _ ?_ tasks
      intro task mem
      rw [operation]
      exact bne_iff_ne.mp (List.mem_filter.mp mem).2

/-- An agent has one task, so all that it still has to settle stands there. -/
theorem under_of_mem (orderly : s.Orderly) {task : Task} (mem : task ∈ s.tasks) :
    s.under rest task.id = rest task.activity := by
  have alone : s.tasks.filter (·.id == task.id) = [task] := by
    refine Ledger.eq_singleton_of_mem (orderly.distinct.of_map.filter _) ?_
    intro other
    simp only [List.mem_filter, beq_iff_eq]
    constructor
    · rintro ⟨under, same⟩
      exact List.inj_on_of_nodup_map orderly.distinct under mem same
    · rintro rfl
      exact ⟨mem, rfl⟩
  rw [under, alone, List.flatMap_cons, List.flatMap_nil, List.append_nil]

/-- The move of another operation leaves it as it is. -/
theorem under_of_other (moved : s.Moved s' e) {agent : OperationId} (other : e.operation ≠ agent) :
    s'.under rest agent = s.under rest agent := by
  have mine : (e.tasks.filter (·.id == agent)) = [] := by
    refine List.filter_eq_nil_iff.mpr ?_
    intro task mem
    rw [(moved.task_id mem).1]
    simpa using other
  cases moved.mover with
  | starts _ _ _ _ tasks =>
      rw [under_append tasks, mine]
      rfl
  | @resumes task _ _ _ operation _ _ tasks =>
      have others : (s.tasks.filter (·.id != task.id)).filter (·.id == agent) =
          s.tasks.filter (·.id == agent) := by
        rw [List.filter_filter]
        refine List.filter_congr ?_
        intro task' _
        by_cases here : task'.id = agent
        · simp [here, ← operation, Ne.symm other]
        · simp [here]
      rw [under_append tasks, mine, others]
      rfl

/-- Only the first move of an operation ends requests of which endpoints are told. -/
theorem Moved.told_cases (moved : s.Moved s' e) (orderly : s.Orderly) :
    (∃ operation, e.turn = .begins operation ∧ ∀ entry ∈ s.history, entry.operation ≠ e.operation) ∨
      ∃ activity reply, e.turn = .goesOn activity reply ∧
        s'.history.told e.operation = s.history.told e.operation ∧
        ∀ rest, s.under rest e.operation = rest activity := by
  cases moved.mover with
  | @starts operation begins id =>
      refine .inl ⟨operation, begins, fun entry mem => ?_⟩
      rw [id]
      exact Nat.ne_of_lt (orderly.entries entry mem)
  | @resumes task reply mem goesOn id =>
      have silent : e.turn.ending.isTold = false := goesOn ▸ Turn.not_told_of_goesOn _ reply
      refine .inr ⟨task.activity, reply, goesOn, ?_, fun rest => ?_⟩
      · rw [moved.history, History.told_cons, if_neg (by simp [silent])]
        rfl
      · rw [id]
        exact under_of_mem orderly mem

/-- The requests that an operation ended so that their endpoints are told are those that it has
settled, and those that it still has before it. -/
def Shares (s : Session) (settles : Entry → List RequestKey) (rest : Activity → List RequestKey) :
    Prop :=
  ∀ agent, (s.history.told agent).Perm (s.history.settled settles agent ++ s.under rest agent)

/-- The law of one move makes the law of a run: what was due is what has been settled together with
what is still under way. -/
theorem Moved.shares {settles : Entry → List RequestKey} (moved : s.Moved s' e)
    (orderly : s.Orderly) (law : (e.owing rest).Perm (settles e ++ e.leaving rest))
    (shares : s.Shares settles rest) : s'.Shares settles rest := by
  intro agent
  by_cases here : e.operation = agent
  · subst here
    have settled : s'.history.settled settles e.operation =
        settles e ++ s.history.settled settles e.operation := by
      rw [moved.history, History.settled, if_pos rfl]
    rw [under_of_mover moved orderly, settled]
    rcases moved.told_cases orderly with
      ⟨operation, begins, absent⟩ | ⟨activity, reply, goesOn, told, before⟩
    · -- The operation is new: nothing was ended or settled by it before.
      obtain ⟨toldNone, settledNone⟩ := History.of_absent e.operation absent
      rw [Entry.owing, begins] at law
      rw [moved.history, History.told_cons, toldNone, settledNone, List.append_nil, List.append_nil]
      simp only [true_and, begins]
      exact law
    -- The operation goes on: what it still had before it is what it now settles and leaves.
    · rw [Entry.owing, goesOn] at law
      have shared := shares e.operation
      rw [before] at shared
      rw [told]
      refine (shared.trans (law.append_left _)).trans ?_
      rw [← List.append_assoc]
      exact List.perm_append_comm.append_right _
  · rw [under_of_other moved here, moved.history, History.told_of_other here,
      History.settled_of_other here]
    exact shares agent

/-- The requests that were ended so that their endpoints are told, by the operation that ended
them: each is reached once, or the operation still has it before it. -/
structure Answered (s : Session) : Prop where
  shared : ∀ agent, (s.history.told agent).Perm
    ((s.history.reached agent).map Prod.fst ++ s.due agent)
  once : ∀ agent, (s.history.told agent).Nodup

/-- Calls, lapses and answers share one law. The move's deed shows it for each of the three. -/
theorem Answered.step (answered : s.Answered) (wf : s.exchange.ledger.WellFormed)
    (orderly : s.Orderly) (moved : s.Moved s' e) : s'.Answered := by
  have sound := moved.sound wf
  constructor
  · have shares : s.Shares (fun e => e.reached.map Prod.fst) (·.lapsed.map Lapsed.key) := by
      intro agent
      rw [History.settled_reached]
      exact answered.shared agent
    have law : (e.owing (·.lapsed.map Lapsed.key)).Perm
        (e.reached.map Prod.fst ++ e.leaving (·.lapsed.map Lapsed.key)) :=
      .of_eq (Entry.due_eq sound moved.deed)
    intro agent
    rw [← History.settled_reached]
    exact moved.shares orderly law shares agent
  -- What an operation ends with a message to the endpoint, it ends in its first move.
  · intro agent
    by_cases here : e.operation = agent
    · subst here
      rcases moved.told_cases orderly with ⟨operation, begins, absent⟩ | ⟨_, _, _, told, -⟩
      · rw [moved.history, History.told_cons, (History.of_absent e.operation absent).1,
          List.append_nil]
        split
        · exact Ledger.nodup_ended sound.before
        · exact List.nodup_nil
      · rw [told]
        exact answered.once e.operation
    · rw [moved.history, History.told_of_other here]
      exact answered.once agent

/-- In every state that a session reaches the requests that ended are those that were told, reached
or left over. -/
theorem Reachable.answered {settings : Settings} (reached : Reachable settings s) :
    s.Answered := by
  refine reached.holds ⟨fun agent => .refl _, fun agent => List.nodup_nil⟩ ?_
  intro s s' e before moved answered
  exact answered.step before.accounted.wellFormed before.orderly moved

end Session

/-! ### The calls of handlers -/

namespace History

variable {h : History} {agent : OperationId} {key : RequestKey} {call : Call}

/-- A call is made by the operation that moves, about the request that it is booked for. -/
theorem call_of_reached {e : Entry} (mem : (key, some call) ∈ e.reached) :
    call.agent = e.operation ∧ call.message.header.key = key := by
  rcases List.mem_append.mp mem with mem | mem
  · obtain ⟨brought, -, pair⟩ := List.mem_map.mp mem
    obtain ⟨same, told⟩ := Prod.mk.inj pair
    rw [← Option.some.inj told]
    exact ⟨rfl, same⟩
  · obtain ⟨⟨lapsed, found⟩, -, pair⟩ := List.mem_map.mp mem
    obtain ⟨same, told⟩ := Prod.mk.inj pair
    obtain ⟨r, -, rfl⟩ := Option.map_eq_some_iff.mp told
    exact ⟨rfl, same⟩

/-- A call is made by the operation that reached the request, under the key of the request. -/
theorem mem_calls_iff : call ∈ h.calls ↔
    (call.message.header.key, some call) ∈ h.reached call.agent := by
  induction h with
  | nil => simp [calls, reached]
  | cons e past ih =>
      rw [calls, reached, List.mem_append, List.mem_append, ih, List.mem_filterMap]
      refine or_congr_left ⟨?_, ?_⟩
      · rintro ⟨⟨key, told⟩, mem, rfl⟩
        obtain ⟨agent, rfl⟩ := call_of_reached mem
        rw [if_pos agent.symm]
        exact mem
      · intro mem
        split at mem
        · exact ⟨_, mem, rfl⟩
        · cases mem

/-- Whom an agent reached is spread over its moves. -/
theorem mem_reached_iff {told : Option Call} : (key, told) ∈ h.reached agent ↔
    ∃ e ∈ h, e.operation = agent ∧ (key, told) ∈ e.reached := by
  induction h with
  | nil => simp [reached]
  | cons e past ih =>
      rw [reached, List.mem_append, ih]
      constructor
      · rintro (mem | ⟨entry, mem, same, reached⟩)
        · split at mem
          · exact ⟨e, List.mem_cons_self, ‹_›, mem⟩
          · cases mem
        · exact ⟨entry, List.mem_cons_of_mem e mem, same, reached⟩
      · rintro ⟨entry, mem, same, reached⟩
        rcases List.mem_cons.mp mem with rfl | mem
        · exact .inl (by rw [if_pos same]; exact reached)
        · exact .inr ⟨entry, mem, same, reached⟩

/-- Calls that are booked under their own requests are no more than the requests reached. -/
theorem keys_of_calls {xs : List (RequestKey × Option Call)}
    (keyed : ∀ key call, (key, some call) ∈ xs → call.message.header.key = key) :
    ((xs.filterMap Prod.snd).map (·.message.header.key)).Sublist (xs.map Prod.fst) := by
  induction xs with
  | nil => exact List.nil_sublist _
  | cons x rest ih =>
      obtain ⟨key, told⟩ := x
      have ih := ih fun key call mem => keyed key call (List.mem_cons_of_mem _ mem)
      cases told with
      | none => exact ih.cons key
      | some call =>
          obtain rfl := keyed key call List.mem_cons_self
          exact ih.cons_cons call.message.header.key

/-- If no operation reaches a request twice, no two calls tell of the same one. -/
theorem nodup_calls (once : ∀ agent, ((h.reached agent).map Prod.fst).Nodup) :
    (h.calls.map fun call => (call.agent, call.message.header.key)).Nodup := by
  induction h with
  | nil => exact List.nodup_nil
  | cons e past ih =>
      have mine := once e.operation
      rw [reached, if_pos rfl, List.map_append] at mine
      obtain ⟨now, before, apart⟩ := List.nodup_append'.mp mine
      have past' (agent : OperationId) : ((reached agent past).map Prod.fst).Nodup := by
        have both := once agent
        rw [reached, List.map_append] at both
        exact both.of_append_right
      rw [calls, List.map_append]
      refine List.Nodup.append ?_ (ih past') ?_
      · refine List.Nodup.of_map Prod.snd ?_
        rw [List.map_map]
        exact now.sublist (keys_of_calls fun key call mem => (call_of_reached mem).2)
      · intro tag first second
        obtain ⟨call, mem, rfl⟩ := List.mem_map.mp first
        obtain ⟨call', mem', same⟩ := List.mem_map.mp second
        obtain ⟨⟨key, told⟩, new, rfl⟩ := List.mem_filterMap.mp mem
        obtain ⟨agent, keyed⟩ := call_of_reached new
        obtain ⟨agent', keyed'⟩ := Prod.mk.inj same
        have old := mem_calls_iff.mp mem'
        rw [agent', agent, keyed', keyed] at old
        exact apart (List.mem_map.mpr ⟨_, new, rfl⟩) (List.mem_map.mpr ⟨_, old, rfl⟩)

end History

end HubRelay
