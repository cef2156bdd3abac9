import HubRelay.Proofs.Dock.Pieces
import Mathlib.Data.List.Induction

/-!
What a history tells of a dock.

A history is what was asked of a dock and what it answered, in this order. It tells which
transaction is under way: the last one that was started, if nothing has ended it since
(`StandsIn`). `Dock.Asked` is all that asking a dock can come to; from it follows, by induction on
the operations, that the dock holds just that transaction, with the pieces that the history has seen
handed out (`Dock.recalls_record`).
-/

namespace HubRelay

/-- What can be asked of a dock. -/
inductive DockOperation where
  | startLoad (client : ClientId) (upload : Upload) (now : Instant)
  | startUnload (client : ClientId) (number : TransactionNumber) (now : Instant)
  | settle (client : ClientId) (number : TransactionNumber)
  | settleClient (client : ClientId)
  | clear
  | next (client : ClientId) (number : TransactionNumber) (acknowledged : Nat) (now : Instant)

/-- What a dock answers. -/
inductive DockAnswer where
  | started
  | refused (error : HostError)
  | settled (found : Bool)
  | dropped (transaction : Option Transaction)
  | handed (piece : Option Fragment)

/-- What was asked and what was answered. -/
structure DockEvent where
  asked : DockOperation
  answer : DockAnswer

namespace DockOperation

def instant? : DockOperation → Option Instant
  | .startLoad _ _ now | .startUnload _ _ now | .next _ _ _ now => some now
  | .settle _ _ | .settleClient _ | .clear => none

def starts? : DockOperation → Option Transaction
  | .startLoad client upload now =>
      some { number := upload.info.transaction, client, activeAt := now, upload := some upload }
  | .startUnload client number now => some { number, client, activeAt := now, upload := none }
  | .settle _ _ | .settleClient _ | .clear | .next _ _ _ _ => none

/-- Whether it ends the transaction, if that is under way. -/
def Ends (operation : DockOperation) (t : Transaction) : Prop :=
  match operation with
  | .settle client number => t.client = client ∧ t.number = number
  | .settleClient client => t.client = client
  | .clear => True
  | .startLoad _ _ _ | .startUnload _ _ _ | .next _ _ _ _ => False

@[simp] theorem ends_settle {client : ClientId} {number : TransactionNumber} {t : Transaction} :
    (settle client number).Ends t ↔ t.client = client ∧ t.number = number := Iff.rfl

@[simp] theorem ends_settleClient {client : ClientId} {t : Transaction} :
    (settleClient client).Ends t ↔ t.client = client := Iff.rfl

/-- An operation that starts a transaction ends none. -/
theorem not_ends_of_starts {operation : DockOperation} {t stood : Transaction}
    (starts : operation.starts? = some t) : ¬ operation.Ends stood := by
  cases operation with
  | startLoad | startUnload => exact not_false
  | settle | settleClient | clear | next => cases starts

end DockOperation

namespace DockEvent

def started? (e : DockEvent) : Option Transaction :=
  match e.answer with
  | .started => e.asked.starts?
  | _ => none

def handed? (e : DockEvent) : Option (Instant × Fragment) :=
  match e.asked, e.answer with
  | .next _ _ _ now, .handed (some piece) => some (now, piece)
  | _, _ => none

end DockEvent

/-! ### Histories -/

def handedIn (events : List DockEvent) : List (Instant × Fragment) :=
  events.filterMap DockEvent.handed?

/-- The transaction was started, and `since`, which is what happened from then on, has neither
started another one nor ended it. That it was idle for long enough does not end it; only another
start does. -/
def StandsIn (past : List DockEvent) (t : Transaction) (since : List DockEvent) : Prop :=
  ∃ before first, past = before ++ first :: since ∧ first.started? = some t ∧
    ∀ e ∈ since, e.started? = none ∧ ¬ e.asked.Ends t

/-- What has become of a transaction after these pieces were handed out. -/
def Transaction.later (t : Transaction) (handed : List (Instant × Fragment)) : Transaction :=
  { t with
    activeAt := (handed.getLast?.map Prod.fst).getD t.activeAt
    upload := t.upload.map (·.advanced handed.length) }

section

variable {operation : DockOperation} {t : Transaction} {past since : List DockEvent} {e : DockEvent}

@[simp] theorem Transaction.later_nil (t : Transaction) : t.later [] = t := by
  cases t
  simp [Transaction.later]

/-- Handing out fragments does not change which operations end a transaction. -/
@[simp] theorem DockOperation.ends_later {handed : List (Instant × Fragment)} :
    operation.Ends (t.later handed) ↔ operation.Ends t := by
  cases operation <;> rfl

/-- Another fragment moves the transaction on by one and renews its time. -/
theorem Transaction.later_concat {handed : List (Instant × Fragment)} {u : Upload} {now : Instant}
    {piece : Fragment} (loading : (t.later handed).upload = some u) :
    t.later (handed ++ [(now, piece)]) =
      { t.later handed with activeAt := now, upload := some (u.advanced 1) } := by
  obtain ⟨whole, same, rfl⟩ := Option.map_eq_some_iff.mp loading
  simp [Transaction.later, same]

/-- The latest fragment comes last. -/
theorem handedIn_concat : handedIn (since ++ [e]) = handedIn since ++ e.handed?.toList := by
  simp only [handedIn, List.filterMap_append, List.append_cancel_left_eq]
  cases handed : e.handed? <;> simp [handed]

/-- A transaction stands if the last event started it, or if it stood before and this event neither
replaced nor ended it. -/
theorem standsIn_concat :
    StandsIn (past ++ [e]) t since ↔
      since = [] ∧ e.started? = some t ∨
        ∃ earlier, since = earlier ++ [e] ∧ StandsIn past t earlier ∧ e.started? = none ∧
          ¬ e.asked.Ends t := by
  constructor
  · rintro ⟨before, first, split, starts, quiet⟩
    rcases List.eq_nil_or_concat since with rfl | ⟨earlier, last, rfl⟩
    · obtain ⟨-, same⟩ := List.append_inj' split rfl
      obtain rfl := List.singleton_inj.mp same
      exact .inl ⟨rfl, starts⟩
    · rw [List.concat_eq_append] at split quiet ⊢
      rw [← List.cons_append, ← List.append_assoc] at split
      obtain ⟨rfl, same⟩ := List.append_inj' split rfl
      obtain rfl := List.singleton_inj.mp same
      obtain ⟨goes_on, stands⟩ := quiet e (by simp)
      refine .inr ⟨earlier, rfl, ⟨before, first, rfl, starts, ?_⟩, goes_on, stands⟩
      intro other mem
      exact quiet other (List.mem_append_left _ mem)
  · rintro (⟨rfl, starts⟩ | ⟨earlier, rfl, ⟨before, first, rfl, starts, quiet⟩, goes_on, stands⟩)
    · exact ⟨past, e, rfl, starts, by simp⟩
    · refine ⟨before, first, by simp, starts, ?_⟩
      intro other mem
      rcases List.mem_append.mp mem with mem | mem
      · exact quiet other mem
      · obtain rfl := List.mem_singleton.mp mem
        exact ⟨goes_on, stands⟩

/-- Only the transaction that was started last can stand. -/
theorem StandsIn.unique {stood : Transaction} {before : List DockEvent} {first : DockEvent}
    (stands : StandsIn (before ++ first :: since) stood past) (starts : first.started? = some t)
    (quiet : ∀ e ∈ since, e.started? = none) : stood = t ∧ past = since := by
  obtain ⟨before', first', split, starts', quiet'⟩ := stands
  rcases List.append_eq_append_iff.mp split with ⟨more, rfl, rest⟩ | ⟨more, rfl, rest⟩
  · cases more with
    | nil =>
        obtain ⟨rfl, rfl⟩ := List.cons.inj rest
        exact ⟨Option.some.inj (starts'.symm.trans starts), rfl⟩
    | cons head more =>
        obtain ⟨-, rfl⟩ := List.cons.inj rest
        rw [quiet first' (by simp)] at starts'
        cases starts'
  · cases more with
    | nil =>
        obtain ⟨rfl, rfl⟩ := List.cons.inj rest
        exact ⟨Option.some.inj (starts'.symm.trans starts), rfl⟩
    | cons head more =>
        obtain ⟨-, rfl⟩ := List.cons.inj rest
        rw [(quiet' first (by simp)).1] at starts
        cases starts

end

namespace Dock

/-- What comes of an attempt to start a transaction. -/
def attempted (d : Dock) : Except HostError Dock → DockAnswer × Dock
  | .ok later => (.started, later)
  | .error error => (.refused error, d)

/-- The answer to an operation, and the dock after it. -/
def ask (d : Dock) : DockOperation → DockAnswer × Dock
  | .startLoad client upload now => d.attempted (d.startLoad client upload now)
  | .startUnload client number now => d.attempted (d.startUnload client number now)
  | .settle client number => (.settled (d.settle client number).1, (d.settle client number).2)
  | .settleClient client => (.dropped (d.settleClient client).1, (d.settleClient client).2)
  | .clear => (.dropped d.clear.1, d.clear.2)
  | .next client number acknowledged now =>
      match d.next client number acknowledged now with
      | none => (.handed none, d)
      | some (piece, later) => (.handed (some piece), later)

/-- Asking for a fragment hands out one if there is one. -/
theorem ask_next (d : Dock) (client : ClientId) (number : TransactionNumber) (acknowledged : Nat)
    (now : Instant) :
    d.ask (.next client number acknowledged now) =
      match d.next client number acknowledged now with
      | none => (.handed none, d)
      | some (piece, later) => (.handed (some piece), later) := rfl

def after (d : Dock) (operation : DockOperation) : Dock := (d.ask operation).2

def event (d : Dock) (operation : DockOperation) : DockEvent := ⟨operation, (d.ask operation).1⟩

def run (d : Dock) (operations : List DockOperation) : Dock := operations.foldl after d

def record (d : Dock) : List DockOperation → List DockEvent
  | [] => []
  | operation :: rest => d.event operation :: (d.after operation).record rest

variable {d : Dock} {operation : DockOperation} {t : Transaction} {past since : List DockEvent}
  {e : DockEvent}

/-- A run can be cut in two. -/
theorem run_append (d : Dock) (front back : List DockOperation) :
    d.run (front ++ back) = (d.run front).run back :=
  List.foldl_append

/-- The record of a run can be cut in two as well. -/
theorem record_append (d : Dock) (front back : List DockOperation) :
    d.record (front ++ back) = d.record front ++ (d.run front).record back := by
  induction front generalizing d with
  | nil => rfl
  | cons operation rest ih => exact congrArg (d.event operation :: ·) (ih (d.after operation))

/-- The record holds all operations in order. -/
theorem asked_record (d : Dock) (operations : List DockOperation) :
    (d.record operations).map DockEvent.asked = operations := by
  induction operations generalizing d with
  | nil => rfl
  | cons operation rest ih => exact congrArg (operation :: ·) (ih (d.after operation))

/-- Where an event stands in a history, its operation stands in the run. -/
theorem record_split {operations : List DockOperation} {front back : List DockEvent}
    (split : d.record operations = front ++ e :: back) :
    ∃ earlier operation later, operations = earlier ++ operation :: later ∧
      front = d.record earlier ∧ e = (d.run earlier).event operation := by
  induction front generalizing d operations with
  | nil =>
      cases operations with
      | nil => cases split
      | cons operation rest =>
          obtain ⟨rfl, -⟩ := List.cons.inj split
          exact ⟨[], operation, rest, rfl, rfl, rfl⟩
  | cons head front ih =>
      cases operations with
      | nil => cases split
      | cons first rest =>
          obtain ⟨rfl, tail⟩ := List.cons.inj split
          obtain ⟨earlier, operation, later, rfl, rfl, rfl⟩ := ih tail
          exact ⟨first :: earlier, operation, later, rfl, rfl, rfl⟩

/-! ### What an operation comes to -/

/-- All that asking a dock can come to. -/
inductive Asked (d : Dock) (operation : DockOperation) : DockAnswer → Dock → Prop where
  | started {t : Transaction} : operation.starts? = some t →
      (∀ stood ∈ d.pending, d.timeout ≤ t.activeAt - stood.activeAt) →
      Asked d operation .started { d with pending := some t }
  | refused {t stood : Transaction} : operation.starts? = some t → d.pending = some stood →
      t.activeAt - stood.activeAt < d.timeout →
      Asked d operation (.refused (.transactionPending stood.kind stood.number stood.client)) d
  | ended {stood : Transaction} {answer : DockAnswer} : d.pending = some stood →
      operation.Ends stood → answer = .settled true ∨ answer = .dropped (some stood) →
      Asked d operation answer { d with pending := none }
  | handed {stood : Transaction} {u : Upload} {now : Instant} :
      operation = .next stood.client stood.number u.handedOut now → d.pending = some stood →
      stood.upload = some u → u.handedOut < u.pieces →
      Asked d operation (.handed (some (u.piece u.handedOut)))
        { d with pending := some { stood with activeAt := now, upload := some (u.advanced 1) } }
  | idle {answer : DockAnswer} : operation.starts? = none →
      (∀ stood ∈ d.pending, ¬ operation.Ends stood) →
      answer = .settled false ∨ answer = .dropped none ∨ answer = .handed none →
      Asked d operation answer d

/-- An attempt to start a transaction is refused or takes the place of whatever is pending. -/
theorem asked_attempted {client : ClientId} {number : TransactionNumber} {upload : Option Upload}
    {now : Instant}
    (starts : operation.starts? = some { number, client, activeAt := now, upload }) :
    d.Asked operation (d.attempted (d.start client number upload now)).1
      (d.attempted (d.start client number upload now)).2 := by
  unfold start
  cases pending : d.pending with
  | none => exact .started starts (by simp [pending])
  | some stood =>
      have free : d.isFree now = true ↔ d.timeout ≤ now - stood.activeAt := by
        simp [isFree, pending]
      by_cases idle : d.timeout ≤ now - stood.activeAt
      · simp only [if_pos (free.mpr idle), attempted]
        refine .started starts ?_
        intro other here
        obtain rfl : stood = other := by simpa [pending] using here
        exact idle
      · simp only [if_neg (mt free.mp idle), attempted]
        exact .refused starts pending (Nat.lt_of_not_le idle)

/-- A fragment is handed out for the pending load only. -/
theorem asked_next (d : Dock) (client : ClientId) (number : TransactionNumber)
    (acknowledged : Nat) (now : Instant) :
    d.Asked (.next client number acknowledged now)
      (d.ask (.next client number acknowledged now)).1
      (d.ask (.next client number acknowledged now)).2 := by
  have nothing : d.Asked (.next client number acknowledged now) (.handed none) d :=
    .idle rfl (fun _ _ => not_false) (.inr (.inr rfl))
  rw [ask_next]
  unfold Dock.next
  cases pending : d.pending with
  | none => exact nothing
  | some stood =>
      by_cases own : stood.isOf client number = true
      · obtain ⟨rfl, rfl⟩ : stood.client = client ∧ stood.number = number := by
          simpa [Transaction.isOf] using own
        cases loading : stood.upload with
        | none => simpa [own, loading] using nothing
        | some u =>
            by_cases acknowledges : u.handedOut = acknowledged
            · subst acknowledges
              by_cases more : u.handedOut < u.pieces
              · have step : d.Asked (.next stood.client stood.number u.handedOut now) _ _ :=
                  .handed rfl pending loading more
                simpa [own, loading, u.next_eq, more] using step
              · simpa [own, loading, u.next_eq, more] using nothing
            · simpa [own, loading, acknowledges] using nothing
      · simpa [own] using nothing

/-- Asking a dock comes to one of these. -/
theorem asked_ask (d : Dock) (operation : DockOperation) :
    d.Asked operation (d.ask operation).1 (d.ask operation).2 := by
  cases operation with
  | startLoad client upload now => exact asked_attempted rfl
  | startUnload client number now => exact asked_attempted rfl
  | settle client number =>
      unfold ask settle
      cases pending : d.pending with
      | none => exact .idle rfl (by simp [pending]) (.inl rfl)
      | some stood =>
          by_cases own : stood.isOf client number = true
          · simp only [Option.any_some, if_pos own]
            exact .ended pending (by simpa [Transaction.isOf] using own) (.inl rfl)
          · simp only [Option.any_some, if_neg own]
            refine .idle rfl ?_ (.inl rfl)
            rintro other here ends
            obtain rfl : stood = other := by simpa [pending] using here
            exact own (by simpa [Transaction.isOf] using ends)
  | settleClient client =>
      unfold ask settleClient
      cases pending : d.pending with
      | none => exact .idle rfl (by simp [pending]) (.inr (.inl rfl))
      | some stood =>
          by_cases own : (stood.client == client) = true
          · simp only [Option.any_some, if_pos own]
            exact .ended pending (by simpa using own) (.inr rfl)
          · simp only [Option.any_some, if_neg own]
            refine .idle rfl ?_ (.inr (.inl rfl))
            rintro other here ends
            obtain rfl : stood = other := by simpa [pending] using here
            exact own (by simpa using ends)
  | clear =>
      unfold ask clear
      cases pending : d.pending with
      | none =>
          obtain ⟨timeout, _⟩ := d
          obtain rfl := pending
          exact .idle rfl (by simp) (.inr (.inl rfl))
      | some stood => exact .ended pending trivial (.inr rfl)
  | next client number acknowledged now => exact d.asked_next client number acknowledged now

/-- Only a dock with a transaction hands anything out, and keeps it. -/
theorem pending_of_handed {handed : Instant × Fragment}
    (same : (d.event operation).handed? = some handed) :
    ∃ held, (d.after operation).pending = some held := by
  have asked := d.asked_ask operation
  unfold event at same
  unfold after
  generalize (d.ask operation).1 = answer at asked same
  generalize (d.ask operation).2 = later at asked
  cases asked with
  | started | refused => cases operation <;> cases same
  | ended _ _ answers => rcases answers with rfl | rfl <;> cases operation <;> cases same
  | handed => exact ⟨_, rfl⟩
  | idle _ _ answers => rcases answers with rfl | rfl | rfl <;> cases operation <;> cases same

/-! ### What the dock recalls -/

/-- The dock holds the transaction that stands in the history, which is what its start and the
pieces since have made of it; these are its next pieces, in order. If nothing stands, the dock is
free. -/
structure Recalls (d : Dock) (past : List DockEvent) : Prop where
  holds : ∀ t since, StandsIn past t since → d.pending = some (t.later (handedIn since))
  stands : ∀ held, d.pending = some held → ∃ t since, StandsIn past t since
  pieces : ∀ t since u, StandsIn past t since → t.upload = some u →
    (handedIn since).map Prod.snd = (List.range' u.handedOut (handedIn since).length).map u.piece ∧
      (handedIn since).length ≤ u.pieces - u.handedOut

/-- A dock begins with nothing pending. -/
theorem recalls_nil (timeout : Span) : Recalls { timeout } [] := by
  have nothing {t : Transaction} {since : List DockEvent} : ¬ StandsIn [] t since := by
    rintro ⟨before, first, split, -⟩
    simp at split
  exact ⟨fun _ _ stands => absurd stands nothing, nofun,
    fun _ _ _ stands => absurd stands nothing⟩

/-- An event that neither starts nor ends nor hands out anything changes nothing that is
recalled. -/
theorem Recalls.quiet (recalls : d.Recalls past) (no_start : e.started? = none)
    (no_piece : e.handed? = none) (no_end : ∀ held ∈ d.pending, ¬ e.asked.Ends held) :
    d.Recalls (past ++ [e]) := by
  have before {t : Transaction} {since : List DockEvent} (stands : StandsIn (past ++ [e]) t since) :
      ∃ earlier, StandsIn past t earlier ∧ handedIn since = handedIn earlier := by
    rcases standsIn_concat.mp stands with ⟨-, starts⟩ | ⟨earlier, rfl, stands, -, -⟩
    · rw [no_start] at starts
      cases starts
    · exact ⟨earlier, stands, by simp [handedIn_concat, no_piece]⟩
  constructor
  · intro t since stands
    obtain ⟨earlier, stood, same⟩ := before stands
    rw [same]
    exact recalls.holds t earlier stood
  · intro held pending
    obtain ⟨t, since, stands⟩ := recalls.stands held pending
    have own := recalls.holds t since stands
    have goes_on : ¬ e.asked.Ends t := by
      have := no_end _ own
      rwa [DockOperation.ends_later] at this
    exact ⟨t, since ++ [e], standsIn_concat.mpr (.inr ⟨since, rfl, stands, no_start, goes_on⟩)⟩
  · intro t since u stands loading
    obtain ⟨earlier, stood, same⟩ := before stands
    rw [same]
    exact recalls.pieces t earlier u stood loading

/-- After a start the new transaction stands, and nothing has been handed out for it. -/
theorem Recalls.start (starts : e.started? = some t) :
    { d with pending := some t }.Recalls (past ++ [e]) := by
  have only {stood : Transaction} {since : List DockEvent}
      (stands : StandsIn (past ++ [e]) stood since) : stood = t ∧ since = [] := by
    rcases standsIn_concat.mp stands with ⟨none_since, same⟩ | ⟨_, _, _, no_start, _⟩
    · exact ⟨Option.some.inj (same.symm.trans starts), none_since⟩
    · rw [no_start] at starts
      cases starts
  constructor
  · intro stood since stands
    obtain ⟨rfl, rfl⟩ := only stands
    simp [handedIn]
  · intro held _
    exact ⟨t, [], standsIn_concat.mpr (.inl ⟨rfl, starts⟩)⟩
  · intro stood since u stands _
    obtain ⟨rfl, rfl⟩ := only stands
    simp [handedIn]

/-- After an end nothing is pending. -/
theorem Recalls.end (recalls : d.Recalls past) {held : Transaction} (no_start : e.started? = none)
    (pending : d.pending = some held) (ends : e.asked.Ends held) :
    { d with pending := none }.Recalls (past ++ [e]) := by
  have nothing {t : Transaction} {since : List DockEvent} :
      ¬ StandsIn (past ++ [e]) t since := by
    intro stands
    rcases standsIn_concat.mp stands with ⟨-, starts⟩ | ⟨earlier, -, stood, -, goes_on⟩
    · rw [no_start] at starts
      cases starts
    · obtain rfl := Option.some.inj (pending.symm.trans (recalls.holds t earlier stood))
      rw [DockOperation.ends_later] at ends
      exact goes_on ends
  exact ⟨fun _ _ stands => absurd stands nothing, nofun,
    fun _ _ _ stands => absurd stands nothing⟩

/-- After a fragment the same transaction stands, further by one. -/
theorem Recalls.hand (recalls : d.Recalls past) {held : Transaction} {u : Upload} {now : Instant}
    (no_start : e.started? = none) (no_end : ¬ e.asked.Ends held)
    (handed : e.handed? = some (now, u.piece u.handedOut)) (pending : d.pending = some held)
    (loading : held.upload = some u) (more : u.handedOut < u.pieces) :
    { d with pending := some { held with activeAt := now, upload := some (u.advanced 1) } }.Recalls
      (past ++ [e]) := by
  have before {t : Transaction} {since : List DockEvent} (stands : StandsIn (past ++ [e]) t since) :
      ∃ earlier, StandsIn past t earlier ∧ held = t.later (handedIn earlier) ∧
        handedIn since = handedIn earlier ++ [(now, u.piece u.handedOut)] := by
    rcases standsIn_concat.mp stands with ⟨-, starts⟩ | ⟨earlier, rfl, stood, -, -⟩
    · rw [no_start] at starts
      cases starts
    · have own := Option.some.inj (pending.symm.trans (recalls.holds t earlier stood))
      exact ⟨earlier, stood, own, by simp [handedIn_concat, handed]⟩
  constructor
  · intro t since stands
    obtain ⟨earlier, -, rfl, same⟩ := before stands
    rw [same, Transaction.later_concat loading]
  · intro _ _
    obtain ⟨t, since, stood⟩ := recalls.stands held pending
    obtain rfl := Option.some.inj (pending.symm.trans (recalls.holds t since stood))
    rw [DockOperation.ends_later] at no_end
    exact ⟨t, since ++ [e], standsIn_concat.mpr (.inr ⟨since, rfl, stood, no_start, no_end⟩)⟩
  · intro t since whole stands loads
    obtain ⟨earlier, stood, rfl, same⟩ := before stands
    obtain ⟨pieces, bound⟩ := recalls.pieces t earlier whole stood loads
    obtain rfl : whole.advanced (handedIn earlier).length = u := by
      simpa [Transaction.later, loads] using loading
    simp only [Upload.handedOut_advanced, Upload.pieces_advanced] at more
    rw [same, List.map_append, pieces, List.length_append, List.length_singleton,
      List.range'_1_concat, List.map_append]
    exact ⟨by simp, by omega⟩

/-- Whatever is asked of a dock, the dock recalls it. There is one case for each thing that asking a
dock can come to. -/
theorem Recalls.after (recalls : d.Recalls past) (operation : DockOperation) :
    (d.after operation).Recalls (past ++ [d.event operation]) := by
  have asked := d.asked_ask operation
  unfold Dock.after event
  generalize (d.ask operation).1 = answer at asked
  generalize (d.ask operation).2 = later at asked
  cases asked with
  | started starts _ => exact .start (by simpa [DockEvent.started?] using starts)
  | refused starts _ _ =>
      refine recalls.quiet rfl ?_ ?_
      · cases operation <;> rfl
      · intro held _
        exact DockOperation.not_ends_of_starts starts
  | ended pending ends answers =>
      refine recalls.end ?_ pending ends
      rcases answers with rfl | rfl <;> rfl
  | handed asks pending loading more =>
      subst asks
      exact recalls.hand rfl not_false rfl pending loading more
  | idle no_start no_end answers =>
      refine recalls.quiet ?_ ?_ no_end
      · rcases answers with rfl | rfl | rfl <;> rfl
      · rcases answers with rfl | rfl | rfl <;> cases operation <;> rfl

/-- After every run the dock recalls its history. -/
theorem recalls_record (timeout : Span) (operations : List DockOperation) :
    (run { timeout } operations).Recalls (record { timeout } operations) := by
  induction operations using List.reverseRecOn with
  | nil => exact recalls_nil timeout
  | append_singleton earlier operation ih =>
      rw [run_append, record_append]
      exact ih.after operation

end Dock

end HubRelay
