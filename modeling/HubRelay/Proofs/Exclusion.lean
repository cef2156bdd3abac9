import HubRelay.Proofs.Dock.History

/-!
Loads and unloads exclude each other over time.

A dock has place for one transaction. Who has it, and since when it has been idle, can be read off
the history: a transaction is active when it is started and whenever one of its pieces is handed
out. Another one gets the place when it is free or when its holder has been idle for the timeout,
and not before. What is asked in the name of another transaction, or with the wrong
acknowledgement, is no activity and changes nothing.
-/

namespace HubRelay

/-- When a transaction was last active: when it was started or when its last piece was handed out,
whichever is later. It is read off the history and does not ask the dock. -/
def lastActive (t : Transaction) (since : List DockEvent) : Instant :=
  ((handedIn since).getLast?.map fun handed => max t.activeAt handed.1).getD t.activeAt

/-- The number of the piece that was handed out last. -/
def lastNumber (u : Upload) (since : List DockEvent) : Nat :=
  ((handedIn since).getLast?.map fun handed => handed.2.number).getD u.handedOut

def DockEvent.instant? (e : DockEvent) : Option Instant := e.asked.instant?

def instantsIn (past : List DockEvent) : List Instant := past.filterMap DockEvent.instant?

theorem Transaction.kind_later (t : Transaction) (handed : List (Instant × Fragment)) :
    (t.later handed).kind = t.kind := by
  simp [Transaction.kind, Transaction.later]

namespace Dock

variable {d : Dock} {operation : DockOperation} {t stood : Transaction}
  {past since : List DockEvent} {e : DockEvent} {client : ClientId} {number : TransactionNumber}
  {acknowledged : Nat} {now : Instant}

/-! ### What is asked, and what stands -/

@[simp] theorem timeout_after (d : Dock) (operation : DockOperation) :
    (d.after operation).timeout = d.timeout := by
  have asked := d.asked_ask operation
  unfold after
  generalize (d.ask operation).1 = answer at asked
  generalize (d.ask operation).2 = later at asked
  cases asked <;> rfl

@[simp] theorem timeout_run (d : Dock) (operations : List DockOperation) :
    (d.run operations).timeout = d.timeout := by
  induction operations generalizing d with
  | nil => rfl
  | cons operation rest ih => exact (ih (d.after operation)).trans (d.timeout_after operation)

/-- The place is free, or its holder was idle for long enough. -/
theorem ask_of_idle (starts : operation.starts? = some t)
    (idle : ∀ stood ∈ d.pending, d.timeout ≤ t.activeAt - stood.activeAt) :
    d.ask operation = (.started, { d with pending := some t }) := by
  have asked := d.asked_ask operation
  generalize d.ask operation = outcome at asked ⊢
  obtain ⟨answer, later⟩ := outcome
  cases asked with
  | started same _ =>
      obtain rfl := Option.some.inj (starts.symm.trans same)
      rfl
  | refused same pending busy =>
      obtain rfl := Option.some.inj (starts.symm.trans same)
      exact absurd (idle _ pending) (Nat.not_le_of_lt busy)
  | ended _ ends _ => exact absurd ends (DockOperation.not_ends_of_starts starts)
  | handed asks _ _ _ =>
      subst asks
      cases starts
  | idle no_start _ _ =>
      rw [no_start] at starts
      cases starts

/-- The holder was active too short a time ago. -/
theorem ask_of_busy (starts : operation.starts? = some t) (pending : d.pending = some stood)
    (busy : t.activeAt - stood.activeAt < d.timeout) :
    d.ask operation =
      (.refused (.transactionPending stood.kind stood.number stood.client), d) := by
  have asked := d.asked_ask operation
  generalize d.ask operation = outcome at asked ⊢
  obtain ⟨answer, later⟩ := outcome
  cases asked with
  | started same idle =>
      obtain rfl := Option.some.inj (starts.symm.trans same)
      exact absurd (idle _ pending) (Nat.not_le_of_lt busy)
  | refused _ same _ =>
      obtain rfl := Option.some.inj (pending.symm.trans same)
      rfl
  | ended _ ends _ => exact absurd ends (DockOperation.not_ends_of_starts starts)
  | handed asks _ _ _ =>
      subst asks
      cases starts
  | idle no_start _ _ =>
      rw [no_start] at starts
      cases starts

theorem ask_settle_of_other
    (other : ∀ stood ∈ d.pending, ¬ (stood.client = client ∧ stood.number = number)) :
    d.ask (.settle client number) = (.settled false, d) := by
  have foreign : ¬ d.pending.any (·.isOf client number) = true := by
    cases pending : d.pending with
    | none => simp
    | some stood => simpa [Transaction.isOf] using other stood pending
  rw [ask, settle, if_neg foreign]

theorem ask_next_of_other
    (other : ∀ stood ∈ d.pending, ∀ u, stood.upload = some u →
      ¬ (stood.client = client ∧ stood.number = number ∧ acknowledged = u.handedOut)) :
    d.ask (.next client number acknowledged now) = (.handed none, d) := by
  have asked := d.asked_next client number acknowledged now
  rw [ask_next] at asked ⊢
  cases step : d.next client number acknowledged now with
  | none => rfl
  | some handed =>
      obtain ⟨piece, later⟩ := handed
      simp only [step] at asked
      cases asked with
      | ended _ _ answers => simp at answers
      | handed asks pending loading _ =>
          obtain ⟨rfl, rfl, rfl, -⟩ := DockOperation.next.inj asks
          exact absurd ⟨rfl, rfl, rfl⟩ (other _ pending _ loading)
      | idle _ _ answers => simp at answers

/-! ### Activity over time -/

theorem instantsIn_record (d : Dock) (operations : List DockOperation) :
    instantsIn (d.record operations) = operations.filterMap DockOperation.instant? := by
  have asked := congrArg (List.filterMap DockOperation.instant?) (d.asked_record operations)
  rw [List.filterMap_map] at asked
  exact asked

theorem instant?_of_started (starts : e.started? = some t) :
    e.instant? = some t.activeAt := by
  obtain ⟨asked, answer⟩ := e
  cases answer with
  | started =>
      cases asked <;> cases starts <;> rfl
  | _ => cases starts

theorem instant?_of_handed {handed : Instant × Fragment} (same : e.handed? = some handed) :
    e.instant? = some handed.1 := by
  obtain ⟨asked, answer⟩ := e
  unfold DockEvent.handed? at same
  split at same
  · next asks _ =>
    obtain rfl := Option.some.inj same
    obtain rfl := asks
    rfl
  · cases same

theorem handed_sublist (since : List DockEvent) :
    ((handedIn since).map Prod.fst).Sublist (instantsIn since) := by
  unfold handedIn instantsIn
  induction since with
  | nil => exact .slnil
  | cons e rest ih =>
      cases handed : e.handed? with
      | none =>
          rw [List.filterMap_cons_none handed]
          cases instant : e.instant? with
          | none => rwa [List.filterMap_cons_none instant]
          | some now =>
              rw [List.filterMap_cons_some instant]
              exact ih.cons now
      | some handed =>
          rw [List.filterMap_cons_some handed, List.filterMap_cons_some (instant?_of_handed handed)]
          exact ih.cons_cons _

/-- In a history in order a transaction is not active before it is started. -/
theorem activeAt_le_handed {before : List DockEvent} {first : DockEvent}
    (ordered : (instantsIn (before ++ first :: since)).Pairwise (· ≤ ·))
    (starts : first.started? = some t) {active : Instant}
    (mem : active ∈ (handedIn since).map Prod.fst) : t.activeAt ≤ active := by
  rw [instantsIn, List.filterMap_append, List.filterMap_cons_some (instant?_of_started starts)]
    at ordered
  have tail := (List.pairwise_append.mp ordered).2.1
  exact (List.pairwise_cons.mp tail).1 active ((handed_sublist since).subset mem)

theorem activeAt_later (ordered : (instantsIn past).Pairwise (· ≤ ·))
    (stands : StandsIn past t since) :
    (t.later (handedIn since)).activeAt = lastActive t since := by
  obtain ⟨before, first, rfl, starts, -⟩ := stands
  unfold lastActive Transaction.later
  cases last : (handedIn since).getLast? with
  | none => rfl
  | some handed =>
      have mem := List.mem_map_of_mem (f := Prod.fst) (List.mem_of_getLast? last)
      simp [Nat.max_eq_right (activeAt_le_handed ordered starts mem)]

/-- Nothing that a transaction does is later than its last activity. Here the order of the history
is needed: instants may repeat, but the clock does not go back. -/
theorem le_lastActive (ordered : (instantsIn since).Pairwise (· ≤ ·)) {active : Instant}
    (mem : active ∈ t.activeAt :: (handedIn since).map Prod.fst) : active ≤ lastActive t since := by
  have sorted := ordered.sublist (handed_sublist since)
  unfold lastActive
  rcases List.eq_nil_or_concat (handedIn since) with none_handed | ⟨front, last, split⟩
  · have same := List.mem_singleton.mp (by simpa [none_handed] using mem)
    simpa [none_handed] using Nat.le_of_eq same
  · rw [List.concat_eq_append] at split
    rw [split, List.map_append] at sorted mem
    have above := (List.pairwise_append.mp sorted).2.2
    rw [split, List.getLast?_concat]
    simp only [Option.map_some, Option.getD_some]
    rcases List.mem_cons.mp mem with rfl | mem
    · exact Nat.le_max_left _ _
    · refine Nat.le_trans ?_ (Nat.le_max_right _ _)
      rcases List.mem_append.mp mem with mem | mem
      · exact above active mem last.1 (by simp)
      · exact Nat.le_of_eq (by simpa using mem)

/-! ### From the history to the dock -/

theorem Recalls.lastNumber_eq (recalls : d.Recalls past) (stands : StandsIn past t since)
    {u : Upload} (loading : t.upload = some u) :
    lastNumber u since = u.handedOut + (handedIn since).length := by
  obtain ⟨pieces, -⟩ := recalls.pieces t since u stands loading
  have numbers := congrArg (fun all => all.getLast?.map Fragment.number) pieces
  unfold lastNumber
  cases handed : handedIn since using List.reverseRecOn with
  | nil => rfl
  | append_singleton front last _ =>
      rw [handed] at numbers
      simp only [List.map_append, List.length_append, List.range'_1_concat, List.map_cons,
        List.map_nil, List.length_singleton, List.getLast?_concat, Option.map_some,
        Option.some.injEq] at numbers
      simp [numbers, Upload.piece, Nat.add_assoc]

/-- What nothing that stands answers to, the dock does not hold either. -/
theorem Recalls.forall_pending (recalls : d.Recalls past) {p : Transaction → Prop}
    (all : ∀ t since, StandsIn past t since → p (t.later (handedIn since))) :
    ∀ held ∈ d.pending, p held := by
  intro held pending
  obtain ⟨t, since, stands⟩ := recalls.stands held pending
  obtain rfl := Option.some.inj (pending.symm.trans (recalls.holds t since stands))
  exact all t since stands

/-- Between the start of a transaction and that of the one after it the timeout passes, if the first
is not ended. It passes from the last activity on, so handing out pieces puts it off. -/
theorem replaced_after {timeout : Span} {operations : List DockOperation}
    (ordered : (operations.filterMap DockOperation.instant?).Pairwise (· ≤ ·))
    {before between later : List DockEvent} {first second : DockEvent} {t' : Transaction}
    (split : record { timeout } operations = before ++ first :: (between ++ second :: later))
    (starts : first.started? = some t) (starts' : second.started? = some t')
    (quiet : ∀ e ∈ between, e.started? = none ∧ ¬ e.asked.Ends t) {active : Instant}
    (mem : active ∈ t.activeAt :: (handedIn between).map Prod.fst) :
    active + timeout ≤ t'.activeAt := by
  rw [← instantsIn_record { timeout }, split, ← List.cons_append, ← List.append_assoc, instantsIn,
    List.filterMap_append, List.filterMap_cons_some (instant?_of_started starts')] at ordered
  obtain ⟨ordered_past, -, in_order⟩ := List.pairwise_append.mp ordered
  have told : active ∈ instantsIn (before ++ first :: between) := by
    rw [instantsIn, List.filterMap_append, List.filterMap_cons_some (instant?_of_started starts)]
    apply List.mem_append_right
    rcases List.mem_cons.mp mem with rfl | mem
    · exact List.mem_cons_self
    · exact List.mem_cons_of_mem _ ((handed_sublist between).subset mem)
  have before_second : active ≤ t'.activeAt := in_order active told _ List.mem_cons_self
  have last : active ≤ lastActive t between := by
    refine le_lastActive (ordered_past.sublist ?_) mem
    exact ((List.sublist_cons_self first between).trans
      (List.sublist_append_right before _)).filterMap _
  -- The second start found the first transaction idle for the timeout.
  have idle : timeout ≤ t'.activeAt - lastActive t between := by
    rw [← List.cons_append, ← List.append_assoc] at split
    obtain ⟨earlier, operation, -, -, past, rfl⟩ := record_split split
    have stands : StandsIn (record { timeout } earlier) t between :=
      past ▸ ⟨before, first, rfl, starts, quiet⟩
    have held := (recalls_record timeout earlier).holds t between stands
    have asked := (run { timeout } earlier).asked_ask operation
    unfold event DockEvent.started? at starts'
    generalize ((run { timeout } earlier).ask operation).1 = answer at asked starts'
    generalize ((run { timeout } earlier).ask operation).2 = next at asked
    cases asked with
    | started same idle =>
        obtain rfl := Option.some.inj (starts'.symm.trans same)
        have waited := idle _ held
        rwa [activeAt_later (past ▸ ordered_past) stands, timeout_run] at waited
    | refused | handed => cases starts'
    | ended _ _ answers => rcases answers with rfl | rfl <;> cases starts'
    | idle _ _ answers => rcases answers with rfl | rfl | rfl <;> cases starts'
  exact Nat.add_le_of_le_sub' before_second (Nat.le_trans idle (Nat.sub_le_sub_left last _))

end Dock

/-- At every moment of a run in order the dock holds the transaction that stands in the history,
active since its last activity, or nothing. A load or an unload is started exactly if nothing stands
or what stands has been idle for the timeout; otherwise it is told what stands, and nothing changes.
So a transaction that nobody ended gives way only after the timeout has passed without any activity
of it. Ending another transaction, asking for a piece of another one or with the wrong
acknowledgement changes nothing. -/
theorem loads_and_unloads_exclude (timeout : Span) (operations : List DockOperation)
    (ordered : (operations.filterMap DockOperation.instant?).Pairwise (· ≤ ·)) :
    let d := Dock.run { timeout } operations
    let past := Dock.record { timeout } operations
    ((∀ t since, StandsIn past t since → ∃ held, d.pending = some held ∧ held.kind = t.kind ∧
          held.number = t.number ∧ held.client = t.client ∧
          held.activeAt = lastActive t since) ∧
        ((∀ t since, ¬ StandsIn past t since) → d.pending = none)) ∧
      (∀ operation t, operation.starts? = some t →
        ((∀ stood since, StandsIn past stood since →
            timeout ≤ t.activeAt - lastActive stood since) →
          d.ask operation = (.started, { d with pending := some t })) ∧
        ∀ stood since, StandsIn past stood since →
          t.activeAt - lastActive stood since < timeout →
          d.ask operation =
            (.refused (.transactionPending stood.kind stood.number stood.client), d)) ∧
      (∀ before first t between second t' later,
        past = before ++ first :: (between ++ second :: later) →
        first.started? = some t → second.started? = some t' →
        (∀ e ∈ between, e.started? = none ∧ ¬ e.asked.Ends t) →
        ∀ active ∈ t.activeAt :: (handedIn between).map Prod.fst,
          active + timeout ≤ t'.activeAt) ∧
      (∀ client number,
        (∀ t since, StandsIn past t since → ¬ (t.client = client ∧ t.number = number)) →
        d.ask (.settle client number) = (.settled false, d)) ∧
      ∀ client number acknowledged now,
        (∀ t since u, StandsIn past t since → t.upload = some u →
          ¬ (t.client = client ∧ t.number = number ∧ acknowledged = lastNumber u since)) →
        d.ask (.next client number acknowledged now) = (.handed none, d) := by
  have recalls := Dock.recalls_record timeout operations
  have active {t : Transaction} {since : List DockEvent}
      (stands : StandsIn (Dock.record { timeout } operations) t since) :
      (t.later (handedIn since)).activeAt = lastActive t since :=
    Dock.activeAt_later (by rwa [Dock.instantsIn_record]) stands
  refine ⟨⟨?held, ?free⟩, ?started, ?replaced, ?settled, ?handed⟩
  case held =>
    intro t since stands
    exact ⟨_, recalls.holds t since stands, Transaction.kind_later t _, rfl, rfl, active stands⟩
  case free =>
    intro nothing
    apply Option.eq_none_iff_forall_ne_some.mpr
    intro held pending
    obtain ⟨t, since, stands⟩ := recalls.stands held pending
    exact nothing t since stands
  -- What the dock holds is what stands, so the guard of the dock can be read off the history.
  case started =>
    intro operation t starts
    constructor
    · intro idle
      apply Dock.ask_of_idle starts
      refine recalls.forall_pending (p := fun held => _ ≤ t.activeAt - held.activeAt) ?_
      intro stood since stands
      simpa [active stands] using idle stood since stands
    · intro stood since stands busy
      have refused := Dock.ask_of_busy starts (recalls.holds stood since stands)
        (by simpa [active stands] using busy)
      rwa [Transaction.kind_later] at refused
  case replaced =>
    intro before first t between second t' later split starts starts' quiet instant mem
    exact Dock.replaced_after ordered split starts starts' quiet mem
  case settled =>
    intro client number other
    exact Dock.ask_settle_of_other (recalls.forall_pending other)
  case handed =>
    intro client number acknowledged now other
    apply Dock.ask_next_of_other
    intro held pending u loading
    obtain ⟨t, since, stands⟩ := recalls.stands held pending
    -- The dock holds the transaction as its pieces have left it; its number and client are those of
    -- the start.
    obtain rfl := Option.some.inj (pending.symm.trans (recalls.holds t since stands))
    rintro ⟨own, same, acknowledges⟩
    obtain ⟨whole, loads, rfl⟩ := Option.map_eq_some_iff.mp loading
    refine other t since whole stands loads ⟨own, same, ?_⟩
    rw [acknowledges, recalls.lastNumber_eq stands loads, Upload.handedOut_advanced]

/-- A run in which a load is handed out one piece, is then asked for in the name of another client
and for the same piece again. -/
def DockOperation.interference : List DockOperation :=
  let info : ProgramInfo :=
    { transaction := 8, appId := 1, appVersion := 1, appFlags := 0, apiVersion := 1 }
  [.startLoad 2 (.ofBinary info [1, 2, 3] 2) 0, .next 2 8 0 3, .settle 3 8, .next 2 8 0 4]

/-- The load was active at 3, so that an unload is refused at 7 and started at 8. -/
theorem loads_and_unloads_exclude_interference :
    let d := Dock.run { timeout := 5 } DockOperation.interference
    (DockOperation.interference.filterMap DockOperation.instant?).Pairwise (· ≤ ·) ∧
      (d.ask (.startUnload 3 9 7)).1 = .refused (.transactionPending .load 8 2) ∧
      (d.ask (.startUnload 3 9 8)).1 = .started := by
  intro d
  have ordered :
      (DockOperation.interference.filterMap DockOperation.instant?).Pairwise (· ≤ ·) := by decide
  have holder : d.pending.map (fun held => (held.kind, held.number, held.client, held.activeAt)) =
      some (.load, 8, 2, 3) := by decide
  obtain ⟨⟨held, free⟩, attempt, -⟩ := loads_and_unloads_exclude 5 _ ordered
  have active {t : Transaction} {since : List DockEvent}
      (stands : StandsIn (Dock.record { timeout := 5 } DockOperation.interference) t since) :
      t.kind = .load ∧ t.number = 8 ∧ t.client = 2 ∧ lastActive t since = 3 := by
    obtain ⟨h, pending, kind, number, client, instant⟩ := held t since stands
    rw [pending] at holder
    simpa [kind, number, client, instant] using holder
  obtain ⟨t, since, stands⟩ :
      ∃ t since, StandsIn (Dock.record { timeout := 5 } DockOperation.interference) t since := by
    by_contra nothing
    push Not at nothing
    rw [free nothing] at holder
    cases holder
  obtain ⟨kind, number, client, instant⟩ := active stands
  have refused := (attempt (.startUnload 3 9 7) _ rfl).2 t since stands (by simp [instant])
  have started := (attempt (.startUnload 3 9 8) _ rfl).1 fun stood since stands => by
    simp [(active stands).2.2.2]
  rw [kind, number, client] at refused
  exact ⟨ordered, congrArg Prod.fst refused, congrArg Prod.fst started⟩

end HubRelay
