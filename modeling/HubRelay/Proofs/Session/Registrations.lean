import HubRelay.Proofs.Belonging

/-!
The registration at a handle in the course of a run.

Serial numbers only grow, so a registration that has gone does not come back
(`Session.Reachable.find?_iff`). `Session.Reachable.asked_of_begun` leads from a request back to the
moment when its sender looked its endpoint up.
-/

namespace HubRelay

/-- The endpoint at `handle` was unregistered. -/
def Entry.dismisses (e : Entry) (handle : Handle) : Bool :=
  match e.turn, e.progress with
  | .begins (.unregister gone), .finished (.unregistered true) => gone == handle
  | _, _ => false

/-! ### One move -/

/-- What a move does to the directory. -/
inductive Entry.Registers (e : Entry) : Prop where
  | same : e.after.directory = e.before.directory → (∀ h, e.dismisses h = false) → Registers e
  | enrolled {handle : Handle} {descriptor : Descriptor} {endpoint : Endpoint} :
      e.before.directory.find? handle = none →
      e.after.directory = e.before.directory.place handle descriptor endpoint →
      (∀ h, e.dismisses h = false) → Registers e
  | dismissed {handle : Handle} {r : Registration} :
      e.before.directory.unregister handle = some (r, e.after.directory) →
      (∀ h, e.dismisses h = (handle == h)) → Registers e

namespace Entry

variable {e : Entry} {handle : Handle} {r : Registration}

theorem dismisses_of_steady (steady : e.restarts handle = false) : e.dismisses handle = false := by
  unfold restarts at steady
  unfold dismisses
  split
  · rename_i turn progress
    rw [turn, progress] at steady
    exact steady
  · rfl

theorem registers (deed : Deed e.before e.now e.turn (e.after, e.progress)) : e.Registers := by
  obtain ⟨operation, found, turn, now, before, after, progress⟩ := e
  simp only at deed
  have unchanged {turn : Turn} {p : Progress} {later : Exchange}
      (same : later.directory = before.directory)
      (steady : ∀ h,
        (⟨operation, found, turn, now, before, later, p⟩ : Entry).dismisses h = false) :
      Entry.Registers ⟨operation, found, turn, now, before, later, p⟩ := .same same steady
  cases deed with
  | idle idle =>
      exact unchanged rfl fun h => dismisses_of_steady (Entry.restarts_of_idle idle h)
  | enrolled registered =>
      obtain ⟨free, place⟩ := Directory.free_of_register registered
      exact .enrolled free place fun h => rfl
  | enrolledAt registered =>
      obtain ⟨free, place⟩ := Directory.free_of_registerAt registered
      exact .enrolled free place fun h => rfl
  | dismissed gone => exact .dismissed gone fun h => rfl
  | slotWait places | sent places | sentAwaiting places =>
      exact unchanged rfl fun h =>
        dismisses_of_steady (Entry.restarts_of_routine places.routine h)
  | waits awaits | mailed awaits | gaveUp awaits | overdue awaits =>
      exact unchanged rfl fun h =>
        dismisses_of_steady (Entry.restarts_of_routine awaits.routine h)
  | closed closes =>
      exact unchanged rfl fun h =>
        dismisses_of_steady (Entry.restarts_of_routine closes.routine h)
  | _ => exact unchanged rfl fun h => rfl

theorem issued_le (registers : e.Registers) :
    e.before.directory.issued ≤ e.after.directory.issued := by
  cases registers with
  | same same => exact Nat.le_of_eq (congrArg Directory.issued same.symm)
  | enrolled free place => rw [place]; exact Nat.le_succ _
  | dismissed gone =>
      obtain ⟨_, -, same⟩ := Option.map_eq_some_iff.mp gone
      exact Nat.le_of_eq (congrArg (·.2.issued) same)

/-- Whoever stands at a handle after a move stood there before, or has just been given its serial
number. -/
theorem find?_cases (registers : e.Registers) (stands : e.after.directory.find? handle = some r) :
    (e.before.directory.find? handle = some r ∧ e.dismisses handle = false) ∨
      r.serial = e.before.directory.issued ∧
        e.after.directory.issued = e.before.directory.issued + 1 := by
  cases registers with
  | same same steady =>
      rw [same] at stands
      exact .inl ⟨stands, steady handle⟩
  | enrolled free place steady =>
      rw [place, Directory.find?_place] at stands
      split at stands
      · obtain rfl := Option.some.inj stands
        exact .inr ⟨rfl, by rw [place]; rfl⟩
      · exact .inl ⟨stands, steady handle⟩
  | @dismissed gone _ dismissed goes =>
      by_cases here : gone = handle
      · subst here
        obtain ⟨_, -, same⟩ := Option.map_eq_some_iff.mp dismissed
        rw [← (Prod.mk.inj same).2] at stands
        have erased := (Table.find?_erase e.before.directory.table gone gone).trans (if_pos rfl)
        cases erased.symm.trans stands
      · rw [Directory.find?_of_unregister dismissed here] at stands
        exact .inl ⟨stands, by rw [goes]; simpa using here⟩

/-- Nobody leaves a handle without being unregistered. -/
theorem find?_of_stays (registers : e.Registers) (stands : e.before.directory.find? handle = some r)
    (stays : e.dismisses handle = false) : e.after.directory.find? handle = some r := by
  cases registers with
  | same same =>
      rw [same]
      exact stands
  | enrolled free place =>
      rw [place, Directory.find?_place, if_neg, stands]
      rintro rfl
      rw [stands] at free
      cases free
  | dismissed dismissed goes =>
      rw [goes, beq_eq_false_iff_ne] at stays
      exact (Directory.find?_of_unregister dismissed stays).trans stands

end Entry

/-! ### Runs -/

namespace Session

variable {s s' : Session} {e : Entry} {settings : Settings}

theorem Moved.registers (moved : s.Moved s' e) : e.Registers := Entry.registers moved.deed

/-- Serial numbers that are or were in use have been given out. So the number that comes next is
new, and it tells the registration that gets it from all that stood anywhere before. -/
structure Serial (s : Session) : Prop where
  current : ∀ handle r, s.exchange.directory.find? handle = some r →
    r.serial < s.exchange.directory.issued
  former : ∀ e ∈ s.history, ∀ handle r, e.before.directory.find? handle = some r →
    r.serial < s.exchange.directory.issued

/-- The first endpoint of an exchange bears a number that was given out. -/
theorem serial_registerAt {x : Exchange} (empty : ∀ h, x.directory.find? h = none) (wish : Handle)
    (descriptor : Descriptor) (endpoint : Endpoint) {handle : Handle} {r : Registration}
    (stands : (x.registerAt wish descriptor endpoint).1.directory.find? handle = some r) :
    r.serial < (x.registerAt wish descriptor endpoint).1.directory.issued := by
  unfold Exchange.registerAt at stands ⊢
  split at stands
  · rename_i taken directory registered
    obtain ⟨-, rfl⟩ := Directory.free_of_registerAt registered
    rw [Directory.find?_place] at stands
    split at stands
    · obtain rfl := Option.some.inj stands
      exact Nat.lt_succ_self _
    · rw [empty] at stands
      cases stands
  · rw [empty] at stands
    cases stands

theorem serial_ofSettings (settings : Settings) {handle : Handle} {r : Registration}
    (stands : (Exchange.ofSettings settings).directory.find? handle = some r) :
    r.serial < (Exchange.ofSettings settings).directory.issued := by
  obtain ⟨x, empty, shape⟩ : ∃ x : Exchange, (∀ h, x.directory.find? h = none) ∧
      Exchange.ofSettings settings =
        if settings.echo then (x.registerAt Echo.handle Echo.serviceDescriptor .echo).1 else x :=
    ⟨{ settings, directory := .ofCapacity settings.maxEndpoints }, fun _ => rfl, rfl⟩
  rw [shape] at stands ⊢
  cases echo : settings.echo with
  | true =>
      rw [echo, if_pos rfl] at stands
      exact serial_registerAt empty _ _ _ stands
  | false =>
      rw [echo, if_neg Bool.false_ne_true, empty] at stands
      cases stands

theorem Reachable.serial (reached : Reachable settings s) : s.Serial := by
  refine reached.holds ⟨fun _ _ stands => serial_ofSettings settings stands, ?_⟩ ?_
  · intro e mem
    cases mem
  intro s s' e _ moved serial
  have more := Entry.issued_le moved.registers
  rw [← moved.after, moved.before] at more
  constructor
  · intro handle r stands
    rw [moved.after] at stands more ⊢
    rcases Entry.find?_cases moved.registers stands with ⟨stood, -⟩ | ⟨new, issued⟩
    · rw [moved.before] at stood
      exact Nat.lt_of_lt_of_le (serial.current handle r stood) more
    · rw [new, issued]
      exact Nat.lt_succ_self _
  · intro entry mem handle r stood
    rw [moved.history] at mem
    refine Nat.lt_of_lt_of_le ?_ more
    rcases List.mem_cons.mp mem with rfl | mem
    · rw [moved.before] at stood
      exact serial.current handle r stood
    · exact serial.former entry mem handle r stood

/-- What a move does to a registration with a number that was given out before. -/
theorem Moved.find?_iff (moved : s.Moved s' e) {handle : Handle} {r : Registration}
    (old : r.serial < s.exchange.directory.issued) :
    s'.exchange.directory.find? handle = some r ↔
      s.exchange.directory.find? handle = some r ∧ e.dismisses handle = false := by
  rw [moved.after, ← moved.before]
  constructor
  · intro stands
    refine (Entry.find?_cases moved.registers stands).resolve_right ?_
    rintro ⟨new, -⟩
    rw [moved.before] at new
    exact Nat.ne_of_lt old new
  · rintro ⟨stands, stays⟩
    exact Entry.find?_of_stays moved.registers stands stays

/-- A registration stays at its handle exactly as long as the handle is not unregistered. It cannot
come back, since the next one at the handle has another serial number. -/
theorem Reachable.find?_iff (reached : Reachable settings s) {recent past : History}
    (split : s.history = recent ++ e :: past) {handle : Handle} {r : Registration}
    (stood : e.before.directory.find? handle = some r) :
    s.exchange.directory.find? handle = some r ↔
      ∀ m ∈ recent ++ [e], m.dismisses handle = false := by
  refine reached.since (P := fun recent s => s.exchange.directory.find? handle = some r ↔
    ∀ m ∈ recent ++ [e], m.dismisses handle = false) split ?_ ?_
  · intro s s' before _ moved _
    rw [moved.before] at stood
    rw [moved.find?_iff (before.serial.current handle r stood)]
    simp [stood]
  · intro recent s s' n before _ split moved stays
    have mem : e ∈ s.history := split ▸ List.mem_append_right _ List.mem_cons_self
    rw [moved.find?_iff (before.serial.former e mem handle r stood), stays]
    simp [and_comm]

/-- Every entry of a history was left by a move of that run. -/
theorem Reachable.moved_of_split (reached : Reachable settings s) {recent past : History}
    (split : s.history = recent ++ e :: past) :
    ∃ s₀ s₁, Reachable settings s₀ ∧ Reachable settings s₁ ∧ s₀.Moved s₁ e ∧ s₀.history = past := by
  refine reached.since (P := fun _ _ => ∃ s₀ s₁, Reachable settings s₀ ∧ Reachable settings s₁ ∧
    s₀.Moved s₁ e ∧ s₀.history = past) split ?_ ?_
  · intro s s' before after moved same
    exact ⟨s, s', before, after, moved, same⟩
  · intro _ _ _ _ _ _ _ _ found
    exact found

end Session

/-! ### Who asked for a request -/

/-- An operation started here, and looked its endpoint up. What it has found is kept with it and is
not refreshed later. -/
structure Entry.Starts (e : Entry) (id : OperationId) (found : Option Registration)
    (operation : Operation) : Prop where
  turn : e.turn = .begins operation
  mover : e.operation = id
  finds : e.found = found
  looked : found = operation.handle?.bind e.before.directory.find?

namespace Session

variable {s s' : Session} {e : Entry} {settings : Settings}

/-- Every operation under way has started, one that waits for a slot with an order for it. -/
def Traced (s : Session) : Prop :=
  ∀ task ∈ s.tasks, ∃ e ∈ s.history, ∃ operation, e.Starts task.id task.found operation ∧
    ∀ wait, task.activity = .blocked (.slot wait) →
      operation.handle? = some wait.order.handle

theorem Moved.starts_of_begins (moved : s.Moved s' e) {operation : Operation}
    (turn : e.turn = .begins operation) : e.Starts e.operation e.found operation :=
  ⟨turn, rfl, rfl, moved.found_of_begins turn⟩

/-- The start of the operation that makes a move; it is the move itself or lies before it. -/
theorem Moved.started (moved : s.Moved s' e) (traced : s.Traced) :
    ∃ e' ∈ s'.history, ∃ operation, e'.Starts e.operation e.found operation ∧
      ∀ role order, e.turn.Places e.before role order → operation.handle? = some order.handle := by
  rw [moved.history]
  generalize turn : e.turn = t
  cases moved.mover with
  | @starts operation begins =>
      refine ⟨e, List.mem_cons_self, operation, moved.starts_of_begins begins, ?_⟩
      intro role order places
      rw [← turn, begins] at places
      cases places with
      | started ordered => exact Operation.handle?_of_order? ordered
  | @resumes task reply mem goesOn id found =>
      obtain ⟨e', mem', operation, starts, orders⟩ := traced task mem
      rw [id, found]
      refine ⟨e', List.mem_cons_of_mem _ mem', operation, starts, ?_⟩
      intro role order places
      rw [← turn, goesOn] at places
      generalize activity : task.activity = a at places
      cases places with
      | resumed => exact orders _ activity

theorem Reachable.traced (reached : Reachable settings s) : s.Traced := by
  refine reached.holds ?_ ?_
  · intro task mem
    cases mem
  · intro s s' e before moved traced task mem
    rcases moved.task_cases before.orderly mem with mine | ⟨other, -⟩
    · obtain ⟨id, found, progress⟩ := moved.task_id mine
      obtain ⟨e', mem', operation, starts, orders⟩ := moved.started traced
      rw [id, found]
      refine ⟨e', mem', operation, starts, ?_⟩
      intro wait activity
      have deed := moved.deed
      rw [progress, activity] at deed
      exact orders _ _ deed.places_of_slotWait
    · obtain ⟨e', mem', rest⟩ := traced task other
      rw [moved.history]
      exact ⟨e', List.mem_cons_of_mem _ mem', rest⟩

/-- Whoever begins a request has found its endpoint when it asked. -/
theorem Moved.asked (moved : s.Moved s' e) (wf : s.exchange.ledger.WellFormed)
    (informed : s.Informed) (traced : s.Traced) {key : RequestKey} (begun : key ∈ e.begun) :
    ∃ e' ∈ s'.history, ∃ operation r, e'.Starts e.operation (some r) operation ∧
      e'.before.directory.find? key.handle = some r := by
  rcases (moved.sound wf).begun_cases with none | ⟨role, order, places, -, -, -, one⟩
  · rw [none] at begun
    cases begun
  · obtain ⟨r, found, -⟩ := moved.found_of_places informed places
    obtain ⟨e', mem, operation, starts, orders⟩ := moved.started traced
    rw [one] at begun
    obtain rfl := List.mem_singleton.mp begun
    have looked := starts.looked
    rw [orders role order places, found] at looked
    rw [found] at starts
    exact ⟨e', mem, operation, r, starts, looked.symm⟩

theorem Reachable.asked_of_begun (reached : Reachable settings s) {id : OperationId}
    {key : RequestKey} (begun : (id, key) ∈ s.history.begun) :
    ∃ e ∈ s.history, ∃ operation r, e.Starts id (some r) operation ∧
      e.before.directory.find? key.handle = some r := by
  induction reached with
  | fresh => cases begun
  | step before stepped ih =>
      obtain ⟨m, moved⟩ := moved_of_step stepped
      rw [moved.history] at begun
      rcases List.mem_append.mp begun with begun | begun
      · obtain ⟨key', mem, same⟩ := List.mem_map.mp begun
        obtain ⟨rfl, rfl⟩ := Prod.mk.inj same
        exact moved.asked before.accounted.wellFormed before.informed before.traced mem
      · obtain ⟨e, mem, rest⟩ := ih begun
        rw [moved.history]
        exact ⟨e, List.mem_cons_of_mem _ mem, rest⟩

end Session

end HubRelay
