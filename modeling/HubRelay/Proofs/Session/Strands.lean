import HubRelay.Proofs.Session.Moves

/-!
The moves of one operation.

Between two moves of an operation others may move. Taken by itself, the operation is a strand: it
begins, and every later move goes on from what the one before it waits for.
-/

namespace HubRelay

namespace History

/-- The moves of an operation, the last one first. -/
def moves (id : OperationId) (h : History) : History := h.filter (·.operation = id)

variable {id : OperationId} {e : Entry} {h : History}

theorem moves_cons_of_eq (own : e.operation = id) : moves id (e :: h) = e :: h.moves id :=
  List.filter_cons_of_pos (decide_eq_true own)

theorem moves_cons_of_ne (other : e.operation ≠ id) : moves id (e :: h) = h.moves id :=
  List.filter_cons_of_neg (by simpa using other)

theorem mem_moves : e ∈ h.moves id ↔ e ∈ h ∧ e.operation = id := by
  simp [moves]

/-- The moves of an operation that began with the move `b`. The last one stands first. Nothing is
said of what the state was in between, since others may have moved then. -/
inductive Strand (b : Entry) : History → Prop where
  | begun : Strand b [b]
  | goesOn {e latest : Entry} {earlier : History} {activity : Activity} {reply : Reply} :
      Strand b (latest :: earlier) → latest.progress = .waiting activity →
      e.turn = .goesOn activity reply → Strand b (e :: latest :: earlier)

/-- Every move of a strand but the last one left something to wait for. -/
theorem Strand.waited {b latest : Entry} {earlier : History}
    (strand : Strand b (latest :: earlier)) :
    ∀ e ∈ earlier, ∃ activity, e.progress = .waiting activity := by
  generalize same : latest :: earlier = h at strand
  induction strand generalizing latest earlier with
  | begun =>
      obtain ⟨-, rfl⟩ := List.cons.inj same
      exact fun _ mem => (List.not_mem_nil mem).elim
  | goesOn _ waits _ ih =>
      obtain ⟨-, rfl⟩ := List.cons.inj same
      rintro e (_ | ⟨_, mem⟩)
      · exact ⟨_, waits⟩
      · exact ih rfl e mem

end History

namespace Session

variable {s s' : Session} {b e : Entry} {settings : Settings}

/-- The moves of an operation are a strand, and the operation is under way exactly while the last of
them left something to wait for. -/
structure Strung (s : Session) (b : Entry) : Prop where
  strand : History.Strand b (s.history.moves b.operation)
  under : ∀ task ∈ s.tasks, task.id = b.operation → ∃ latest earlier,
    s.history.moves b.operation = latest :: earlier ∧ latest.progress = .waiting task.activity
  waits : ∀ {latest : Entry} {earlier : History} {activity : Activity},
    s.history.moves b.operation = latest :: earlier → latest.progress = .waiting activity →
      ∃ task ∈ s.tasks, task.id = b.operation ∧ task.activity = activity

theorem Moved.exists_task (moved : s.Moved s' e) {activity : Activity}
    (waits : e.progress = .waiting activity) :
    ∃ task ∈ s'.tasks, task.id = e.operation ∧ task.activity = activity := by
  have mine : (⟨e.operation, e.found, activity⟩ : Task) ∈ e.tasks := by
    simp [Entry.tasks, waits]
  exact ⟨_, moved.mem_tasks mine, rfl, rfl⟩

theorem Moved.strung_of_begins (moved : s.Moved s' b) (orderly : s.Orderly)
    {operation : Operation} (turn : b.turn = .begins operation) : s'.Strung b := by
  have fresh : b.operation = s.started := by
    cases moved.mover with
    | starts _ fresh => exact fresh
    | resumes _ goesOn =>
        rw [turn] at goesOn
        cases goesOn
  have older : s.history.moves b.operation = [] := by
    apply List.filter_eq_nil_iff.mpr
    intro e mem
    have less := orderly.entries e mem
    rw [← fresh] at less
    simpa using Nat.ne_of_lt less
  have moves : s'.history.moves b.operation = [b] := by
    rw [moved.history, History.moves_cons_of_eq rfl, older]
  constructor
  · rw [moves]
    exact .begun
  · intro task mem own
    rcases moved.task_cases orderly mem with mine | ⟨-, other⟩
    · exact ⟨b, [], moves, (moved.task_id mine).2.2⟩
    · exact absurd own other
  · intro latest earlier activity same waits
    rw [moves] at same
    obtain ⟨rfl, -⟩ := List.cons.inj same
    exact moved.exists_task waits

theorem Strung.step (strung : s.Strung b) (moved : s.Moved s' e) (orderly : s.Orderly)
    (old : b.operation < s.started) : s'.Strung b := by
  -- A move of the operation itself goes on from its latest move; any other is not in the strand.
  by_cases own : e.operation = b.operation
  · have moves : s'.history.moves b.operation = e :: s.history.moves b.operation := by
      rw [moved.history, History.moves_cons_of_eq own]
    constructor
    · cases moved.mover with
      | starts _ fresh =>
          rw [← own, fresh] at old
          exact absurd old (Nat.lt_irrefl _)
      | @resumes task reply mem goesOn id =>
          obtain ⟨latest, earlier, same, waits⟩ := strung.under task mem (id.symm.trans own)
          have strand := strung.strand
          rw [moves, same]
          rw [same] at strand
          exact strand.goesOn waits goesOn
    · intro task mem same
      rcases moved.task_cases orderly mem with mine | ⟨-, other⟩
      · exact ⟨e, _, moves, (moved.task_id mine).2.2⟩
      · exact absurd (same.trans own.symm) other
    · intro latest earlier activity same waits
      rw [moves] at same
      obtain ⟨rfl, -⟩ := List.cons.inj same
      rw [← own]
      exact moved.exists_task waits
  · have moves : s'.history.moves b.operation = s.history.moves b.operation := by
      rw [moved.history, History.moves_cons_of_ne own]
    constructor
    · rw [moves]
      exact strung.strand
    · intro task mem same
      rw [moves]
      rcases moved.task_cases orderly mem with mine | ⟨under, -⟩
      · exact absurd ((moved.task_id mine).1.symm.trans same) own
      · exact strung.under task under same
    · intro latest earlier activity same waits
      rw [moves] at same
      obtain ⟨task, mem, mine, waits⟩ := strung.waits same waits
      refine ⟨task, moved.mem_tasks_of_other mem ?_, mine, waits⟩
      rw [mine]
      exact Ne.symm own

theorem Reachable.strung (reached : Reachable settings s) (mem : b ∈ s.history)
    {operation : Operation} (turn : b.turn = .begins operation) : s.Strung b := by
  induction reached with
  | fresh => cases mem
  | step before stepped ih =>
      obtain ⟨e, moved⟩ := moved_of_step stepped
      rw [moved.history] at mem
      rcases List.mem_cons.mp mem with rfl | mem
      · exact moved.strung_of_begins before.orderly turn
      · exact (ih mem).step moved before.orderly (before.orderly.entries b mem)

/-- What every move of a run brings about holds of the moves in its history. -/
theorem Reachable.of_mem {P : Entry → Prop} (reached : Reachable settings s)
    (brings : ∀ {s s' : Session} {e : Entry}, Reachable settings s → s.Moved s' e → P e)
    (mem : e ∈ s.history) : P e := by
  induction reached with
  | fresh => cases mem
  | step before stepped ih =>
      obtain ⟨n, moved⟩ := moved_of_step stepped
      rw [moved.history] at mem
      rcases List.mem_cons.mp mem with rfl | mem
      · exact brings before moved
      · exact ih mem

end Session

end HubRelay
