import HubRelay.Proofs.Dispatch

/-!
An operation that nothing comes between.

From its start on all moves are its own: no other operation starts or goes on, whether on behalf of
another caller or because the transport calls back. `Session.holds_alone` is the induction over such
runs.
-/

namespace HubRelay

namespace Session

/-- An operation starts, and goes on with these answers before anything else moves. The answers are
those of a transport and of the clock by which a blocked caller looks. -/
def alone (s : Session) (operation : Operation) (now : Instant)
    (answers : List (Reply × Instant)) : List Move :=
  .start operation now :: answers.map fun answer => .resume s.started answer.1 answer.2

/-- The operation that started in `s` has come to `s'` alone. Its last move is `e`, and `offers` are
the frames that it has offered. -/
structure Alone (s : Session) (e : Entry) (offers : List Offering) (s' : Session) : Prop where
  own : e.operation = s.started
  last : s'.history.head? = some e
  offers : s'.history.offers = offers ++ s.history.offers
  exchange : s'.exchange = e.after
  tasks : s'.tasks = e.tasks ++ s.tasks

variable {s s₁ s₂ : Session} {e : Entry} {offers : List Offering}

theorem alone_start (s : Session) (operation : Operation) (now : Instant) :
    s.Alone (s.entry operation now (s.exchange.start operation now))
      (s.exchange.start operation now).2.offers (s.start operation now) where
  own := rfl
  last := rfl
  offers := rfl
  exchange := rfl
  tasks := s.tasks_record _ _ _ _ _ _

/-- An operation that is through makes no more moves; one that waits goes on. -/
theorem Alone.resume (alone : s.Alone e offers s₁) (orderly : s.Orderly) {reply : Reply}
    {now : Instant} (stepped : s₁.step (.resume s.started reply now) = some s₂) :
    ∃ activity e', e.progress = .waiting activity ∧
      e.after.proceed activity reply now = some (e'.after, e'.progress) ∧
      s.Alone e' (e'.progress.offers ++ offers) s₂ := by
  have others : s.tasks.find? (·.id == s.started) = none := by
    refine List.find?_eq_none.mpr fun task mem => ?_
    simpa using Nat.ne_of_lt (orderly.old task mem)
  obtain ⟨task, found, resumed⟩ := Option.bind_eq_some_iff.mp stepped
  rw [alone.tasks, Entry.tasks] at found
  cases progress : e.progress with
  | finished outcome =>
      rw [progress, List.nil_append, others] at found
      cases found
  | waiting activity =>
      rw [progress, List.singleton_append, List.find?_cons_of_pos (by simp [alone.own])] at found
      obtain rfl := Option.some.inj found
      obtain ⟨segment, proceeds, rfl⟩ := Option.map_eq_some_iff.mp resumed
      rw [alone.exchange] at proceeds
      refine ⟨activity, s₁.reentry ⟨e.operation, e.found, activity⟩ reply now segment, rfl,
        proceeds,
        { own := alone.own
          last := rfl
          offers := ?_
          exchange := rfl
          tasks := ?_ }⟩
      · rw [List.append_assoc, ← alone.offers]
        rfl
      · have rest : s₁.tasks.filter (·.id != e.operation) = s.tasks := by
          rw [alone.tasks, Entry.tasks, progress, List.singleton_append,
            List.filter_cons_of_neg (by simp)]
          refine List.filter_eq_self.mpr fun task mem => ?_
          rw [alone.own]
          exact bne_iff_ne.mpr (Nat.ne_of_lt (orderly.old task mem))
        exact (s₁.tasks_record _ _ _ _ _ _).trans (congrArg _ rest)

/-- An operation that waits can go on. -/
theorem Alone.exists_step (alone : s.Alone e offers s₁) {activity : Activity} {reply : Reply}
    {now : Instant} {segment : Segment} (progress : e.progress = .waiting activity)
    (proceeds : e.after.proceed activity reply now = some segment) :
    ∃ s₂, s₁.step (.resume s.started reply now) = some s₂ ∧ s₂.exchange = segment.1 ∧
      s₂.history.head?.map Entry.progress = some segment.2 := by
  have found : s₁.tasks.find? (·.id == s.started) = some ⟨e.operation, e.found, activity⟩ := by
    rw [alone.tasks, Entry.tasks, progress, List.singleton_append,
      List.find?_cons_of_pos (by simp [alone.own])]
  rw [← alone.exchange] at proceeds
  have resumed : s₁.resume ⟨e.operation, e.found, activity⟩ reply now = some _ :=
    congrArg (Option.map _) proceeds
  exact ⟨_, (congrArg (Option.bind · (s₁.resume · reply now)) found).trans resumed, rfl, rfl⟩

/-- What holds of the first segment of an operation, and is kept whenever it goes on, holds of where
it stands as long as nothing comes between. The induction is on the answers. -/
theorem holds_alone {P : Segment → List Offering → Prop} {operation : Operation} {now : Instant}
    {answers : List (Reply × Instant)} {s' : Session} (orderly : s.Orderly)
    (starts : P (s.exchange.start operation now) (s.exchange.start operation now).2.offers)
    (goesOn : ∀ {x : Exchange} {activity : Activity} {offers : List Offering} {reply : Reply}
      {now : Instant} {segment : Segment}, P (x, .waiting activity) offers →
        x.proceed activity reply now = some segment → P segment (segment.2.offers ++ offers))
    (ran : s.run (s.alone operation now answers) = some s') :
    ∃ e offers, s.Alone e offers s' ∧ P (e.after, e.progress) offers := by
  have later {answers : List (Reply × Instant)} {s₁ : Session} {e : Entry}
      {offers : List Offering} (alone : s.Alone e offers s₁)
      (holds : P (e.after, e.progress) offers)
      (ran : s₁.run (answers.map fun answer => .resume s.started answer.1 answer.2) = some s') :
      ∃ e offers, s.Alone e offers s' ∧ P (e.after, e.progress) offers := by
    induction answers generalizing s₁ e offers with
    | nil =>
        obtain rfl := Option.some.inj ran
        exact ⟨e, offers, alone, holds⟩
    | cons answer answers ih =>
        obtain ⟨s₂, stepped, rest⟩ := Option.bind_eq_some_iff.mp ran
        obtain ⟨activity, e', progress, proceeds, alone'⟩ := alone.resume orderly stepped
        rw [progress] at holds
        exact ih alone' (goesOn holds proceeds) rest
  exact later (s.alone_start operation now) starts ran

end Session

end HubRelay
