import HubRelay.Proofs.Session.Blocked

/-!
Nobody waits in vain.

A caller in the table waits for a request that is pending, or for a response that an operation under
way has yet to hand over (`Session.Expecting`). The endpoint of the request stands for as long as
the caller waits, so no scan passes it over.
-/

namespace HubRelay

/-! ### Senders that wait for their slots -/

namespace Exchange

variable {x y : Exchange} {role : Role} {order : Order} {now : Instant} {wait : SlotWait}

theorem beginRequest_ne_slotWait :
    x.beginRequest role order now ≠ (y, .waiting (.blocked (.slot wait))) := by
  unfold beginRequest
  cases x.ledger.begin order.handle order.command order.timeout now with
  | error transaction => exact nofun
  | ok begun =>
      simp only
      cases order.manner with
      | once | patient | awaiting => exact nofun

/-- A sender goes on waiting for its slot only before the end of its wait. -/
theorem slotWait_of_pollSlot {later : SlotWait}
    (waits : x.pollSlot wait now = (y, .waiting (.blocked (.slot later)))) :
    later = wait ∧ now < wait.deadline := by
  unfold pollSlot at waits
  split at waits
  · next busy =>
    cases waits
    exact ⟨rfl, of_decide_eq_true (Bool.and_eq_true_iff.mp busy).2⟩
  · exact absurd waits beginRequest_ne_slotWait

/-- Who begins to wait for its slot is patient, for a time that a clock can show the end of. -/
theorem patient_of_place (waits : x.place order now = (y, .waiting (.blocked (.slot wait)))) :
    ∃ span, wait.order = order ∧ order.manner = .patient span ∧
      now.after? span = some wait.deadline ∧ now < wait.deadline := by
  unfold place at waits
  cases found : x.directory.find? order.handle with
  | none =>
      rw [found] at waits
      cases waits
  | some r =>
      simp only [found] at waits
      split at waits
      · cases waits
      · cases manner : order.manner with
        | once | awaiting =>
            simp only [manner] at waits
            exact absurd waits beginRequest_ne_slotWait
        | patient span =>
            simp only [manner] at waits
            cases ends : now.after? span with
            | none =>
                rw [ends] at waits
                cases waits
            | some deadline =>
                simp only [ends] at waits
                obtain ⟨rfl, ahead⟩ := slotWait_of_pollSlot waits
                exact ⟨span, rfl, rfl, ends, ahead⟩

end Exchange

namespace Session

variable {s s' : Session} {e : Entry}

/-- Only patient senders wait for their slots. -/
def Patient (s : Session) : Prop :=
  ∀ task ∈ s.tasks, ∀ wait, task.activity = .blocked (.slot wait) →
    ∃ span, wait.order.manner = .patient span

/-- Whoever carries out an order finds its endpoint now, or has waited for its slot. -/
theorem Moved.places_cases (moved : s.Moved s' e) {role : Role} {order : Order}
    (places : e.turn.Places e.before role order) :
    (∃ operation, e.turn = .begins operation ∧ operation.order? e.before = some order ∧
        ∃ r, e.before.directory.find? order.handle = some r) ∨
      ∃ task ∈ s.tasks, ∃ wait, task.activity = .blocked (.slot wait) ∧ wait.order = order := by
  generalize turn : e.turn = t at places
  cases places with
  | started ordered found => exact .inl ⟨_, rfl, ordered, _, found⟩
  | resumed =>
      obtain ⟨task, mem, -, -, activity⟩ := moved.former turn
      exact .inr ⟨task, mem, _, activity, rfl⟩

theorem Moved.patient (moved : s.Moved s' e) (orderly : s.Orderly) (patient : s.Patient) :
    s'.Patient := by
  intro task mem wait activity
  rcases moved.task_cases orderly mem with mine | ⟨other, -⟩
  · obtain ⟨-, -, progress⟩ := moved.task_id mine
    rw [activity] at progress
    have deed := moved.deed
    rw [progress] at deed
    rcases moved.places_cases deed.places_of_slotWait with
      ⟨operation, turn, ordered, -⟩ | ⟨former, under, waited, before, same⟩
    · have turned := moved.turned
      rw [turn, progress] at turned
      have starts := Option.some.inj turned
      rw [Exchange.start_of_order ordered] at starts
      obtain ⟨span, same, manner, -⟩ := Exchange.patient_of_place starts
      rw [same]
      exact ⟨span, manner⟩
    · rw [← same]
      exact patient former under waited before
  · exact patient task other wait activity

theorem Reachable.patient {settings : Settings} (reached : Reachable settings s) : s.Patient := by
  refine reached.holds ?_ fun before moved patient => moved.patient before.orderly patient
  intro task mem
  cases mem

end Session

/-! ### One move -/

namespace Entry

variable {e : Entry} {key : RequestKey}

/-- Whoever begins to wait in a move has given an order and awaits the response. -/
theorem order_of_enlisted (wf : e.before.ledger.WellFormed)
    (deed : Deed e.before e.now e.turn (e.after, e.progress)) (begun : key ∈ e.begun)
    (given : e.after.awaited.calls = e.before.awaited.calls + 1) :
    ∃ role order span, e.turn.Places e.before role order ∧ order.manner = .awaiting span ∧
      order.handle = key.handle := by
  obtain ⟨operation, found, turn, now, before, after, progress⟩ := e
  unfold Entry.begun at begun
  simp only at wf deed begun given ⊢
  have nobody (same : before.awaited.calls = before.awaited.calls + 1) : False :=
    Nat.ne_of_lt (Nat.lt_succ_self _) same
  cases deed with
  | sentAwaiting places idle manner =>
      rw [Ledger.begun_withRequest wf idle] at begun
      rw [List.mem_singleton.mp begun]
      exact ⟨_, _, _, places, manner, rfl⟩
  | scanned | told =>
      rw [Awaited.calls_postAll] at given
      exact (nobody given).elim
  | _ => exact (nobody given).elim

end Entry

/-- A request whose end its endpoint is not told of leaves no caller behind. -/
theorem Deed.told_or_left {x : Exchange} {now : Instant} {turn : Turn} {segment : Segment}
    (deed : Deed x now turn segment) (wf : x.ledger.WellFormed) {key : RequestKey}
    (pending : x.ledger.awaits key = true) (gone : segment.1.ledger.awaits key = false) :
    turn.ending.isTold = true ∨ ∀ w ∈ segment.1.awaited.waiting, w.1 ≠ key := by
  have kept {later : Ledger} (alike : x.ledger.SendsAlike later)
      (gone : later.awaits key = false) : False := by
    rw [alike.awaits_eq, pending] at gone
    cases gone
  have refl := Ledger.SendsAlike.refl x.ledger
  have released (other : RequestKey) (awaits : x.ledger.awaits other = true)
      (gone : (x.ledger.withoutRequest other.handle other.command).awaits key = false) :
      ∀ w ∈ (x.awaited.release other).waiting, w.1 ≠ key := by
    have mem := (Ledger.mem_ended wf).mpr ⟨pending, gone⟩
    rw [Ledger.ended_withoutRequest wf awaits] at mem
    intro w stays
    rw [List.mem_singleton.mp mem]
    simpa using (Awaited.mem_waiting_releaseWhere.mp stays).2
  -- Whatever frees a slot without a word to the endpoint releases its callers in the same segment.
  cases deed with
  | idle | enrolled | enrolledAt | slotWait | waits | mailed | overdue | woke | told =>
      exact (kept refl gone).elim
  | received => exact (kept (Ledger.sendsAlike_openIncoming wf _ _ _ _) gone).elim
  | answered | echoed =>
      exact (kept ((Ledger.sendsAlike_openIncoming wf _ _ _ _).trans
        (Ledger.sendsAlike_closed (Ledger.wellFormed_openIncoming wf _ _ _ _) _)) gone).elim
  | closed => exact (kept (Ledger.sendsAlike_closed wf _) gone).elim
  | sent places idle | sentAwaiting places idle =>
      have mem := (Ledger.mem_ended wf).mpr ⟨pending, gone⟩
      rw [Ledger.ended_withRequest wf idle] at mem
      cases mem
  | reset =>
      right
      intro w stays
      cases (Awaited.mem_waiting_releaseWhere.mp stays).2
  | @dismissed handle =>
      right
      rw [Ledger.awaits_removeEndpoint wf] at gone
      rintro w stays rfl
      have other := (Awaited.mem_waiting_releaseWhere.mp stays).2
      rw [if_neg (Ne.symm (by simpa using other)), pending] at gone
      cases gone
  | gaveUp _ _ _ awaits => exact .inr (released _ awaits gone)
  | tookBack _ awaits | tookBackAwaiting _ awaits => exact .inr (released _ awaits gone)
  | delivered | absorbed | scanned => exact .inl rfl

/-! ### Runs -/

namespace Session

variable {s s' : Session} {e : Entry} {w : RequestKey × CallId}

/-- The operation that moves goes on with what it was about. -/
theorem Moved.goesOn_of_mine (moved : s.Moved s' e) (orderly : s.Orderly) {task : Task}
    (under : task ∈ s.tasks) (mine : task.id = e.operation) :
    ∃ reply, e.turn = .goesOn task.activity reply := by
  cases moved.mover with
  | starts _ id => exact absurd (mine.trans id) (Nat.ne_of_lt (orderly.old task under))
  | resumes mem turn id =>
      have same := List.inj_on_of_nodup_map orderly.distinct under mem (mine.trans id)
      exact ⟨_, same ▸ turn⟩

/-- Whoever waits for a response can still get it. Its request is pending, or it has ended and some
operation has it before it; and its endpoint stands, since going would have released the caller. -/
structure Expecting (s : Session) : Prop where
  stands : ∀ w ∈ s.exchange.awaited.waiting,
    ∃ r, s.exchange.directory.find? w.1.handle = some r
  expected : ∀ w ∈ s.exchange.awaited.waiting, s.exchange.ledger.awaits w.1 = true ∨
    ∃ task ∈ s.tasks, w.1 ∈ task.activity.owed

namespace Expecting

theorem stands_step (expecting : s.Expecting) (moved : s.Moved s' e) (accounted : s.Accounted)
    (patient : s.Patient) (mem : w ∈ s'.exchange.awaited.waiting) :
    ∃ r, s'.exchange.directory.find? w.1.handle = some r := by
  rw [moved.after] at mem ⊢
  have wf := (moved.sound accounted.wellFormed).before
  rcases (moved.attends accounted).stays w mem with ⟨mem, steady⟩ | ⟨begun, -, given⟩
  · rw [moved.before] at mem
    obtain ⟨r, stood⟩ := expecting.stands w mem
    rw [← moved.before] at stood
    exact ⟨r, Entry.find?_of_stays moved.registers stood (Entry.dismisses_of_steady steady)⟩
  · obtain ⟨role, order, span, places, manner, handle⟩ :=
      Entry.order_of_enlisted wf moved.deed begun given
    rw [Entry.directory_of_begun wf moved.deed begun, ← handle]
    rcases moved.places_cases places with ⟨-, -, -, found⟩ | ⟨task, under, wait, activity, rfl⟩
    · exact found
    · obtain ⟨span', waited⟩ := patient task under wait activity
      rw [manner] at waited
      cases waited

/-- What a move has before it under the key of a caller that goes on waiting, it leaves for later:
the caller would be gone if it had been handed a response. -/
theorem left_of_owing (expecting : s.Expecting) (moved : s.Moved s' e) (accounted : s.Accounted)
    (mem : w ∈ s.exchange.awaited.waiting) (stays : w ∈ e.after.awaited.waiting)
    (owing : w.1 ∈ e.owing Activity.owed) : ∃ task ∈ s'.tasks, w.1 ∈ task.activity.owed := by
  have dealt := (Entry.perm_dealt (moved.sound accounted.wellFormed) moved.turned).mem_iff.mp owing
  rcases List.mem_append.mp dealt with dealt | left
  · rcases List.mem_append.mp dealt with posted | missed
    · obtain ⟨m, posted, same⟩ := List.mem_map.mp posted
      rw [Entry.awaited_of_posts moved.turned posted] at stays
      have gone := Awaited.not_waiting_of_postAll (a := e.before.awaited) posted w.2
      rw [same] at gone
      exact absurd stays gone
    · obtain ⟨⟨l, found⟩, visited, same⟩ := List.mem_map.mp missed
      obtain ⟨visited, nobody⟩ := List.mem_filter.mp visited
      obtain ⟨r, stood⟩ := expecting.stands w mem
      have looked := Entry.find?_of_visits moved.deed visited
      have here : l.handle = w.1.handle := congrArg RequestKey.handle same
      rw [looked, here, moved.before, stood] at nobody
      cases nobody
  · unfold Entry.leaving at left
    cases progress : e.progress with
    | finished =>
        rw [progress] at left
        cases left
    | waiting activity =>
        rw [progress] at left
        refine ⟨⟨e.operation, e.found, activity⟩, moved.mem_tasks ?_, left⟩
        rw [Entry.tasks, progress]
        exact List.mem_singleton_self _

theorem expected_step (expecting : s.Expecting) (moved : s.Moved s' e) (accounted : s.Accounted)
    (orderly : s.Orderly) (mem : w ∈ s'.exchange.awaited.waiting) :
    s'.exchange.ledger.awaits w.1 = true ∨ ∃ task ∈ s'.tasks, w.1 ∈ task.activity.owed := by
  have sound := moved.sound accounted.wellFormed
  rw [moved.after] at mem ⊢
  rcases (moved.attends accounted).stays w mem with ⟨waited, -⟩ | ⟨begun, -⟩
  · rw [moved.before] at waited
    rcases expecting.expected w waited with pending | ⟨task, under, owed⟩
    · by_cases after : e.after.ledger.awaits w.1 = true
      · exact .inl after
      · rw [Bool.not_eq_true] at after
        rw [← moved.before] at pending
        rcases moved.deed.told_or_left sound.before pending after with told | left
        · refine .inr (expecting.left_of_owing moved accounted waited mem ?_)
          have ended := sound.mem_ended.mpr ⟨pending, after⟩
          unfold Entry.owing
          cases turn : e.turn with
          | begins operation =>
              rw [turn] at told
              simpa only [told, if_true] using ended
          | goesOn activity reply =>
              rw [turn, Turn.not_told_of_goesOn] at told
              cases told
        · exact absurd rfl (left w mem)
    · right
      by_cases mine : task.id = e.operation
      · obtain ⟨reply, turn⟩ := moved.goesOn_of_mine orderly under mine
        refine expecting.left_of_owing moved accounted waited mem ?_
        rw [Entry.owing, turn]
        exact owed
      · exact ⟨task, moved.mem_tasks_of_other under mine, owed⟩
  · exact .inl (sound.mem_begun.mp begun).1

end Expecting

theorem Reachable.expecting {settings : Settings} (reached : Reachable settings s) :
    s.Expecting := by
  have empty := (Exchange.ledger_ofSettings settings).2
  refine reached.holds ?_ fun before moved expecting =>
    { stands := fun w => expecting.stands_step moved before.accounted before.patient
      expected := fun w => expecting.expected_step moved before.accounted before.orderly }
  have none : ∀ w, w ∉ (ofSettings settings).exchange.awaited.waiting := by
    intro w mem
    rw [ofSettings, empty] at mem
    cases mem
  exact ⟨fun w mem => absurd mem (none w), fun w mem => absurd mem (none w)⟩

end Session

end HubRelay
