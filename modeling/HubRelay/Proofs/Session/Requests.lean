import HubRelay.Proofs.Session.Moves

/-!
The account of the requests sent.

`Entry.Books` sorts the moves by what they do to requests sent. `Session.Accounted` is the account
itself: which operation began the request that is pending on a slot, that no operation begins two,
that no request ends twice, and that the requests of a slot are numbered through from zero since the
slot was last forgotten. Every reachable session has its books in order.
-/

namespace HubRelay

/-! ### What a move does to the requests sent -/

/-- What a move does to the requests sent and to their numbers. It leaves them alone, begins one,
frees the slot of one, ends those that a scan finds overdue, or forgets the slots of an endpoint or
of all; only the last restarts a numbering. -/
inductive Entry.Books (e : Entry) : Prop where
  | same : e.before.ledger.SendsAlike e.after.ledger → (∀ h, e.restarts h = false) → Books e
  | began {role : Role} {order : Order} :
      e.turn.Places e.before role order →
      (e.before.ledger.slotAt order.handle order.command).outgoing.pending = false →
      e.after.ledger =
        e.before.ledger.withRequest order.handle order.command order.timeout e.now →
      (∃ o caller, e.progress = .waiting (.offering o) ∧ o.purpose = .request caller ∧
        o.message = order.request role
          (e.before.ledger.slotAt order.handle order.command).nextTransaction) →
      (∀ h, e.restarts h = false) → Books e
  | freed {key : RequestKey} :
      e.before.ledger.awaits key = true →
      e.after.ledger = e.before.ledger.withoutRequest key.handle key.command →
      (∀ h, e.restarts h = false) → Books e
  | lapsed {limit : Instant} :
      e.turn = .begins (.scan limit) →
      e.after.ledger = (e.before.ledger.takeLapsed limit).2 →
      (∀ h, e.restarts h = false) → Books e
  | dismissed {handle : Handle} :
      e.turn = .begins (.unregister handle) →
      e.after.ledger = e.before.ledger.removeEndpoint handle →
      (∀ h, e.restarts h = (handle == h)) → Books e
  | reset :
      e.turn = .begins .reset → e.after.ledger = .empty → (∀ h, e.restarts h = true) → Books e

/-- A move that leaves the exchange alone restarts no numbering. -/
theorem Entry.restarts_of_idle {e : Entry} (idle : e.turn.Idle e.progress) (h : Handle) :
    e.restarts h = false := by
  unfold Entry.restarts
  split
  · rename_i turn
    exact absurd turn idle.noReset
  · rename_i gone turn progress
    exact absurd progress (idle.noDismissal gone turn)
  · rfl

/-- Only removing an endpoint and a reset restart the numbering of a slot. -/
theorem Entry.restarts_of_routine {e : Entry} (routine : e.turn.routine = true) (h : Handle) :
    e.restarts h = false := by
  unfold Entry.restarts
  split
  · rename_i turn
    rw [turn] at routine
    cases routine
  · rename_i turn _
    rw [turn] at routine
    cases routine
  · rfl

/-- A caller that waits for its response is neither a reset nor a removal. -/
theorem Turn.AwaitsReply.routine {turn : Turn} {now : Instant} {wait : ReplyWait}
    (awaits : turn.AwaitsReply now wait) : turn.routine = true := by
  cases awaits <;> rfl

theorem Turn.Closes.routine {turn : Turn} {key : RequestKey} (closes : turn.Closes key) :
    turn.routine = true := by
  cases closes <;> rfl

/-- What a move begins and ends stands in the ledgers around it. Each kind of deed is looked at
once. -/
theorem Entry.books {e : Entry} (wf : e.before.ledger.WellFormed)
    (deed : Deed e.before e.now e.turn (e.after, e.progress)) : e.Books := by
  obtain ⟨operation, found, turn, now, before, after, progress⟩ := e
  simp only at wf deed
  have unchanged {r : Turn} {p : Progress} {later : Exchange}
      (alike : before.ledger.SendsAlike later.ledger) (routine : r.routine = true) :
      Entry.Books ⟨operation, found, r, now, before, later, p⟩ :=
    .same alike (Entry.restarts_of_routine routine)
  have refl := Ledger.SendsAlike.refl before.ledger
  cases deed with
  | idle idle => exact .same refl (Entry.restarts_of_idle idle)
  | enrolled | enrolledAt => exact unchanged refl rfl
  | dismissed gone => exact .dismissed rfl rfl fun h => rfl
  | reset => exact .reset rfl rfl fun h => rfl
  | slotWait places => exact unchanged refl places.routine
  | sent places pending =>
      exact .began places pending rfl ⟨_, _, rfl, rfl, rfl⟩
        (Entry.restarts_of_routine places.routine)
  | sentAwaiting places pending =>
      exact .began places pending rfl ⟨_, _, rfl, rfl, rfl⟩
        (Entry.restarts_of_routine places.routine)
  | waits awaits => exact unchanged refl awaits.routine
  | mailed awaits => exact unchanged refl awaits.routine
  | overdue awaits => exact unchanged refl awaits.routine
  | gaveUp awaits _ _ pending =>
      exact .freed pending rfl (Entry.restarts_of_routine awaits.routine)
  | tookBack _ pending => exact .freed pending rfl (Entry.restarts_of_routine rfl)
  | tookBackAwaiting _ pending => exact .freed pending rfl (Entry.restarts_of_routine rfl)
  | received arrives request =>
      exact .same (Ledger.sendsAlike_openIncoming wf _ _ _ _) fun h => rfl
  | answered arrives request | echoed arrives request =>
      refine .same ((Ledger.sendsAlike_openIncoming wf _ _ _ _).trans
        (Ledger.sendsAlike_closed (Ledger.wellFormed_openIncoming wf _ _ _ _) _)) fun h => ?_
      rfl
  | closed closes => exact unchanged (Ledger.sendsAlike_closed wf _) closes.routine
  | delivered _ _ pending => exact .freed pending rfl fun h => rfl
  | absorbed _ _ pending => exact .freed pending rfl fun h => rfl
  | woke => exact unchanged refl rfl
  | scanned => exact .lapsed rfl rfl fun h => rfl
  | told => exact .same refl fun h => rfl

/-- No deed damages the ledger. -/
theorem Deed.wellFormed {x : Exchange} {now : Instant} {turn : Turn} {segment : Segment}
    (deed : Deed x now turn segment) (wf : x.ledger.WellFormed) :
    segment.1.ledger.WellFormed := by
  cases deed with
  | idle | enrolled | enrolledAt | slotWait | waits | mailed | overdue | woke | told => exact wf
  | dismissed => exact Ledger.wellFormed_removeEndpoint wf _
  | reset => exact Ledger.wellFormed_empty
  | sent | sentAwaiting => exact Ledger.wellFormed_withRequest wf _ _ _ _
  | gaveUp | tookBack | tookBackAwaiting | delivered | absorbed =>
      exact Ledger.wellFormed_withoutRequest wf _ _
  | received => exact Ledger.wellFormed_openIncoming wf _ _ _ _
  | answered | echoed =>
      exact Ledger.wellFormed_closed (Ledger.wellFormed_openIncoming wf _ _ _ _) _
  | closed => exact Ledger.wellFormed_closed wf _
  | scanned => exact Ledger.wellFormed_takeLapsed wf _

/-- Only a sender waits for a slot. -/
theorem Deed.places_of_slotWait {x x' : Exchange} {now : Instant} {turn : Turn} {wait : SlotWait}
    (deed : Deed x now turn (x', .waiting (.blocked (.slot wait)))) :
    turn.Places x wait.role wait.order := by
  cases deed with
  | slotWait places => exact places
  | idle idle => cases idle.plain
  | reset plain | answered _ _ plain | closed _ plain => cases plain
  | scanned tells | told tells => cases tells

/-- A move between ledgers in order, with its books. All lemmas of the history ask for this and no
more of a move. -/
structure Entry.Sound (e : Entry) : Prop where
  before : e.before.ledger.WellFormed
  after : e.after.ledger.WellFormed
  books : e.Books

/-- From this alone the history reasons: the books of the move and the two ledgers, both in order.
-/
theorem Session.Moved.sound {s s' : Session} {e : Entry} (moved : s.Moved s' e)
    (wf : s.exchange.ledger.WellFormed) : e.Sound := by
  have before : e.before.ledger.WellFormed := by
    rw [moved.before]
    exact wf
  exact ⟨before, moved.deed.wellFormed before, Entry.books before moved.deed⟩

namespace Entry.Sound

variable {e : Entry}

/-- A move begins at most one request, on an idle slot and under the slot's next number. -/
theorem begun_cases (sound : e.Sound) :
    e.begun = [] ∨ ∃ role order, e.turn.Places e.before role order ∧
      (∀ h, e.restarts h = false) ∧
      (∀ wait, e.progress ≠ .waiting (.blocked (.slot wait))) ∧
      (e.before.ledger.slotAt order.handle order.command).outgoing.pending = false ∧
      e.begun = [⟨order.handle, order.command,
        (e.before.ledger.slotAt order.handle order.command).nextTransaction⟩] := by
  have wf := sound.before
  unfold begun
  cases sound.books with
  | same alike => exact .inl (alike.begun_eq sound.after)
  | began places steady ledger offers idle =>
      right
      refine ⟨_, _, places, idle, ?_, steady, ?_⟩
      · obtain ⟨o, caller, progress, -⟩ := offers
        intro wait
        rw [progress]
        nofun
      · rw [ledger]
        exact Ledger.begun_withRequest wf steady _ _
  | freed _ ledger =>
      rw [ledger]
      exact .inl (Ledger.begun_withoutRequest wf _ _)
  | lapsed _ ledger =>
      rw [ledger]
      exact .inl (Ledger.begun_takeLapsed wf _)
  | dismissed _ ledger =>
      rw [ledger]
      exact .inl (Ledger.begun_removeEndpoint wf _)
  | reset _ ledger =>
      rw [ledger]
      exact .inl (Ledger.begun_empty _)

/-- Forgotten slots are as good as new. -/
theorem slotAt_of_restarts (sound : e.Sound) {handle : Handle} (command : Command)
    (restarts : e.restarts handle = true) :
    e.after.ledger.slotAt handle command = { handle, command } := by
  cases sound.books with
  | same _ steady | freed _ _ steady | lapsed _ _ steady =>
      rw [steady] at restarts
      cases restarts
  | began _ _ _ _ steady =>
      rw [steady] at restarts
      cases restarts
  | dismissed _ ledger gone =>
      rw [gone, beq_iff_eq] at restarts
      rw [ledger, Ledger.slotAt_removeEndpoint sound.before, if_pos restarts]
  | reset _ ledger =>
      rw [ledger]
      exact Ledger.slotAt_empty handle command

/-- Only a request that begins on a slot uses up its next number. -/
theorem next_of_steady (sound : e.Sound) {handle : Handle} (command : Command)
    (steady : e.restarts handle = false) :
    (e.after.ledger.slotAt handle command).nextTransaction =
      (e.before.ledger.slotAt handle command).nextTransaction +
        if e.begun.any fun key => key.handle == handle && key.command == command then 1 else 0 := by
  have wf := sound.before
  cases sound.books with
  | same alike =>
      simp [begun, alike.begun_eq sound.after, (alike handle command).2]
  | @began role order places idle ledger =>
      rw [begun, ledger, Ledger.begun_withRequest wf idle, Ledger.slotAt_withRequest wf]
      by_cases here : order.handle = handle ∧ order.command = command
      · simp [here, Slot.begin]
      · have apart : (order.handle == handle && order.command == command) = false := by
          simpa using here
        simp [here, apart]
  | freed _ ledger =>
      rw [begun, ledger, Ledger.begun_withoutRequest wf, Ledger.slotAt_withoutRequest wf]
      split <;> simp [Slot.finish]
  | lapsed _ ledger =>
      rw [begun, ledger, Ledger.begun_takeLapsed wf, Ledger.slotAt_takeLapsed]
      split <;> simp [Slot.finish]
  | dismissed _ ledger gone =>
      rw [gone, beq_eq_false_iff_ne] at steady
      rw [begun, ledger, Ledger.begun_removeEndpoint wf, Ledger.slotAt_removeEndpoint wf,
        if_neg steady]
      simp
  | reset _ _ all =>
      rw [all] at steady
      cases steady

/-- The requests that a move ends are those that were pending before it and are not any more. -/
theorem mem_ended (sound : e.Sound) {key : RequestKey} :
    key ∈ e.ended ↔ e.before.ledger.awaits key ∧ e.after.ledger.awaits key = false :=
  Ledger.mem_ended sound.before

/-- The requests that a move begins are pending after it and were not before. -/
theorem mem_begun (sound : e.Sound) {key : RequestKey} :
    key ∈ e.begun ↔ e.after.ledger.awaits key ∧ e.before.ledger.awaits key = false :=
  Ledger.mem_begun sound.after

/-- On a slot whose numbering restarts nothing is pending. -/
theorem not_awaits_of_restarts (sound : e.Sound) {key : RequestKey}
    (restarts : e.restarts key.handle = true) : e.after.ledger.awaits key = false := by
  unfold Ledger.awaits
  rw [sound.slotAt_of_restarts key.command restarts]
  rfl

/-- While a request is pending none begins on its slot. -/
theorem apart_of_awaits (sound : e.Sound) {key begun : RequestKey}
    (pending : e.before.ledger.awaits key = true) (mem : begun ∈ e.begun) :
    ¬ (begun.handle = key.handle ∧ begun.command = key.command) := by
  rintro ⟨handle, command⟩
  rcases sound.begun_cases with none | ⟨role, order, -, -, -, idle, one⟩
  · rw [none] at mem
    cases mem
  · rw [one, List.mem_singleton] at mem
    subst mem
    rw [Ledger.awaits_of_slotAt, ← handle, ← command, idle] at pending
    exact absurd pending.1 Bool.false_ne_true

end Entry.Sound

/-! ### The requests of one slot -/

namespace History

variable {e : Entry} {past : History} {handle : Handle} {command : Command}

/-- When the numbering restarts, the count of the slot's requests starts over. -/
theorem sent_of_restarts (restarts : e.restarts handle = true) :
    sent handle command (e :: past) = [] := by
  simp [sent, restarts]

/-- A move that begins nothing on a slot and does not forget it leaves its requests as they are. -/
theorem sent_of_apart (steady : e.restarts handle = false)
    (apart : ∀ key ∈ e.begun, ¬ (key.handle = handle ∧ key.command = command)) :
    sent handle command (e :: past) = sent handle command past := by
  have none : (e.begun.filter fun key => key.handle == handle && key.command == command) = [] := by
    refine List.filter_eq_nil_iff.mpr ?_
    intro key mem here
    simp only [Bool.and_eq_true, beq_iff_eq] at here
    exact apart key mem here
  simp [sent, steady, none]

/-- A request that begins is the latest one of its slot. -/
theorem sent_of_begun {key : RequestKey} (steady : e.restarts key.handle = false)
    (one : e.begun = [key]) :
    sent key.handle key.command (e :: past) =
      (e.operation, key) :: sent key.handle key.command past := by
  simp [sent, steady, one]

/-- The requests of a slot are among those that have begun. -/
theorem mem_begun_of_sent {h : History} {id : OperationId} {key : RequestKey}
    (mem : (id, key) ∈ sent handle command h) : (id, key) ∈ begun h := by
  induction h with
  | nil => cases mem
  | cons e past ih =>
      unfold sent at mem
      cases restarts : e.restarts handle with
      | true => simp [restarts] at mem
      | false =>
          simp only [restarts, Bool.false_eq_true, if_false, List.mem_append] at mem
          refine List.mem_append.mpr (mem.imp ?_ ih)
          intro mem
          obtain ⟨key', mem', same⟩ := List.mem_map.mp mem
          exact List.mem_map.mpr ⟨key', (List.mem_filter.mp mem').1, same⟩

/-- A request is begun in some move of the operation to which it belongs. -/
theorem exists_entry_of_begun {h : History} {id : OperationId} {key : RequestKey}
    (mem : (id, key) ∈ begun h) : ∃ e ∈ h, e.operation = id := by
  induction h with
  | nil => cases mem
  | cons e past ih =>
      rcases List.mem_append.mp mem with mem | mem
      · obtain ⟨key', -, same⟩ := List.mem_map.mp mem
        exact ⟨e, List.mem_cons_self, (Prod.mk.inj same).1⟩
      · obtain ⟨entry, mem, same⟩ := ih mem
        exact ⟨entry, List.mem_cons_of_mem e mem, same⟩

end History

/-! ### The account of a session -/

/-- No request of this operation has ended. -/
def History.Unended (h : History) (id : OperationId) : Prop :=
  ∀ e ∈ h.ended, e.request ≠ some id

/-- The books of a session are in order. -/
structure Session.Accounted (s : Session) : Prop where
  wellFormed : s.exchange.ledger.WellFormed
  /-- Whoever still waits for a slot has begun nothing. -/
  unsent : ∀ task ∈ s.tasks, ∀ wait, task.activity = .blocked (.slot wait) →
    ∀ key, (task.id, key) ∉ s.history.begun
  /-- No operation begins two requests. -/
  begunOnce : (s.history.begun.map Prod.fst).Nodup
  /-- The requests of a slot are numbered through from zero, by a byte. -/
  numbered : ∀ h c later id key earlier, s.history.sent h c = later ++ (id, key) :: earlier →
    key = ⟨h, c, UInt8.ofNat earlier.length⟩
  /-- The slot knows the number that comes next. -/
  counted : ∀ h c, (s.exchange.ledger.slotAt h c).nextTransaction =
    UInt8.ofNat (s.history.sent h c).length
  /-- What is pending is the latest request of its slot, and has not ended. -/
  latest : ∀ key, s.exchange.ledger.awaits key = true →
    ∃ id earlier, s.history.sent key.handle key.command = (id, key) :: earlier ∧
      s.history.Unended id
  /-- What has not ended is pending, and so the latest of its slot. -/
  live : ∀ id key, (id, key) ∈ s.history.begun → s.history.Unended id →
    s.exchange.ledger.awaits key = true ∧
      ∃ earlier, s.history.sent key.handle key.command = (id, key) :: earlier
  /-- No request ends twice. -/
  endedOnce : (s.history.ended.map Ended.request).Nodup
  /-- What ended had begun. -/
  endedBegun : ∀ e ∈ s.history.ended, ∃ id, e.request = some id ∧ (id, e.key) ∈ s.history.begun

namespace Session.Accounted

variable {s s' : Session} {e : Entry}

/-- An operation begins at most one request. -/
theorem begun_inj (accounted : s.Accounted) {id : OperationId} {key key' : RequestKey}
    (first : (id, key) ∈ s.history.begun) (second : (id, key') ∈ s.history.begun) :
    key = key' := by
  have same := List.inj_on_of_nodup_map accounted.begunOnce first second rfl
  exact (Prod.mk.inj same).2

/-- An operation that carries out an order has not begun a request before. -/
theorem fresh_of_places (accounted : s.Accounted) (orderly : s.Orderly) (moved : s.Moved s' e)
    {role : Role} {order : Order} (places : e.turn.Places e.before role order)
    (key : RequestKey) : (e.operation, key) ∉ s.history.begun := by
  intro mem
  cases moved.mover with
  | starts _ operation =>
      obtain ⟨entry, mem, same⟩ := History.exists_entry_of_begun mem
      exact Nat.ne_of_lt (orderly.entries entry mem) (same.trans operation)
  | @resumes task _ under turn operation =>
      rw [turn] at places
      generalize activity : task.activity = a at places
      cases places with
      | resumed =>
          rw [operation] at mem
          exact accounted.unsent task under _ activity key mem

/-- Whoever waits for a slot has not begun a request yet. -/
theorem unsent_step (accounted : s.Accounted) (orderly : s.Orderly) (moved : s.Moved s' e) :
    ∀ task ∈ s'.tasks, ∀ wait, task.activity = .blocked (.slot wait) →
      ∀ key, (task.id, key) ∉ s'.history.begun := by
  intro task mem wait activity key begun
  have sound := moved.sound accounted.wellFormed
  rw [moved.history] at begun
  rcases moved.task_cases orderly mem with mine | ⟨other, apart⟩
  · obtain ⟨id, -, progress⟩ := moved.task_id mine
    rw [activity] at progress
    rw [id] at begun
    have places : e.turn.Places e.before wait.role wait.order := by
      have deed := moved.deed
      rw [progress] at deed
      exact deed.places_of_slotWait
    rcases List.mem_append.mp begun with begun | begun
    · rcases sound.begun_cases with none | ⟨_, _, _, _, offers, _⟩
      · rw [none] at begun
        cases begun
      · exact offers wait progress
    · exact accounted.fresh_of_places orderly moved places key begun
  · rcases List.mem_append.mp begun with begun | begun
    · obtain ⟨_, -, same⟩ := List.mem_map.mp begun
      exact apart (Prod.mk.inj same).1.symm
    · exact accounted.unsent task other wait activity key begun

/-- An operation that begins a request in this move has not begun one before. -/
theorem begunOnce_step (accounted : s.Accounted) (orderly : s.Orderly) (moved : s.Moved s' e) :
    (s'.history.begun.map Prod.fst).Nodup := by
  rw [moved.history, History.begun, List.map_append]
  rcases (moved.sound accounted.wellFormed).begun_cases with none | ⟨_, _, places, _, _, _, one⟩
  · rw [none]
    exact accounted.begunOnce
  · rw [one]
    refine List.nodup_cons.mpr ⟨?_, accounted.begunOnce⟩
    intro mem
    obtain ⟨⟨id, key⟩, mem, same⟩ := List.mem_map.mp mem
    obtain rfl : id = e.operation := same
    exact accounted.fresh_of_places orderly moved places key mem

/-- How the requests of a slot go on in a move. -/
theorem sent_cases (accounted : s.Accounted) (moved : s.Moved s' e) (h : Handle) (c : Command) :
    (e.restarts h = true ∧ s'.history.sent h c = []) ∨
    (e.restarts h = false ∧ (∀ key ∈ e.begun, ¬ (key.handle = h ∧ key.command = c)) ∧
      s'.history.sent h c = s.history.sent h c) ∨
    (e.restarts h = false ∧
      e.begun = [⟨h, c, UInt8.ofNat (s.history.sent h c).length⟩] ∧
      s'.history.sent h c =
        (e.operation, ⟨h, c, UInt8.ofNat (s.history.sent h c).length⟩) :: s.history.sent h c) := by
  rw [moved.history]
  cases restarts : e.restarts h with
  | true => exact .inl ⟨rfl, History.sent_of_restarts restarts⟩
  | false =>
      right
      rcases (moved.sound accounted.wellFormed).begun_cases with
        none | ⟨role, order, -, -, -, -, one⟩
      · have apart : ∀ key ∈ e.begun, ¬ (key.handle = h ∧ key.command = c) := by
          rw [none]
          intro key mem
          cases mem
        exact .inl ⟨rfl, apart, History.sent_of_apart restarts apart⟩
      · rw [moved.before, accounted.counted] at one
        by_cases here : order.handle = h ∧ order.command = c
        · obtain ⟨rfl, rfl⟩ := here
          exact .inr ⟨rfl, one, History.sent_of_begun restarts one⟩
        · have apart : ∀ key ∈ e.begun, ¬ (key.handle = h ∧ key.command = c) := by
            rw [one]
            intro key mem
            rw [List.mem_singleton.mp mem]
            exact here
          exact .inl ⟨rfl, apart, History.sent_of_apart restarts apart⟩

/-- The requests of a slot are numbered in the order in which they began, by a byte that wraps. -/
theorem numbered_step (accounted : s.Accounted) (moved : s.Moved s' e) (h : Handle) (c : Command)
    (later : List (OperationId × RequestKey)) (id : OperationId) (key : RequestKey)
    (earlier : List (OperationId × RequestKey))
    (split : s'.history.sent h c = later ++ (id, key) :: earlier) :
    key = ⟨h, c, UInt8.ofNat earlier.length⟩ := by
  rcases accounted.sent_cases moved h c with ⟨-, empty⟩ | ⟨-, -, same⟩ | ⟨-, -, one⟩
  · simp [empty] at split
  · exact accounted.numbered h c later id key earlier (same.symm.trans split)
  · rw [one] at split
    cases later with
    | nil =>
        obtain ⟨first, rest⟩ := List.cons.inj split
        rw [← rest]
        exact (Prod.mk.inj first).2.symm
    | cons first later =>
        exact accounted.numbered h c later id key earlier (List.cons.inj split).2

/-- The number that a slot gives out next is the count of its requests so far, as a byte. -/
theorem counted_step (accounted : s.Accounted) (moved : s.Moved s' e) (h : Handle) (c : Command) :
    (s'.exchange.ledger.slotAt h c).nextTransaction =
      UInt8.ofNat (s'.history.sent h c).length := by
  have sound := moved.sound accounted.wellFormed
  rw [moved.after]
  rcases accounted.sent_cases moved h c with
    ⟨gone, empty⟩ | ⟨steady, apart, same⟩ | ⟨steady, one, more⟩
  · rw [sound.slotAt_of_restarts c gone, empty]
    rfl
  · have none : (e.begun.any fun key => key.handle == h && key.command == c) = false := by
      refine List.any_eq_false.mpr ?_
      intro key mem here
      simp only [Bool.and_eq_true, beq_iff_eq] at here
      exact apart key mem here
    rw [sound.next_of_steady c steady, none, moved.before, accounted.counted, same]
    simp
  · rw [sound.next_of_steady c steady, one, moved.before, accounted.counted, more]
    simp

/-- A request that is pending before and after a move keeps its place. -/
theorem sent_of_pending (accounted : s.Accounted) (moved : s.Moved s' e) {key : RequestKey}
    (before : e.before.ledger.awaits key = true) (after : e.after.ledger.awaits key = true) :
    s'.history.sent key.handle key.command = s.history.sent key.handle key.command := by
  have sound := moved.sound accounted.wellFormed
  rcases accounted.sent_cases moved key.handle key.command with
    ⟨gone, -⟩ | ⟨-, -, same⟩ | ⟨-, one, -⟩
  · rw [sound.not_awaits_of_restarts gone] at after
    cases after
  · exact same
  · have apart := sound.apart_of_awaits before (one ▸ List.mem_singleton_self _)
    exact absurd ⟨rfl, rfl⟩ apart

/-- What ends in a move is the latest request of its slot. -/
theorem request_of_ended (accounted : s.Accounted) (moved : s.Moved s' e) {key : RequestKey}
    (mem : key ∈ e.ended) :
    ∃ id earlier, s.history.sent key.handle key.command = (id, key) :: earlier ∧
      s.history.Unended id := by
  have pending := ((moved.sound accounted.wellFormed).mem_ended.mp mem).1
  rw [moved.before] at pending
  exact accounted.latest key pending

/-- The history of a move lists what the move ended before all that ended earlier. -/
theorem mem_ended_step (moved : s.Moved s' e) {ended : Ended} :
    ended ∈ s'.history.ended ↔
      (∃ key ∈ e.ended, ended = ⟨key, e, s.history⟩) ∨ ended ∈ s.history.ended := by
  rw [moved.history, History.ended, List.mem_append, List.mem_map]
  simp only [eq_comm]

/-- Whatever has ended after a move had begun before it. -/
theorem begun_of_ended_step (accounted : s.Accounted) (moved : s.Moved s' e) {ended : Ended}
    (mem : ended ∈ s'.history.ended) :
    ∃ id, ended.request = some id ∧ (id, ended.key) ∈ s.history.begun := by
  rcases (mem_ended_step moved).mp mem with ⟨key, now, rfl⟩ | mem
  · obtain ⟨id, earlier, sent, -⟩ := accounted.request_of_ended moved now
    refine ⟨id, by simp [Ended.request, Ended.sent, sent], ?_⟩
    exact History.mem_begun_of_sent (sent ▸ List.mem_cons_self)
  · exact accounted.endedBegun ended mem

/-- What is pending on a slot is its latest request, and this request has not ended. -/
theorem latest_step (accounted : s.Accounted) (orderly : s.Orderly) (moved : s.Moved s' e)
    (key : RequestKey) (pending : s'.exchange.ledger.awaits key = true) :
    ∃ id earlier, s'.history.sent key.handle key.command = (id, key) :: earlier ∧
      s'.history.Unended id := by
  have sound := moved.sound accounted.wellFormed
  rw [moved.after] at pending
  cases before : e.before.ledger.awaits key with
  -- Pending before and after: the request is the latest one still, and this move has not ended it.
  | true =>
      have was : s.exchange.ledger.awaits key = true := by
        rw [← moved.before]
        exact before
      obtain ⟨id, earlier, sent, unended⟩ := accounted.latest key was
      refine ⟨id, earlier, (accounted.sent_of_pending moved before pending).trans sent, ?_⟩
      intro ended mem same
      obtain ⟨id', same', second⟩ := accounted.begun_of_ended_step moved mem
      obtain rfl : id = id' := Option.some.inj (same.symm.trans same')
      have first : (id, key) ∈ s.history.begun :=
        History.mem_begun_of_sent (sent ▸ List.mem_cons_self)
      obtain rfl := accounted.begun_inj first second
      rcases (mem_ended_step moved).mp mem with ⟨other, now, rfl⟩ | mem
      · rw [(sound.mem_ended.mp now).2] at pending
        cases pending
      · exact unended ended mem same
  -- Pending only now: it is the one that this move begins.
  | false =>
      have begun := sound.mem_begun.mpr ⟨pending, before⟩
      rcases sound.begun_cases with none | ⟨role, order, places, -, -, -, -⟩
      · rw [none] at begun
        cases begun
      · rcases accounted.sent_cases moved key.handle key.command with
          ⟨gone, -⟩ | ⟨-, apart, -⟩ | ⟨-, one, more⟩
        · rw [sound.not_awaits_of_restarts gone] at pending
          cases pending
        · exact absurd ⟨rfl, rfl⟩ (apart key begun)
        · rw [one, List.mem_singleton] at begun
          rw [← begun] at more
          refine ⟨e.operation, _, more, ?_⟩
          intro ended mem same
          obtain ⟨id, same', old⟩ := accounted.begun_of_ended_step moved mem
          obtain rfl : e.operation = id := Option.some.inj (same.symm.trans same')
          exact accounted.fresh_of_places orderly moved places _ old

/-- The converse: a request that has not ended is pending, and none began on its slot after it. -/
theorem live_step (accounted : s.Accounted) (moved : s.Moved s' e) (id : OperationId)
    (key : RequestKey) (begun : (id, key) ∈ s'.history.begun) (unended : s'.history.Unended id) :
    s'.exchange.ledger.awaits key = true ∧
      ∃ earlier, s'.history.sent key.handle key.command = (id, key) :: earlier := by
  have sound := moved.sound accounted.wellFormed
  rw [moved.after]
  rw [moved.history] at begun
  rcases List.mem_append.mp begun with begun | begun
  · obtain ⟨key', mem, same⟩ := List.mem_map.mp begun
    obtain ⟨rfl, rfl⟩ := Prod.mk.inj same
    have pending := (sound.mem_begun.mp mem).1
    refine ⟨pending, ?_⟩
    rcases accounted.sent_cases moved key'.handle key'.command with
      ⟨gone, -⟩ | ⟨-, apart, -⟩ | ⟨-, one, more⟩
    · rw [sound.not_awaits_of_restarts gone] at pending
      cases pending
    · exact absurd ⟨rfl, rfl⟩ (apart key' mem)
    · rw [one, List.mem_singleton] at mem
      rw [← mem] at more
      exact ⟨_, more⟩
  · have unended' : s.history.Unended id := fun ended mem =>
      unended ended ((mem_ended_step moved).mpr (.inr mem))
    obtain ⟨pending, earlier, sent⟩ := accounted.live id key begun unended'
    rw [← moved.before] at pending
    cases after : e.after.ledger.awaits key with
    | true => exact ⟨rfl, earlier, (accounted.sent_of_pending moved pending after).trans sent⟩
    | false =>
        have mem := sound.mem_ended.mpr ⟨pending, after⟩
        refine absurd ?_ (unended _ ((mem_ended_step moved).mpr (.inl ⟨key, mem, rfl⟩)))
        simp [Ended.request, Ended.sent, sent]

/-- No request ends twice, since it has to be pending to end. -/
theorem endedOnce_step (accounted : s.Accounted) (moved : s.Moved s' e) :
    (s'.history.ended.map Ended.request).Nodup := by
  have sound := moved.sound accounted.wellFormed
  rw [moved.history, History.ended, List.map_append, List.map_map]
  refine List.Nodup.append ?_ accounted.endedOnce ?_
  · refine List.Nodup.map_on ?_ (Ledger.nodup_ended sound.before)
    intro key mem key' mem' same
    obtain ⟨id, earlier, sent, -⟩ := accounted.request_of_ended moved mem
    obtain ⟨id', earlier', sent', -⟩ := accounted.request_of_ended moved mem'
    obtain rfl : id = id' := by
      simpa [Ended.request, Ended.sent, sent, sent'] using same
    exact accounted.begun_inj (History.mem_begun_of_sent (sent ▸ List.mem_cons_self))
      (History.mem_begun_of_sent (sent' ▸ List.mem_cons_self))
  · intro request mem mem'
    obtain ⟨key, now, rfl⟩ := List.mem_map.mp mem
    obtain ⟨ended, mem', same⟩ := List.mem_map.mp mem'
    obtain ⟨id, earlier, sent, unended⟩ := accounted.request_of_ended moved now
    refine unended ended mem' ?_
    rw [same]
    simp [Ended.request, Ended.sent, sent]

/-- One move keeps the whole account. Each field has its own step above. -/
theorem step (accounted : s.Accounted) (orderly : s.Orderly) (moved : s.Moved s' e) :
    s'.Accounted where
  wellFormed := by
    rw [moved.after]
    exact (moved.sound accounted.wellFormed).after
  unsent := accounted.unsent_step orderly moved
  begunOnce := accounted.begunOnce_step orderly moved
  numbered := accounted.numbered_step moved
  counted := accounted.counted_step moved
  latest := accounted.latest_step orderly moved
  live := accounted.live_step moved
  endedOnce := accounted.endedOnce_step moved
  endedBegun := by
    intro ended mem
    obtain ⟨id, same, begun⟩ := accounted.begun_of_ended_step moved mem
    refine ⟨id, same, ?_⟩
    rw [moved.history]
    exact List.mem_append_right _ begun

end Session.Accounted

/-- A new exchange has an empty ledger and nothing is awaited from it. -/
theorem Exchange.ledger_ofSettings (settings : Settings) :
    (Exchange.ofSettings settings).ledger = .empty ∧
      (Exchange.ofSettings settings).awaited = {} := by
  unfold Exchange.ofSettings Exchange.registerAt
  split
  · simp only
    split <;> exact ⟨rfl, rfl⟩
  · exact ⟨rfl, rfl⟩

/-- So the account is right in every state that a session reaches. -/
theorem Session.Reachable.accounted {settings : Settings} {s : Session}
    (reached : Session.Reachable settings s) : s.Accounted := by
  have empty := (Exchange.ledger_ofSettings settings).1
  refine reached.holds ?_ fun before moved accounted => accounted.step before.orderly moved
  exact
    { wellFormed := by
        rw [Session.ofSettings, empty]
        exact Ledger.wellFormed_empty
      unsent := by
        intro task mem
        cases mem
      begunOnce := List.nodup_nil
      numbered := by
        intro h c later id key earlier split
        cases later <;> cases split
      counted := by
        intro h c
        rw [Session.ofSettings, empty, Ledger.slotAt_empty]
        rfl
      latest := by
        intro key pending
        rw [Session.ofSettings, empty, Ledger.awaits_empty] at pending
        cases pending
      live := by
        intro id key mem
        cases mem
      endedOnce := List.nodup_nil
      endedBegun := by
        intro ended mem
        cases mem }

end HubRelay
