import HubRelay.Proofs.Session.Handover

/-!
Where the news goes that a request is overdue.

A scan takes all overdue requests at once and then tells of one after the other, while the endpoints
that it has called do what they like. It looks every handle up again. So the endpoint that is told
is the sender of the request exactly if the handle has not been unregistered in the meantime, and
the caller that is woken is the one of that request exactly if its slot has not been forgotten,
short of 256 more requests on the slot. `Entry.ReportsLapse` says so for a single move.
-/

namespace HubRelay

/-- The scan that makes this move has found the request under `key` overdue. -/
structure Ended.Overdue (x : Ended) (m : Entry) (key : RequestKey) : Prop where
  agent : x.agent = m.operation
  key : x.key = key
  ending : x.ending = .lapsed

/-- Whom a move of a scan tells of overdue requests, given what had happened before. The scan has
ended all of them in its first move and looks up each endpoint when it comes to it. So who is told,
and who is woken, can differ from who asked and who waited, and the clauses say exactly when. -/
structure Entry.ReportsLapse (m : Entry) (past : History) : Prop where
  /-- An endpoint is called with the response that stands for the one that never came, for a request
  that the scan has got to. -/
  called : ∀ r message rest count,
    m.progress = .waiting (.serving ⟨r, message, .nextLapsed rest count⟩) →
      ∃ lapsed, (lapsed, some r) ∈ m.visits ∧ message = r.timeoutMessage lapsed
  /-- It is the one that asked, exactly if nobody has unregistered the handle since. -/
  told : ∀ lapsed found, (lapsed, found) ∈ m.visits →
    ∃ x ∈ History.ended (m :: past), x.Overdue m lapsed.key ∧ ∃ id, x.request = some id ∧
      ∃ recent e earlier operation r, past = recent ++ e :: earlier ∧
        e.Starts id (some r) operation ∧
          (found = some r ↔ ∀ n ∈ recent, n.dismisses lapsed.handle = false)
  /-- A caller that is woken waits for the overdue request, exactly if the slot still knows that
  one; only a request whose number has come round may be taken for it. -/
  woken : m.turn.Scans → ∀ call message, m.before.awaited.mailFor call ≠ .delivered message →
    m.after.awaited.mailFor call = .delivered message →
      ∃ x ∈ History.ended (m :: past), x.Overdue m message.header.key ∧ ∃ id, x.request = some id ∧
        ∃ e ∈ past, e.Enlists call ∧ message.header.key ∈ e.begun ∧
          (e.operation = id →
            (id, message.header.key) ∈
              past.sent message.header.handle message.header.command) ∧
          ((id, message.header.key) ∈
              past.sent message.header.handle message.header.command →
            e.operation = id ∨ 256 ≤ past.begunAfter message.header.key id ∨
              256 ≤ past.begunAfter message.header.key e.operation)

/-! ### One move -/

namespace Entry

variable {e : Entry}

theorem scans_of_visits {visit : Lapsed × Option Registration} (mem : visit ∈ e.visits) :
    e.turn.Scans := by
  have pending : e.lapsed ≠ [] := by
    intro none
    rw [visits_of_none none] at mem
    cases mem
  unfold lapsed Activity.lapsed at pending
  split at pending
  · rename_i turn
    exact turn ▸ .begins
  · exact absurd rfl pending
  · rename_i turn
    split at pending
    · exact turn ▸ .goesOn
    · exact absurd rfl pending

/-- Whoever has an endpoint does not unregister one. -/
theorem Starts.dismisses {id : OperationId} {r : Registration} {operation : Operation}
    (starts : e.Starts id (some r) operation) (handle : Handle) : e.dismisses handle = false := by
  have looked := starts.looked
  unfold Entry.dismisses
  rw [starts.turn]
  cases operation with
  | unregister => cases looked
  | _ => rfl

theorem visit_of_called (deed : Deed e.before e.now e.turn (e.after, e.progress))
    {r : Registration} {m : Message} {rest : List Lapsed} {count : Nat}
    (progress : e.progress = .waiting (.serving ⟨r, m, .nextLapsed rest count⟩)) :
    ∃ lapsed, (lapsed, some r) ∈ e.visits ∧ m = r.timeoutMessage lapsed := by
  have reached := reached_of_told deed (congrArg Progress.told? progress)
  rcases List.mem_append.mp reached with brought | visited
  · obtain ⟨_, delivered, -⟩ := List.mem_map.mp brought
    obtain ⟨frame, turn, -⟩ := arrives_of_delivery deed delivered
    have scans := scans_of_lapsed deed progress
    rw [turn] at scans
    cases scans
  · obtain ⟨⟨lapsed, found⟩, mem, pair⟩ := List.mem_map.mp visited
    obtain ⟨r', rfl, same⟩ := Option.map_eq_some_iff.mp (Prod.mk.inj pair).2
    obtain ⟨-, rfl, rfl⟩ := Call.mk.inj same
    exact ⟨lapsed, mem, rfl⟩

end Entry

namespace Session

variable {s s' : Session} {m : Entry} {settings : Settings}

theorem Moved.mem_history (moved : s.Moved s' m) : m ∈ s'.history :=
  moved.history ▸ List.mem_cons_self

/-- The sender of an overdue request is told exactly if it has not been unregistered since. Serial
numbers tell a registration from a later one at the same handle, so that a handle that was given
away is noticed also if somebody has taken it over. -/
theorem Moved.told_of_visits (moved : s.Moved s' m) (reached : Reachable settings s)
    (reached' : Reachable settings s') {lapsed : Lapsed} {found : Option Registration}
    (mem : (lapsed, found) ∈ m.visits) :
    ∃ x ∈ s'.history.ended, x.Overdue m lapsed.key ∧ ∃ id, x.request = some id ∧
      ∃ recent e earlier operation r, s.history = recent ++ e :: earlier ∧
        e.Starts id (some r) operation ∧
          (found = some r ↔ ∀ n ∈ recent, n.dismisses lapsed.handle = false) := by
  have told : lapsed.key ∈ s'.history.told m.operation := by
    have visited : (lapsed.key, found.map fun r => ⟨m.operation, r, r.timeoutMessage lapsed⟩) ∈
        m.reached := List.mem_append_right _ (List.mem_map.mpr ⟨_, mem, rfl⟩)
    refine (reached'.answered.shared _).mem_iff.mpr (List.mem_append_left _ ?_)
    rw [moved.history, History.reached, if_pos rfl]
    exact List.mem_map.mpr ⟨_, List.mem_append_left _ visited, rfl⟩
  obtain ⟨x, ended, agent, key, ending⟩ :=
    reached'.lapsed_of_told moved.mem_history (Entry.scans_of_visits mem) told
  obtain ⟨id, request, begun⟩ := reached.accounted.begun_of_ended_step moved ended
  obtain ⟨e, known, operation, r, starts, stood⟩ := reached.asked_of_begun begun
  obtain ⟨recent, earlier, split⟩ := List.append_of_mem known
  have stays := reached.find?_iff split stood
  rw [key] at stays
  refine ⟨x, ended, ⟨agent, key, ending⟩, id, request, recent, e, earlier, operation, r, split,
    starts, ?_⟩
  rw [Entry.find?_of_visits moved.deed mem, moved.before]
  refine stays.trans ⟨fun all n mem => all n (List.mem_append_left _ mem), fun all n mem => ?_⟩
  rcases List.mem_append.mp mem with mem | mem
  · exact all n mem
  · rw [List.mem_singleton.mp mem]
    exact starts.dismisses _

/-- The caller that is woken waits for the overdue request exactly if its slot remembers it. A
caller is found by the key alone, and after a reset another one may have come under this key. -/
theorem Moved.woken_of_scan (moved : s.Moved s' m) (reached : Reachable settings s)
    (reached' : Reachable settings s') (scans : m.turn.Scans) {call : CallId} {message : Message}
    (new : m.before.awaited.mailFor call ≠ .delivered message)
    (came : m.after.awaited.mailFor call = .delivered message) :
    ∃ x ∈ s'.history.ended, x.Overdue m message.header.key ∧ ∃ id, x.request = some id ∧
      ∃ e ∈ s.history, e.Enlists call ∧ message.header.key ∈ e.begun ∧
        (e.operation = id →
          (id, message.header.key) ∈
            s.history.sent message.header.handle message.header.command) ∧
        ((id, message.header.key) ∈
            s.history.sent message.header.handle message.header.command →
          e.operation = id ∨ 256 ≤ s.history.begunAfter message.header.key id ∨
            256 ≤ s.history.begunAfter message.header.key e.operation) := by
  rw [Entry.awaited_of_scans moved.turned scans, moved.before] at came
  rw [moved.before] at new
  obtain ⟨posted, waiting⟩ := Awaited.waiting_of_postAll reached.single came new
  have told : message.header.key ∈ s'.history.told m.operation := by
    refine (reached'.handedOver _).mem_iff.mpr (List.mem_append_left _ ?_)
    rw [moved.history, History.settled, if_pos rfl]
    exact List.mem_append_left _ (List.mem_append_left _ (List.mem_map_of_mem posted))
  obtain ⟨x, ended, agent, key, ending⟩ := reached'.lapsed_of_told moved.mem_history scans told
  obtain ⟨id, request, -⟩ := reached.accounted.begun_of_ended_step moved ended
  obtain ⟨e, known, enlists, begun, sent⟩ := reached.enlisted _ waiting
  refine ⟨x, ended, ⟨agent, key, ending⟩, id, request, e, known, enlists, begun, ?_, ?_⟩
  · rintro rfl
    exact sent
  · intro remembered
    rcases reached.accounted.twins sent remembered with same | many | many
    · exact .inl same
    · exact .inr (.inr many)
    · exact .inr (.inl many)

end Session

/-- At every move of every scan, whatever the endpoints it has called did meanwhile: the endpoint
that is told of an overdue request is the one that asked exactly if its handle was not unregistered
since, and the caller that is woken is the one of that request exactly if its slot was not forgotten
since. -/
theorem timeouts_reach_senders {settings : Settings} {s : Session}
    (reached : Session.Reachable settings s) : s.history.Everywhere Entry.ReportsLapse := by
  refine reached.everywhere ?_
  intro s s' m before after moved
  exact
    { called := fun r message rest count progress => Entry.visit_of_called moved.deed progress
      told := by
        intro lapsed found mem
        rw [← moved.history]
        exact moved.told_of_visits before after mem
      woken := by
        intro scans call message new came
        rw [← moved.history]
        exact moved.woken_of_scan before after scans new came }

/-! ### Two endpoints whose requests are overdue -/

/-- The endpoint at the negotiated handle with this number. -/
def Registration.neighbour (number serial : Nat) : Registration :=
  { handle := UInt8.ofNat (16 + number), serial
    descriptor := { Descriptor.single .client with uuid := Uuid.ofNat (serial + 1) }
    endpoint := .custom serial }

/-- The first two negotiated handles are taken. -/
def Directory.neighbours : Directory :=
  ((Directory.ofCapacity 16).place 16 (Registration.neighbour 0 0).descriptor (.custom 0)).place 17
    (Registration.neighbour 1 1).descriptor (.custom 1)

theorem Ledger.takeLapsed_neighbours :
    (((empty.withRequest 16 0 (some 0) 0).withRequest 17 0 (some 0) 0).takeLapsed 0).1 =
      [⟨16, 0, 0, some 0⟩, ⟨17, 0, 0, some 0⟩] := by
  simp [takeLapsed, withRequest, allocate, modify, empty, Slot.begin, Slot.isDue, Slot.lapsed,
    Instant.after?]

/-- A scan has called the first of two endpoints whose requests are overdue. -/
theorem Session.exists_scan :
    ∃ s m past task, Session.Reachable {} s ∧ s.history = m :: past ∧
      m.visits = [(⟨16, 0, 0, some 0⟩, some (.neighbour 0 0))] ∧
      s.exchange.directory = .neighbours ∧ task ∈ s.tasks ∧
      task.activity = .serving ⟨.neighbour 0 0,
        (Registration.neighbour 0 0).timeoutMessage ⟨16, 0, 0, some 0⟩,
        .nextLapsed [⟨17, 0, 0, some 0⟩] 2⟩ := by
  obtain ⟨s₁, reached₁, exchange₁, -⟩ :=
    (Session.Reachable.fresh : Session.Reachable {} _).starts
      (.registerAt 16 (Registration.neighbour 0 0).descriptor (.custom 0)) 0 rfl
  obtain ⟨s₂, reached₂, exchange₂, -⟩ := reached₁.starts
    (.registerAt 17 (Registration.neighbour 1 1).descriptor (.custom 1)) 0 rfl
  have directory₂ : s₂.exchange.directory = .neighbours := by
    rw [exchange₂, exchange₁]; rfl
  have ledger₂ : s₂.exchange.ledger = .empty := by
    rw [exchange₂, exchange₁]; rfl
  have first₂ : s₂.exchange.directory.find? 16 = some (.neighbour 0 0) := by
    rw [directory₂]; rfl
  obtain ⟨s₃, reached₃, exchange₃, -⟩ := reached₂.sends first₂
    (by decide : (0 : Command) < 1) (by rw [ledger₂, Ledger.slotAt_empty]) (some 0)
  have directory₃ : s₃.exchange.directory = .neighbours := by
    rw [exchange₃]
    exact directory₂
  have second₃ : s₃.exchange.directory.find? 17 = some (.neighbour 1 1) := by
    rw [directory₃]; rfl
  have new₃ : s₃.exchange.ledger.slotAt 17 0 = { handle := 17, command := 0 } := by
    rw [exchange₃]
    show (s₂.exchange.ledger.withRequest 16 0 (some 0) 0).slotAt 17 0 = _
    rw [Ledger.slotAt_withRequest reached₂.accounted.wellFormed, if_neg (by decide), ledger₂,
      Ledger.slotAt_empty]
  obtain ⟨s₄, reached₄, exchange₄, -⟩ := reached₃.sends second₃
    (by decide : (0 : Command) < 1) (by rw [new₃]) (some 0)
  have directory₄ : s₄.exchange.directory = .neighbours := by
    rw [exchange₄]
    exact directory₃
  have lapsed : (s₄.exchange.ledger.takeLapsed 0).1 =
      [⟨16, 0, 0, some 0⟩, ⟨17, 0, 0, some 0⟩] := by
    rw [exchange₄, exchange₃, ledger₂]
    exact Ledger.takeLapsed_neighbours
  have first₄ : s₄.exchange.directory.find? 16 = some (.neighbour 0 0) := by
    rw [directory₄]; rfl
  have scans : s₄.exchange.start (.scan 0) 0 =
      ({ s₄.exchange with ledger := (s₄.exchange.ledger.takeLapsed 0).2 },
        .waiting (.serving ⟨.neighbour 0 0,
          (Registration.neighbour 0 0).timeoutMessage ⟨16, 0, 0, some 0⟩,
          .nextLapsed [⟨17, 0, 0, some 0⟩] 2⟩)) := by
    simp only [Exchange.start, Exchange.scan, lapsed, Exchange.tellLapsed, first₄]
    rfl
  obtain ⟨s₅, reached₅, exchange₅, history₅, tasks₅, -⟩ := reached₄.starts _ _ scans
  refine ⟨s₅, _, _, ⟨s₄.started, none, _⟩, reached₅, history₅, ?_, ?_, ?_, rfl⟩
  · refine (Entry.visits_of_deed (deed_of_turn ?_)).trans ?_
    · exact congrArg some scans
    show s₄.exchange.directory.visits (s₄.exchange.ledger.takeLapsed 0).1 = _
    rw [lapsed]
    exact Directory.visits_of_called first₄ rfl _
  · rw [exchange₅]
    exact directory₄
  · rw [tasks₅]
    exact List.mem_append_left _ List.mem_cons_self

theorem timeouts_reach_senders_neighbours :
    ∃ s m past, Session.Reachable {} s ∧ s.history = m :: past ∧ m.visits ≠ [] ∧
      m.ReportsLapse past := by
  obtain ⟨s, m, past, task, reached, history, visits, -⟩ := Session.exists_scan
  have last : m :: past <:+ s.history := history ▸ List.suffix_refl _
  refine ⟨s, m, past, reached, history, ?_, timeouts_reach_senders reached m past last⟩
  rw [visits]
  exact List.cons_ne_nil _ _

/-- An endpoint that has taken over the handle is told of a request that it never sent. The handler
called first unregisters the second endpoint and registers another one, which is given its handle.
-/
theorem timeouts_reach_strangers :
    ¬ ∀ s, Session.Reachable {} s → s.history.Everywhere fun m past =>
      ∀ lapsed found, (lapsed, some found) ∈ m.visits →
        ∀ x ∈ History.ended (m :: past), x.Overdue m lapsed.key →
          ∀ e ∈ past, ∀ r operation, x.request = some e.operation →
            e.Starts e.operation (some r) operation → found = r := by
  intro faithful
  obtain ⟨s₁, -, -, task, reached₁, -, -, directory₁, mem₁, activity⟩ := Session.exists_scan
  obtain ⟨s₂, reached₂, exchange₂, history₂, tasks₂, -⟩ := reached₁.starts _ 0
    (Exchange.start_unregister (directory₁ ▸ rfl :
      s₁.exchange.directory.find? 17 = some (.neighbour 1 1)) 0)
  obtain ⟨s₃, reached₃, exchange₃, history₃, tasks₃, -⟩ := reached₂.starts
    (.registerAt 17 (Registration.neighbour 1 2).descriptor (.custom 2)) 0 rfl
  have stranger : s₃.exchange.directory.find? 17 = some (.neighbour 1 2) := by
    rw [exchange₃, exchange₂, directory₁]
    rfl
  have mem₃ : task ∈ s₃.tasks := by
    rw [tasks₃, tasks₂]
    exact List.mem_append_right _ (List.mem_append_right _ mem₁)
  obtain ⟨segment, proceeds⟩ :
      ∃ segment, s₃.exchange.proceed task.activity (.endpoint .none) 0 = some segment := by
    rw [activity]
    exact ⟨_, rfl⟩
  obtain ⟨s₄, reached₄, -, history₄, -⟩ := reached₃.resumes mem₃ (.endpoint .none) 0 proceeds
  obtain ⟨s, s', before, after, moved, past⟩ :=
    reached₄.moved_of_split (show s₄.history = [] ++ _ :: s₃.history from history₄)
  have visited : (⟨17, 0, 0, some 0⟩, some (.neighbour 1 2)) ∈
      (s₃.reentry task (.endpoint .none) 0 segment).visits := by
    have next : (s₃.reentry task (.endpoint .none) 0 segment).lapsed = [⟨17, 0, 0, some 0⟩] := by
      rw [Entry.lapsed, Session.reentry, activity]
      rfl
    refine Entry.visited_of_lapsed (deed_of_turn ?_) next stranger
    exact proceeds
  obtain ⟨x, ended, overdue, id, request, recent, e, earlier, operation, r, split, starts, -⟩ :=
    moved.told_of_visits before after visited
  have mem : e ∈ s₃.history := by
    rw [← past, split]
    exact List.mem_append_right _ List.mem_cons_self
  rw [moved.history, past] at ended
  have same : Registration.neighbour 1 2 = r := by
    refine faithful s₄ reached₄ _ _ (history₄ ▸ List.suffix_refl _) _ _ visited x ended overdue e
      mem r operation ?_ (starts.mover ▸ starts)
    rw [request, starts.mover]
  -- The sender has looked its endpoint up before the handle changed hands.
  have looked := starts.looked
  have first : e ∈ s₁.history := by
    rw [history₃, history₂] at mem
    rcases List.mem_cons.mp mem with rfl | mem
    · obtain rfl := Turn.begins.inj starts.turn
      cases looked
    · rcases List.mem_cons.mp mem with rfl | mem
      · obtain rfl := Turn.begins.inj starts.turn
        cases looked
      · exact mem
  obtain ⟨handle, -, stood⟩ := Option.bind_eq_some_iff.mp looked.symm
  have old := reached₁.serial.former e first handle r stood
  rw [directory₁, ← same] at old
  exact absurd old (by decide)

end HubRelay
