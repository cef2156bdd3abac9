import HubRelay.Proofs.Switchboard.Clients

/-!
Whose the transaction under way is.

It should be a connected client's: a client that is gone can neither ask for the next piece nor end
what it started. A death ends what the dead client had under way, and so does a restart. A
registration does not: the client whose process it takes is disconnected and keeps its transaction.
So the transaction under way is a connected client's for as long as no registration evicts its
owner, and no longer.
-/

namespace HubRelay

/-- Which failure a result is can be told, whatever a success would hold. -/
instance decidableEqError {ε α : Type} [DecidableEq ε] (result : Except ε α) (error : ε) :
    Decidable (result = .error error) :=
  match result with
  | .error other => decidable_of_iff (other = error) ⟨congrArg _, Except.error.inj⟩
  | .ok _ => .isFalse nofun

namespace Switchboard

variable {s : Switchboard} {clients : List Client} {c d : Client} {pid : Pid} {callback : Callback}
  {uuid : Uuid} {id : ClientId}

/-- Whether the client with this number is connected. -/
def Connects (s : Switchboard) (id : ClientId) : Prop :=
  ∃ c ∈ s.clients, c.id = id ∧ c.pid?.isSome

/-- The transaction under way is a connected client's. -/
def Owned (s : Switchboard) : Prop :=
  ∀ t ∈ s.dock.pending, s.Connects t.client

/-- A registration that takes the process of the client whose transaction is under way, for another
client. It fails like any other registration if no number or no link is to be had, and then evicts
nobody. -/
def Evicts (s : Switchboard) : HostOperation → Prop
  | .register pid callback uuid around =>
      (s.register pid callback uuid around).1.isOk = true ∧
        ∃ t ∈ s.dock.pending, ∃ c ∈ s.clients,
          c.id = t.client ∧ c.runsAs pid = true ∧ c.uuid ≠ uuid
  | _ => False

/-- No operation of the run evicts the client whose transaction is under way. -/
def Spares (s : Switchboard) : List HostOperation → Prop
  | [] => True
  | operation :: rest => ¬ s.Evicts operation ∧ (s.after operation).Spares rest

instance (s : Switchboard) : DecidablePred s.Connects :=
  fun id => inferInstanceAs (Decidable (∃ c ∈ s.clients, c.id = id ∧ c.pid?.isSome))

instance (s : Switchboard) : Decidable s.Owned :=
  inferInstanceAs (Decidable (∀ t ∈ s.dock.pending, s.Connects t.client))

instance (s : Switchboard) : DecidablePred s.Evicts
  | .register pid callback uuid around =>
      inferInstanceAs (Decidable ((s.register pid callback uuid around).1.isOk = true ∧
        ∃ t ∈ s.dock.pending, ∃ c ∈ s.clients,
          c.id = t.client ∧ c.runsAs pid = true ∧ c.uuid ≠ uuid))
  | .death _ | .restart | .openEndpoint _ _ | .closeEndpoint _ _ | .hubEndpoint _ _
  | .broadcast _ _ | .route _ _ | .tellApps _ _ | .startLoad _ _ _ | .startUnload _ _ _
  | .settle _ _ | .nextFragment _ _ _ _ | .tellResult _ _ _ => .isFalse not_false

/-- Whether a run spares the owner can be decided along the run. -/
def decideSpares : (s : Switchboard) → (operations : List HostOperation) →
    Decidable (s.Spares operations)
  | _, [] => .isTrue trivial
  | s, operation :: rest =>
      have := decideSpares (s.after operation) rest
      inferInstanceAs (Decidable (¬ s.Evicts operation ∧ (s.after operation).Spares rest))

instance (s : Switchboard) : DecidablePred s.Spares := s.decideSpares

/-! ### Clients that stay connected -/

theorem mem_disconnectFirst_of_ne {test : Client → Bool} (found : clients.find? test = some c)
    (mem : d ∈ clients) (other : d ≠ c) : d ∈ disconnectFirst test clients := by
  induction clients with
  | nil => cases mem
  | cons head rest ih =>
      rw [disconnectFirst]
      by_cases passes : test head = true
      · rw [List.find?_cons_of_pos passes] at found
        obtain rfl := Option.some.inj found
        rw [if_pos passes]
        exact List.mem_cons_of_mem _ ((List.mem_cons.mp mem).resolve_left other)
      · rw [List.find?_cons_of_neg passes] at found
        rw [if_neg passes]
        rcases List.mem_cons.mp mem with rfl | mem
        · exact List.mem_cons_self
        · exact List.mem_cons_of_mem _ (ih found mem)

theorem exists_mem_editEndpoints (edit : Table EndpointId Unit → Table EndpointId Unit)
    (pid : Pid) (mem : c ∈ clients) :
    ∃ later ∈ editEndpoints pid edit clients, later.id = c.id ∧ later.pid? = c.pid? := by
  induction clients with
  | nil => cases mem
  | cons head rest ih =>
      rw [editEndpoints]
      by_cases runs : head.runsAs pid = true
      · rw [if_pos runs]
        rcases List.mem_cons.mp mem with rfl | mem
        · exact ⟨_, List.mem_cons_self, rfl, rfl⟩
        · exact ⟨c, List.mem_cons_of_mem _ mem, rfl, rfl⟩
      · rw [if_neg runs]
        rcases List.mem_cons.mp mem with rfl | mem
        · exact ⟨c, List.mem_cons_self, rfl, rfl⟩
        · obtain ⟨later, mem, same⟩ := ih mem
          exact ⟨later, List.mem_cons_of_mem _ mem, same⟩

theorem mem_connect_of_ne (mem : c ∈ clients) (other : c.uuid ≠ uuid) :
    c ∈ connect pid callback uuid id clients := by
  unfold connect
  split
  · exact List.mem_map.mpr ⟨c, mem, if_neg (mt beq_iff_eq.mp other)⟩
  · exact List.mem_append_left _ mem

theorem exists_mem_connect (mem : c ∈ clients) (own : c.uuid = uuid) :
    ∃ later ∈ connect pid callback uuid id clients, later.id = c.id ∧ later.pid? = some pid := by
  have known : clients.any (·.uuid == uuid) = true :=
    List.any_eq_true.mpr ⟨c, mem, beq_iff_eq.mpr own⟩
  unfold connect
  rw [if_pos known]
  exact ⟨_, List.mem_map.mpr ⟨c, mem, if_pos (beq_iff_eq.mpr own)⟩, rfl, rfl⟩

theorem mem_displace_of_stays (mem : c ∈ clients) (stays : c.runsAs pid = true → c.uuid = uuid) :
    c ∈ displace pid uuid clients := by
  refine List.mem_map.mpr ⟨c, mem, if_neg fun stale => ?_⟩
  obtain ⟨runs, other⟩ := (Bool.and_eq_true _ _).mp stale
  exact bne_iff_ne.mp other (stays runs)

theorem mem_displace_of_stale (mem : c ∈ clients) (runs : c.runsAs pid = true)
    (other : c.uuid ≠ uuid) : c.disconnected ∈ displace pid uuid clients := by
  refine List.mem_map.mpr ⟨c, mem, if_pos ?_⟩
  exact (Bool.and_eq_true _ _).mpr ⟨runs, bne_iff_ne.mpr other⟩

/-! ### One operation -/

/-- A client stays connected through a registration exactly if this does not take its process. -/
theorem connects_joined_iff {roster : Roster}
    (later : (s.joined pid callback uuid id roster).Sound) {owner : ClientId}
    (connected : s.Connects owner) :
    (s.joined pid callback uuid id roster).Connects owner ↔
      ¬ ∃ c ∈ s.clients, c.id = owner ∧ c.runsAs pid = true ∧ c.uuid ≠ uuid := by
  constructor
  · rintro ⟨d, mem, same, runs⟩ ⟨c, stood, rfl, ran, other⟩
    -- The client stands there without its process, and nobody else has its number.
    have cut : c.disconnected ∈
        (s.joined pid callback uuid id roster).clients :=
      mem_connect_of_ne (mem_displace_of_stale stood ran other) other
    obtain rfl := List.inj_on_of_nodup_map later.nodup_ids mem cut same
    cases runs
  · intro spared
    obtain ⟨c, mem, rfl, runs⟩ := connected
    by_cases own : c.uuid = uuid
    · have stays : c ∈ displace pid uuid s.clients := mem_displace_of_stays mem fun _ => own
      obtain ⟨later, mem, same, runs⟩ : ∃ later ∈ (s.joined pid callback uuid id roster).clients,
          later.id = c.id ∧ later.pid? = some pid := exists_mem_connect stays own
      exact ⟨later, mem, same, by rw [runs]; rfl⟩
    · have stays : c ∈ displace pid uuid s.clients :=
        mem_displace_of_stays mem fun ran => absurd ⟨c, mem, rfl, ran, own⟩ spared
      exact ⟨c, mem_connect_of_ne stays own, rfl, runs⟩

theorem owned_withPending {pending : Option Transaction}
    (connected : ∀ t ∈ pending, s.Connects t.client) : (s.withPending pending).Owned :=
  connected

/-- No operation but a registration takes a transaction's owner away and leaves the transaction. -/
theorem Owned.acts {t : Switchboard} {operation : HostOperation} {calls : List MonitorCall}
    (owned : s.Owned) (acts : s.Acts operation t calls) : t.Owned := by
  cases acts with
  | idle => exact owned
  | @died pid client found =>
      intro t pending
      change t ∈ (s.dock.settleClient client.id).2.pending at pending
      unfold Dock.settleClient at pending
      split at pending
      · cases pending
      · next others =>
        -- What is still under way is not the dead client's.
        obtain ⟨c, mem, same, connected⟩ := owned t pending
        refine ⟨c, mem_disconnectFirst_of_ne found mem ?_, same, connected⟩
        rintro rfl
        have under : s.dock.pending = some t := pending
        exact others (by rw [under]; exact beq_iff_eq.mpr same.symm)
  | opened | closed =>
      intro t pending
      obtain ⟨c, mem, same, connected⟩ := owned t pending
      obtain ⟨later, mem, same', runs⟩ := exists_mem_editEndpoints _ _ mem
      exact ⟨later, mem, same'.trans same, runs ▸ connected⟩
  | @started _ pid client t found own =>
      refine owned_withPending fun t' pending => ?_
      obtain rfl := Option.some.inj pending
      have runs := List.find?_some found
      rw [Client.runsAs_iff] at runs
      exact ⟨client, List.mem_of_find?_eq_some found, own.symm, by rw [runs]; rfl⟩
  | @handed _ t later pending own =>
      refine owned_withPending fun t' pending' => ?_
      obtain rfl := Option.some.inj pending'
      rw [own]
      exact owned t pending
  | cleared => exact owned_withPending nofun

/-- An operation keeps the transaction under way a connected client's exactly if it does not evict
that client. The death of a process settles what its client has under way, so it does no harm. -/
theorem Owned.after_iff (owned : s.Owned) (sound : s.Sound) (operation : HostOperation) :
    (s.after operation).Owned ↔ ¬ s.Evicts operation := by
  by_cases registers : ∃ pid callback uuid around,
      operation = .register pid callback uuid around
  · obtain ⟨pid, callback, uuid, around, rfl⟩ := registers
    have later := sound.change (s.change_register pid callback uuid around)
    have admitted := s.admission pid callback uuid around
    show (s.register pid callback uuid around).2.1.Owned ↔
      ¬ ((s.register pid callback uuid around).1.isOk = true ∧
        ∃ t ∈ s.dock.pending, ∃ c ∈ s.clients,
          c.id = t.client ∧ c.runsAs pid = true ∧ c.uuid ≠ uuid)
    generalize (s.register pid callback uuid around).2.2.calls = calls at admitted
    generalize (s.register pid callback uuid around).2.1 = t at admitted later ⊢
    generalize (s.register pid callback uuid around).1 = result at admitted ⊢
    cases admitted with
    | refused => exact iff_of_true owned fun evicts => Bool.false_ne_true evicts.1
    | joined id roster =>
        constructor
        · rintro owned' ⟨-, t, pending, evicted⟩
          exact (connects_joined_iff later (owned t pending)).mp (owned' t pending) evicted
        · intro spared t pending
          refine (connects_joined_iff later (owned t pending)).mpr fun evicted => ?_
          exact spared ⟨rfl, t, pending, evicted⟩
  · simp only [not_exists] at registers
    refine iff_of_true (owned.acts (s.acts registers)) fun evicts => ?_
    cases operation with
    | register pid callback uuid around => exact registers _ _ _ _ rfl
    | _ => exact evicts

/-! ### Runs -/

/-- The transaction under way is a connected client's at every moment of a run exactly if the run
evicts no owner. In the other direction, the first eviction leaves a moment without an owner. -/
theorem Owned.run_iff (owned : s.Owned) (sound : s.Sound) (operations : List HostOperation) :
    (∀ past, past <+: operations → (s.run past).Owned) ↔ s.Spares operations := by
  induction operations generalizing s with
  | nil =>
      refine iff_of_true (fun past front => ?_) trivial
      obtain rfl := List.prefix_nil.mp front
      exact owned
  | cons operation rest ih =>
      have sound' := sound.change (s.change_after operation)
      constructor
      · intro all
        have first : (s.after operation).Owned := all [operation] ⟨rest, rfl⟩
        refine ⟨(owned.after_iff sound operation).mp first, (ih first sound').mp ?_⟩
        intro past front
        exact all (operation :: past) (List.cons_prefix_cons.mpr ⟨rfl, front⟩)
      · rintro ⟨spared, spares⟩ past front
        cases past with
        | nil => exact owned
        | cons head past =>
            obtain ⟨rfl, rest⟩ := List.cons_prefix_cons.mp front
            have first := (owned.after_iff sound head).mpr spared
            exact (ih first sound').mpr spares past rest

theorem owned_ofContents (settings : HostSettings) (contents : Option ByteArray) :
    (ofContents settings contents).Owned :=
  nofun

/-! ### What a transaction lets its client do -/

theorem Owned.connects_of_nextFragment (owned : s.Owned) {client : ClientId}
    {number : TransactionNumber} {acknowledged : Nat} {now : Instant}
    (handed : (s.nextFragment client number acknowledged now).isSome = true) :
    s.Connects client := by
  unfold nextFragment Dock.next at handed
  cases pending : s.dock.pending with
  | none =>
      rw [pending] at handed
      cases handed
  | some t =>
      simp only [pending] at handed
      split at handed
      · cases handed
      · next own =>
        have same : t.client = client := by
          simp only [Transaction.isOf, Bool.not_eq_true', Bool.not_eq_false, Bool.and_eq_true,
            beq_iff_eq] at own
          exact own.1
        rw [← same]
        exact owned t pending

theorem pending_of_start_error {d : Dock} {client : ClientId} {number : TransactionNumber}
    {upload : Option Upload} {now : Instant} {error : HostError}
    (refused : d.start client number upload now = .error error) :
    ∃ t ∈ d.pending, error = .transactionPending t.kind t.number t.client := by
  unfold Dock.start at refused
  split at refused
  · next t pending =>
    split at refused
    · cases refused
    · exact ⟨t, pending, (Except.error.inj refused).symm⟩
  · cases refused

/-- Whoever is refused is told of a connected client. -/
theorem Owned.connects_of_start (owned : s.Owned) {number number' : TransactionNumber}
    {upload : Option Upload} {now : Instant} {kind : TransactionKind} {owner : ClientId}
    (refused : (do let client ← s.clientOf pid
                   let dock ← s.dock.start client.id number upload now
                   return { s with dock } : Except HostError Switchboard) =
      .error (.transactionPending kind number' owner)) : s.Connects owner := by
  unfold clientOf at refused
  cases found : s.byPid? pid with
  | none => simp only [found, bind, Except.bind] at refused; cases refused
  | some client =>
      simp only [found, bind, Except.bind] at refused
      split at refused
      · next error started =>
        obtain rfl := Except.error.inj refused
        obtain ⟨t, pending, same⟩ := pending_of_start_error started
        obtain ⟨-, -, rfl⟩ := HostError.transactionPending.inj same
        exact owned t pending
      · cases refused

end Switchboard

/-- At every moment of a run the transaction under way is a connected client's, exactly if no
registration of the run takes the process of the client whose transaction is under way. While this
is so, pieces are handed out to connected clients only, and whoever is refused a load or an unload
is refused for a connected client's sake. -/
theorem transactions_owned (settings : HostSettings) (contents : Option ByteArray)
    (operations : List HostOperation) :
    let start := Switchboard.ofContents settings contents
    ((∀ past, past <+: operations → (start.run past).Owned) ↔ start.Spares operations) ∧
      (start.Spares operations →
        let s := start.run operations
        (∀ client number acknowledged now,
          (s.nextFragment client number acknowledged now).isSome = true → s.Connects client) ∧
        (∀ pid upload now kind number owner,
          s.startLoad pid upload now = .error (.transactionPending kind number owner) →
            s.Connects owner) ∧
        ∀ pid number' now kind number owner,
          s.startUnload pid number' now = .error (.transactionPending kind number owner) →
            s.Connects owner) := by
  intro start
  have sound := Switchboard.sound_ofContents settings contents
  have kept := (Switchboard.owned_ofContents settings contents).run_iff sound operations
  refine ⟨kept, fun spares => ?_⟩
  have owned := kept.mpr spares operations List.prefix_rfl
  refine ⟨?_, ?_, ?_⟩
  · intro client number acknowledged now handed
    exact owned.connects_of_nextFragment handed
  · intro pid upload now kind number owner refused
    exact owned.connects_of_start refused
  · intro pid number' now kind number owner refused
    exact owned.connects_of_start refused

/-- A load of five bytes in pieces of two. -/
def Upload.short : Upload :=
  .ofBinary { transaction := 8, appId := 1, appVersion := 1, appFlags := 0, apiVersion := 1 }
    [1, 2, 3, 4, 5] 2

/-- A run in which a client goes on with its load as another process, its old process becomes
another client's, and that one is refused, dies with nothing under way and comes back. -/
def HostOperation.moves : List HostOperation :=
  [.register 7 ⟨0⟩ (.ofNat 1) ⟨true, true⟩, .startLoad 7 .short 0,
    .register 9 ⟨0⟩ (.ofNat 1) ⟨true, true⟩, .register 7 ⟨1⟩ (.ofNat 2) ⟨true, true⟩,
    .nextFragment 2 8 0 1, .startUnload 7 9 2, .death 7, .register 7 ⟨2⟩ (.ofNat 2) ⟨true, true⟩]

theorem transactions_owned_moves :
    let start := Switchboard.ofContents {} none
    let s := start.run HostOperation.moves
    start.Spares HostOperation.moves ∧
      (∀ past, past <+: HostOperation.moves → (start.run past).Owned) ∧
      (s.nextFragment 2 8 1 3).isSome = true ∧
      s.startUnload 7 9 3 = .error (.transactionPending .load 8 2) ∧ s.Connects 2 := by
  intro start s
  have spares : start.Spares HostOperation.moves := by decide +kernel
  have refused : s.startUnload 7 9 3 = .error (.transactionPending .load 8 2) := by decide +kernel
  obtain ⟨kept, lets⟩ := transactions_owned {} none HostOperation.moves
  exact ⟨spares, kept.mpr spares, by decide +kernel, refused,
    (lets spares).2.2 7 9 3 .load 8 2 refused⟩

/-- A run in which the process of a client with a load under way becomes another client's. -/
def HostOperation.eviction : List HostOperation :=
  [.register 7 ⟨0⟩ (.ofNat 1) ⟨true, true⟩, .startLoad 7 .short 0,
    .register 7 ⟨1⟩ (.ofNat 2) ⟨true, true⟩]

/-- The client that is gone is still handed out a piece, and the other one is refused for its sake.
Its death is never reported, since its process lives on as another client's, so only time can end
its transaction. -/
theorem evicted_transaction_stays :
    let s := (Switchboard.ofContents {} none).run HostOperation.eviction
    ¬ s.Owned ∧ ¬ s.Connects 2 ∧ (s.nextFragment 2 8 0 1).isSome = true ∧
      s.startUnload 7 9 1 = .error (.transactionPending .load 8 2) := by
  exact ⟨by decide +kernel, by decide +kernel, by decide +kernel, by decide +kernel⟩

end HubRelay
