import HubRelay.Proofs.Station.Counts
import Mathlib.Data.List.Sort

/-!
A station watches exactly its connected clients.

A link is counted per process and does not know its client, a round of looking drops the count of a
process before the switchboard hears of the death, and registering links before it unlinks.
Nevertheless everything cancels: between any two steps every connected client has one link
(`Station.Attended`). A round of looking takes exactly the clients whose processes are gone, with
what one of them had under way, in whatever order it reports them (`Switchboard.losing`).
-/

namespace HubRelay

/-- The client, which is disconnected if its process is gone. -/
def Client.losing (gone : Pid → Bool) (c : Client) : Client :=
  if c.pid?.any gone then c.disconnected else c

namespace Switchboard

/-- Whether the client of the transaction is connected as a process that is gone. -/
def loses (s : Switchboard) (gone : Pid → Bool) (t : Transaction) : Bool :=
  s.clients.any fun c => c.id == t.client && c.pid?.any gone

/-- The switchboard without the connections of the processes that are gone, and without what one of
their clients had under way. -/
def losing (s : Switchboard) (gone : Pid → Bool) : Switchboard :=
  { s with
    clients := s.clients.map (·.losing gone)
    dock := { s.dock with pending := s.dock.pending.filter fun t => !s.loses gone t } }

end Switchboard

/-! ### Losing clients -/

section

variable {s : Switchboard} {clients : List Client} {c : Client} {pid : Pid} {gone also : Pid → Bool}

/-- A client keeps its number when its process is gone. -/
@[simp] theorem Client.id_losing (gone : Pid → Bool) (c : Client) : (c.losing gone).id = c.id := by
  unfold losing
  split <;> rfl

/-- It is left alone if its process lives. -/
theorem Client.losing_of_not_any (there : c.pid?.any gone = false) : c.losing gone = c := by
  rw [losing, there]
  rfl

/-- A client still has a process after some deaths if it had one that was not among them. -/
theorem Client.pid?_losing :
    (c.losing gone).pid? = some pid ↔ c.pid? = some pid ∧ gone pid = false := by
  unfold losing
  cases runs : c.pid? with
  | none => simp [runs]
  | some own =>
      cases lost : gone own with
      | false =>
          simp only [Option.any_some, lost, Bool.false_eq_true, if_false, runs]
          constructor
          · rintro same
            obtain rfl := Option.some.inj same
            exact ⟨rfl, lost⟩
          · rintro ⟨same, -⟩
            exact same
      | true =>
          simp only [Option.any_some, lost, if_true, disconnected, reduceCtorEq, Option.some.injEq,
            false_iff, not_and]
          rintro rfl
          simp [lost]

/-- Losing processes one after another is losing all of them at once. -/
theorem Client.losing_losing (gone also : Pid → Bool) (c : Client) :
    (c.losing gone).losing also = c.losing fun pid => gone pid || also pid := by
  unfold losing
  cases runs : c.pid? with
  | none => simp [runs]
  | some own =>
      cases lost : gone own <;> cases lost' : also own <;>
        simp [disconnected, runs, lost, lost']

/-- A client is hit by two rounds of deaths if its process is in one of them. -/
theorem Client.any_losing (gone also : Pid → Bool) (c : Client) :
    (c.pid?.any gone || (c.losing gone).pid?.any also) =
      c.pid?.any fun pid => gone pid || also pid := by
  unfold losing
  cases runs : c.pid? with
  | none => simp [runs]
  | some own => cases lost : gone own <;> simp [disconnected, runs, lost]

namespace Switchboard

/-- The same goes for what is under way, which follows its client. -/
theorem loses_losing (s : Switchboard) (gone also : Pid → Bool) (t : Transaction) :
    (s.loses gone t || (s.losing gone).loses also t) =
      s.loses (fun pid => gone pid || also pid) t := by
  simp only [loses, losing, List.any_map, Function.comp_def, Client.id_losing, ← Client.any_losing]
  rw [Bool.eq_iff_iff, Bool.or_eq_true]
  simp only [List.any_eq_true, Bool.and_eq_true, Bool.or_eq_true]
  constructor
  · rintro (⟨c, mem, own, lost⟩ | ⟨c, mem, own, lost⟩)
    · exact ⟨c, mem, own, .inl lost⟩
    · exact ⟨c, mem, own, .inr lost⟩
  · rintro ⟨c, mem, own, lost | lost⟩
    · exact .inl ⟨c, mem, own, lost⟩
    · exact .inr ⟨c, mem, own, lost⟩

/-- Losing some and then others is losing all of them. -/
theorem losing_losing (s : Switchboard) (gone also : Pid → Bool) :
    (s.losing gone).losing also = s.losing fun pid => gone pid || also pid := by
  have clients : (s.losing gone).clients.map (·.losing also) =
      s.clients.map (·.losing fun pid => gone pid || also pid) := by
    rw [losing, List.map_map]
    exact List.map_congr_left fun c _ => c.losing_losing gone also
  have pending : (s.losing gone).dock.pending.filter (fun t => !(s.losing gone).loses also t) =
      s.dock.pending.filter fun t => !s.loses (fun pid => gone pid || also pid) t := by
    simp only [← loses_losing, Bool.not_or]
    rw [losing, Option.filter_filter]
  rw [losing, clients, pending]
  rfl

/-- Only what is said of the connected processes matters. -/
theorem losing_congr (same : ∀ c ∈ s.clients, c.pid?.any gone = c.pid?.any also) :
    s.losing gone = s.losing also := by
  have clients : s.clients.map (·.losing gone) = s.clients.map (·.losing also) :=
    List.map_congr_left fun c mem => by rw [Client.losing, Client.losing, same c mem]
  have loses : s.loses gone = s.loses also := by
    funext t
    unfold loses
    rw [Bool.eq_iff_iff, List.any_eq_true, List.any_eq_true]
    constructor
    · rintro ⟨c, mem, lost⟩
      exact ⟨c, mem, same c mem ▸ lost⟩
    · rintro ⟨c, mem, lost⟩
      exact ⟨c, mem, (same c mem).symm ▸ lost⟩
  rw [losing, losing, clients, loses]

/-- Where no process is gone the switchboard stays as it is. -/
theorem losing_none (s : Switchboard) : (s.losing fun _ => false) = s := by
  have clients : s.clients.map (·.losing fun _ => false) = s.clients :=
    (List.map_congr_left fun c _ => c.losing_of_not_any (by simp)).trans (List.map_id _)
  have loses (t : Transaction) : s.loses (fun _ => false) t = false :=
    List.any_eq_false.mpr (by simp)
  have pending : s.dock.pending.filter (fun t => !s.loses (fun _ => false) t) = s.dock.pending := by
    cases s.dock.pending with
    | none => rfl
    | some t => rw [Option.filter_some, loses]; rfl
  rw [losing, clients, pending]

/-- No two clients run as the same process. -/
theorem Sound.nodup_pids (sound : s.Sound) : (s.clients.filterMap Client.pid?).Nodup := by
  refine List.pairwise_filterMap.mpr ((List.pairwise_map.mp sound.nodup_uuids).imp_of_mem ?_)
  intro c other mem mem' apart pid runs pid' runs' same
  subst same
  exact apart (sound.pids c mem other mem' pid (Client.runsAs_iff.mpr runs)
    (Client.runsAs_iff.mpr runs'))

theorem any_pid?_eq_runsAs (c : Client) (pid : Pid) :
    c.pid?.any (· == pid) = c.runsAs pid := by
  unfold Client.runsAs
  cases c.pid? <;> rfl

/-- Where no process runs two clients, the first one that runs as a process is the only one. -/
theorem disconnectFirst_eq_losing (apart : (clients.filterMap Client.pid?).Nodup) :
    disconnectFirst (·.runsAs pid) clients = clients.map (·.losing (· == pid)) := by
  induction clients with
  | nil => rfl
  | cons c rest ih =>
      rw [disconnectFirst, List.map_cons, Client.losing, any_pid?_eq_runsAs]
      by_cases runs : c.runsAs pid = true
      · rw [if_pos runs, if_pos runs]
        rw [List.filterMap_cons_some (Client.runsAs_iff.mp runs)] at apart
        have others : rest.map (·.losing (· == pid)) = rest := by
          refine (List.map_congr_left fun other mem => ?_).trans (List.map_id _)
          refine other.losing_of_not_any ?_
          rw [any_pid?_eq_runsAs, Bool.eq_false_iff, ne_eq, Client.runsAs_iff]
          intro same
          exact (List.nodup_cons.mp apart).1 (List.mem_filterMap.mpr ⟨other, mem, same⟩)
        rw [others]
      · rw [if_neg runs, if_neg runs, ih]
        exact apart.sublist ((List.sublist_cons_self c rest).filterMap _)

/-- Settling a client drops what it has under way and touches nothing else. -/
theorem settleClient_eq (d : Dock) (client : ClientId) :
    (d.settleClient client).2 =
      { d with pending := d.pending.filter fun t => t.client != client } := by
  obtain ⟨timeout, pending⟩ := d
  cases pending with
  | none => rfl
  | some t => cases own : t.client == client <;> simp [Dock.settleClient, own, bne, Option.filter]

/-- The death of a process loses its client, with what it had under way. Only one client runs as the
process, so that the first that is found is all of them. -/
theorem Sound.death_eq (sound : s.Sound) (pid : Pid) : (s.death pid).1 = s.losing (· == pid) := by
  unfold death byPid?
  cases found : s.clients.find? (·.runsAs pid) with
  | none =>
      have nobody : ∀ c ∈ s.clients, c.pid?.any (· == pid) = c.pid?.any fun _ => false := by
        intro c mem
        rw [any_pid?_eq_runsAs, Bool.eq_false_iff.mpr (List.find?_eq_none.mp found c mem)]
        cases c.pid? <;> rfl
      rw [losing_congr nobody, losing_none]
  | some client =>
      have mem := List.mem_of_find?_eq_some found
      have runs : client.runsAs pid = true := by simpa using List.find?_some found
      have owner (t : Transaction) : s.loses (· == pid) t = (t.client == client.id) := by
        rw [Bool.eq_iff_iff, beq_iff_eq, loses, List.any_eq_true]
        simp only [any_pid?_eq_runsAs, Bool.and_eq_true, beq_iff_eq]
        constructor
        · rintro ⟨c, mem', own, runs'⟩
          have same := sound.pids c mem' client mem pid runs' runs
          rw [← List.inj_on_of_nodup_map sound.nodup_uuids mem' mem same, own]
        · rintro own
          exact ⟨client, mem, own.symm, runs⟩
      simp only [losing, disconnectFirst_eq_losing sound.nodup_pids, owner]
      rw [settleClient_eq]
      rfl

end Switchboard

end

/-! ### What the monitor is asked -/

/-- Ending a link asks for none. -/
theorem Client.link_notMem_cut (c : Client) (pid : Pid) (callback : Callback) (accepted : Bool) :
    .link pid callback accepted ∉ c.cut := by
  intro mem
  obtain ⟨link, -, same⟩ := Option.map_eq_some_iff.mp (Option.mem_toList.mp mem)
  cases same

namespace Switchboard

variable {s : Switchboard}

/-- Registering asks for a link at most of its own process, and takes the answer as it is. -/
theorem eq_of_link_mem {pid other : Pid} {callback callback' : Callback} {uuid : Uuid}
    {around : Surroundings} {accepted : Bool}
    (mem : .link other callback' accepted ∈ (s.register pid callback uuid around).2.2.calls) :
    other = pid ∧ accepted = around.linkable := by
  unfold register at mem
  split at mem
  · cases mem
  · cases linkable : around.linkable with
    | false =>
        simp only [linkable, Bool.not_false, if_true, List.mem_singleton] at mem
        obtain ⟨rfl, -, rfl⟩ := MonitorCall.link.inj mem
        exact ⟨rfl, rfl⟩
    | true =>
        simp only [linkable, Bool.not_true, Bool.false_eq_true, if_false] at mem
        split at mem
        · simp only [List.mem_cons, MonitorCall.link.injEq, reduceCtorEq, List.not_mem_nil,
            or_false] at mem
          exact ⟨mem.1, mem.2.2⟩
        · rcases List.mem_cons.mp mem with same | mem
          · obtain ⟨rfl, -, rfl⟩ := MonitorCall.link.inj same
            exact ⟨rfl, rfl⟩
          · rcases List.mem_append.mp mem with mem | mem
            · obtain ⟨c, -, cut⟩ := List.mem_flatMap.mp mem
              exact absurd cut (c.link_notMem_cut _ _ _)
            · obtain ⟨c, -, cut⟩ := List.mem_flatMap.mp mem
              exact absurd cut (c.link_notMem_cut _ _ _)

/-- Nothing but a registration asks for a link. -/
theorem link_notMem_asked {operation : HostOperation} {pid : Pid} {callback : Callback}
    {accepted : Bool}
    (other : ∀ pid callback uuid around, operation ≠ .register pid callback uuid around) :
    .link pid callback accepted ∉ s.asked operation := by
  intro mem
  have acts := s.acts other
  generalize s.asked operation = calls at acts mem
  generalize s.after operation = t at acts
  cases acts with
  | @died _ client => exact client.link_notMem_cut _ _ _ mem
  | _ => cases mem

/-- Every client that runs is linked, and nobody else. -/
theorem Sound.pids_links (sound : s.Sound) :
    s.links.map Prod.fst = ↑(s.clients.filterMap Client.pid?) := by
  rw [links, linksOf, Multiset.map_coe, List.map_filterMap]
  refine congrArg _ (List.filterMap_congr fun c mem => ?_)
  exact (sound.coherent c mem).pid_connection

end Switchboard

namespace Station

variable {s t : Station} {living : Pid → Bool}

/-- A round of looking that reports the deaths in this order. -/
def report (s : Station) (living : Pid → Bool) (reports : List Pid) : Station :=
  reports.foldl (fun s pid => (s.death pid).1) { s with watch := (s.watch.look living).2 }

/-- The watch itself reports them in the order in which it finds them. -/
theorem look_eq_report (s : Station) (living : Pid → Bool) :
    s.look living = s.report living (s.watch.look living).1 := rfl

/-- What can happen to a station: a registration, whose process is linked if it can be, a death that
is reported from outside, any other operation, whatever becomes of the disk, and a round of looking,
which may report the deaths in any order. -/
inductive Step : Station → Station → Prop
  | registered (s : Station) (pid : Pid) (callback : Callback) (uuid : Uuid) :
      Step s (s.register pid callback uuid (Watch.isLinkable pid)).2.1
  | died (s : Station) (pid : Pid) : Step s (s.death pid).1
  | acted (s : Station) {operation : HostOperation} :
      (∀ pid callback uuid around, operation ≠ .register pid callback uuid around) →
      (∀ pid, operation ≠ .death pid) → Step s { s with board := s.board.after operation }
  | stored (s : Station) (disk : Disk) : Step s { s with disk }
  | looked (s : Station) (living : Pid → Bool) {reports : List Pid} :
      reports.Perm (s.watch.look living).1 → Step s (s.report living reports)

/-- The watch counts the links of the clients whose processes are there. During a round of looking
some are gone and still connected; the parameter says which ones are there, so that the invariant
also holds between two reports of a round. -/
structure Attended (s : Station) (living : Pid → Bool) : Prop where
  sound : s.board.Sound
  counts : s.watch.Counts ((s.board.links.map Prod.fst).filter fun pid => living pid = true)

/-- When a host starts, no client is connected and nothing is watched. -/
theorem attended_ofDisk (settings : HostSettings) (disk : Disk) :
    (ofDisk settings disk).Attended fun _ => true := by
  refine ⟨Switchboard.sound_ofContents settings _, ?_⟩
  have none_linked : (ofDisk settings disk).board.links = 0 :=
    Switchboard.links_ofContents settings _
  rw [none_linked]
  exact Watch.counts_empty

/-- While all deaths have been reported the watch counts each connected process once. -/
theorem Attended.counts_all (attended : s.Attended fun _ => true) :
    s.watch.Counts ↑(s.board.clients.filterMap Client.pid?) := by
  rw [← attended.sound.pids_links]
  simpa using attended.counts

/-- An operation with the calls that it asks for. -/
theorem Attended.follow (attended : s.Attended living) (operation : HostOperation) (disk : Disk)
    (answered : ∀ pid callback accepted, .link pid callback accepted ∈ s.board.asked operation →
      accepted = Watch.isLinkable pid ∧ living pid = true) :
    ({ s with board := s.board.after operation, disk }.follow (s.board.asked operation)).Attended
      living := by
  refine ⟨attended.sound.change (s.board.change_after operation), ?_⟩
  refine attended.counts.follow (attended.sound.leads operation) ?_ ?_
  · intro pid callback accepted mem
    exact (answered pid callback accepted mem).1
  · intro pid callback mem
    exact (answered pid callback true mem).2

/-- Registering watches the new process and lets go of the one it displaces. The link is made before
the old one is ended, so that a client that registers again from the same process has two links in
between. -/
theorem Attended.register (attended : s.Attended fun _ => true) (pid : Pid) (callback : Callback)
    (uuid : Uuid) :
    (s.register pid callback uuid (Watch.isLinkable pid)).2.1.Attended fun _ => true := by
  refine attended.follow (.register pid callback uuid _) _ ?_
  intro other callback' accepted mem
  obtain ⟨rfl, rfl⟩ := Switchboard.eq_of_link_mem mem
  exact ⟨rfl, rfl⟩

/-- The report of a death changes the switchboard only for clients of that process, which the watch
has dropped by then. -/
theorem Attended.death (attended : s.Attended living) (pid : Pid) :
    (s.death pid).1.Attended living := by
  refine attended.follow (.death pid) s.disk ?_
  intro other callback accepted mem
  exact absurd mem (Switchboard.link_notMem_asked nofun)

/-- Operations that ask nothing of the watch leave it in step with the switchboard. -/
theorem Attended.act (attended : s.Attended living) {operation : HostOperation}
    (nothing : s.board.asked operation = []) :
    { s with board := s.board.after operation }.Attended living := by
  have followed := attended.follow operation s.disk (by simp [nothing])
  rwa [nothing] at followed

/-! ### Rounds of looking -/

/-- Deaths may be reported one after another, in any order. -/
theorem Attended.deaths (attended : s.Attended living) (reports : List Pid) :
    (reports.foldl (fun s pid => (s.death pid).1) s).Attended living := by
  induction reports generalizing s with
  | nil => exact attended
  | cons pid rest ih => exact ih (attended.death pid)

/-- What the switchboard loses by a series of reports is exactly the processes reported. -/
theorem Attended.board_deaths (attended : s.Attended living) (reports : List Pid) :
    (reports.foldl (fun s pid => (s.death pid).1) s).board =
      s.board.losing fun pid => reports.contains pid := by
  induction reports generalizing s with
  | nil => exact s.board.losing_none.symm
  | cons pid rest ih =>
      have first : (s.death pid).1.board = s.board.losing (· == pid) :=
        attended.sound.death_eq pid
      rw [List.foldl_cons, ih (attended.death pid), first, Switchboard.losing_losing]
      simp only [List.contains_cons]

/-- A round of looking drops the processes that it finds gone from the watch before it reports
them. -/
theorem Attended.looked (attended : s.Attended fun _ => true) (living : Pid → Bool) :
    { s with watch := (s.watch.look living).2 }.Attended living := by
  have counts := attended.counts_all.look living
  rw [← attended.sound.pids_links] at counts
  exact ⟨attended.sound, counts⟩

/-- A round of looking loses the clients whose processes are gone, in whatever order. -/
theorem Attended.board_report (attended : s.Attended fun _ => true) {reports : List Pid}
    (found : reports.Perm (s.watch.look living).1) :
    (s.report living reports).board = s.board.losing fun pid => !living pid := by
  rw [Station.report, (attended.looked living).board_deaths]
  apply Switchboard.losing_congr
  intro c mem
  cases runs : c.pid? with
  | none => rfl
  | some pid =>
      have linked : pid ∈ (↑(s.board.clients.filterMap Client.pid?) : Multiset Pid) :=
        List.mem_filterMap.mpr ⟨c, mem, runs⟩
      have gone : pid ∈ reports ↔ _ := found.mem_iff.trans (attended.counts_all.mem_look living)
      rw [Option.any_some, Option.any_some, Bool.eq_iff_iff, List.contains_iff_mem, gone]
      simp [linked]

/-- After a round has been reported all clients left are watched again. It does not matter in which
order the watch has found the dead. -/
theorem Attended.report (attended : s.Attended fun _ => true) {reports : List Pid}
    (found : reports.Perm (s.watch.look living).1) :
    (s.report living reports).Attended fun _ => true := by
  have later : (s.report living reports).Attended living :=
    (attended.looked living).deaths reports
  refine ⟨later.sound, ?_⟩
  have counts := later.counts
  have there : ∀ pid ∈ (s.report living reports).board.links.map Prod.fst, living pid = true := by
    intro pid linked
    rw [later.sound.pids_links, attended.board_report found] at linked
    obtain ⟨c, mem, runs⟩ := List.mem_filterMap.mp linked
    obtain ⟨stood, -, rfl⟩ := List.mem_map.mp mem
    simpa using (Client.pid?_losing.mp runs).2
  rw [Multiset.filter_eq_self.mpr there] at counts
  rwa [Multiset.filter_eq_self.mpr fun _ _ => rfl]

/-- A death writes nothing to the disk. -/
theorem disk_deaths (s : Station) (reports : List Pid) :
    (reports.foldl (fun s pid => (s.death pid).1) s).disk = s.disk := by
  induction reports generalizing s with
  | nil => rfl
  | cons pid rest ih => exact ih (s.death pid).1

/-- Sorted lists do not depend on the order in which their elements were found. -/
theorem mergeSort_eq_of_perm {pids others : List Pid} (perm : pids.Perm others) :
    pids.mergeSort (· ≤ ·) = others.mergeSort (· ≤ ·) := by
  refine List.Perm.eq_of_pairwise' (List.pairwise_mergeSort' (· ≤ ·) pids)
    (List.pairwise_mergeSort' (· ≤ ·) others) ?_
  exact ((pids.mergeSort_perm _).trans perm).trans (others.mergeSort_perm _).symm

/-! ### Steps and runs -/

/-- Each step of a station leaves the watch in step with the switchboard. There is one case for each
of the five things that can happen. -/
theorem Attended.step (attended : s.Attended fun _ => true) (step : s.Step t) :
    t.Attended fun _ => true := by
  cases step with
  | registered pid callback uuid => exact attended.register pid callback uuid
  | died pid => exact attended.death pid
  | @acted operation no_register no_death =>
      refine attended.act ?_
      cases operation with
      | register pid callback uuid around => exact absurd rfl (no_register pid callback uuid around)
      | death pid => exact absurd rfl (no_death pid)
      | _ => rfl
  | stored disk => exact ⟨attended.sound, attended.counts⟩
  | looked living found => exact attended.report found

/-- So it is after any number of steps. -/
theorem Attended.reached (attended : s.Attended fun _ => true)
    (reached : Relation.ReflTransGen Step s t) : t.Attended fun _ => true := by
  induction reached with
  | refl => exact attended
  | tail _ step ih => exact ih.step step

/-- Only positive numbers are processes: what registers under another one changes nothing. -/
theorem register_of_not_linkable (s : Station) {pid : Pid} (callback : Callback) (uuid : Uuid)
    (refused : Watch.isLinkable pid = false) :
    ∃ calls, s.register pid callback uuid (Watch.isLinkable pid) =
      ((s.board.idFor uuid).bind fun _ => .error (.linkFailed pid), s, calls) := by
  have unlinked : (s.watch.link pid).2 = s.watch := by
    rw [Watch.link, refused]
    rfl
  unfold register Switchboard.register
  rw [refused]
  cases s.board.idFor uuid with
  | error error => exact ⟨_, rfl⟩
  | ok id =>
      refine ⟨[.link pid callback false], ?_⟩
      show (_, { s with watch := (s.watch.link pid).2 }, _) = (_, s, _)
      rw [unlinked]
      rfl

end Station

/-- However a station got where it is: it watches exactly the processes of the connected clients,
with one link each. Whatever number is not positive cannot register. A round of looking that reports
the processes that it finds gone in some order, each of them once, loses the connections of these
and what one of their clients had under way, and nothing else: the clients that stay connected are
those whose processes are there, and they stay as they are; what is under way stays exactly if its
owner is not connected as a process that is gone.

A watch finds the processes in an order that nobody fixes, hence the permutation. That no process
runs two clients is what makes one link each possible. -/
theorem watch_follows_clients (settings : HostSettings) (disk : Disk) {s : Station}
    (reached : Relation.ReflTransGen Station.Step (Station.ofDisk settings disk) s) :
    s.watch.watched = (s.board.clients.filterMap Client.pid?).mergeSort (· ≤ ·) ∧
      (∀ pid, s.watch.count pid = if ∃ c ∈ s.board.clients, c.pid? = some pid then 1 else 0) ∧
      (∀ pid ≤ 0, ∀ callback uuid, ∃ calls,
        s.register pid callback uuid (Watch.isLinkable pid) =
          ((s.board.idFor uuid).bind fun _ => .error (.linkFailed pid), s, calls)) ∧
      ∀ living reports, reports.Perm (s.watch.look living).1 →
        let t := s.report living reports
        t.disk = s.disk ∧ t.board = s.board.losing (fun pid => !living pid) ∧
          (∀ c, c ∈ t.board.clients ∧ c.pid?.isSome ↔
            c ∈ s.board.clients ∧ ∃ pid, c.pid? = some pid ∧ living pid = true) ∧
          ∀ pending ∈ s.board.dock.pending,
            t.board.dock.pending = some pending ↔
              ∀ c ∈ s.board.clients, c.id = pending.client →
                ∀ pid, c.pid? = some pid → living pid = true := by
  have attended := (Station.attended_ofDisk settings disk).reached reached
  have counts := attended.counts_all
  refine ⟨?watched, ?counted, ?refused, ?looked⟩
  case watched =>
    refine Station.mergeSort_eq_of_perm ?_
    rw [List.perm_ext_iff_of_nodup counts.apart attended.sound.nodup_pids]
    exact fun pid => counts.mem_iff
  case counted =>
    intro pid
    rw [counts.count_eq, Multiset.coe_count, attended.sound.nodup_pids.count]
    simp only [List.mem_filterMap]
  case refused =>
    intro pid low callback uuid
    exact s.register_of_not_linkable callback uuid (decide_eq_false (Int.not_lt.mpr low))
  case looked =>
    intro living reports found t
    have board : t.board = s.board.losing fun pid => !living pid := attended.board_report found
    refine ⟨Station.disk_deaths _ reports, board, ?_, ?_⟩
    · intro c
      rw [board]
      constructor
      -- A client that is still connected was not touched by the round.
      · rintro ⟨mem, connected⟩
        obtain ⟨pid, runs⟩ := Option.isSome_iff_exists.mp connected
        obtain ⟨stood, stands, rfl⟩ := List.mem_map.mp mem
        obtain ⟨ran, there⟩ := Client.pid?_losing.mp runs
        rw [Client.losing_of_not_any (by simpa [ran] using there)]
        exact ⟨stands, pid, ran, by simpa using there⟩
      · rintro ⟨mem, pid, runs, there⟩
        refine ⟨List.mem_map.mpr ⟨c, mem, ?_⟩, by simp [runs]⟩
        exact Client.losing_of_not_any (by simp [runs, there])
    · intro pending under
      rw [board]
      have stays : (s.board.losing fun pid => !living pid).dock.pending = some pending ↔
          s.board.loses (fun pid => !living pid) pending = false := by
        rw [Option.mem_def] at under
        simp [Switchboard.losing, under, Option.filter]
      have there (c : Client) : c.pid?.any (fun pid => !living pid) = false ↔
          ∀ pid, c.pid? = some pid → living pid = true := by
        cases c.pid? <;> simp
      rw [stays, Switchboard.loses, List.any_eq_false]
      simp [there]

/-- A station on an empty disk, with two clients that registered. -/
def Station.attendance : Station :=
  let first := ((ofDisk {} {}).register 7 ⟨0⟩ (.ofNat 1) (Watch.isLinkable 7)).2.1
  (first.register 9 ⟨1⟩ (.ofNat 2) (Watch.isLinkable 9)).2.1

/-- One of the two is found gone, and the other one stays. -/
theorem watch_follows_clients_attendance :
    let s := Station.attendance
    let t := s.report (· == 9) [7]
    Relation.ReflTransGen Station.Step (Station.ofDisk {} {}) s ∧
      [7].Perm (s.watch.look (· == 9)).1 ∧ s.watch.watched = [7, 9] ∧ s.watch.count 9 = 1 ∧
      t.board.clients.filterMap Client.pid? = [9] := by
  intro s t
  have reached : Relation.ReflTransGen Station.Step (Station.ofDisk {} {}) s :=
    .tail (.single (.registered _ 7 ⟨0⟩ (.ofNat 1))) (.registered _ 9 ⟨1⟩ (.ofNat 2))
  have found : [7].Perm (s.watch.look (· == 9)).1 := by
    have gone : (s.watch.look (· == 9)).1 = [7] := by decide +kernel
    rw [gone]
  have connected : s.board.clients.filterMap Client.pid? = [7, 9] := by decide +kernel
  obtain ⟨watched, counted, -, looked⟩ := watch_follows_clients {} {} reached
  obtain ⟨-, lost, -, -⟩ := looked _ _ found
  refine ⟨reached, found, ?_, ?_, ?_⟩
  · rw [watched, connected]
    exact List.mergeSort_of_pairwise (by decide)
  · rw [counted, if_pos]
    obtain ⟨c, mem, runs⟩ := List.mem_filterMap.mp (connected ▸ (by decide : (9 : Pid) ∈ [7, 9]))
    exact ⟨c, mem, runs⟩
  · rw [lost]
    decide +kernel

end HubRelay
