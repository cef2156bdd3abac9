import Mathlib.Algebra.Order.Group.Multiset
import HubRelay.Proofs.Switchboard.Clients

/-!
The monitor of processes watches the connected clients.

A link that the monitor accepts is held until it is unlinked. `Leads` says that a run of calls takes
what is held before to what is held after, and that it unlinks nothing that is not held then. One
lemma for each thing that an operation does to the clients puts its calls beside what becomes of the
clients' links; a run leads from no link to those of its clients.
-/

namespace HubRelay

/-! ### What is linked -/

def Switchboard.linksOf (clients : List Client) : Multiset (Pid × Callback) :=
  ↑(clients.filterMap Client.connection)

namespace MonitorCall

/-- The link that a call makes, if the monitor accepts it. -/
def linked? : MonitorCall → Option (Pid × Callback)
  | .link pid callback true => some (pid, callback)
  | .link _ _ false | .unlink _ _ => none

/-- The link that a call ends. -/
def unlinked? : MonitorCall → Option (Pid × Callback)
  | .unlink pid callback => some (pid, callback)
  | .link _ _ _ => none

def linked (calls : List MonitorCall) : Multiset (Pid × Callback) := ↑(calls.filterMap linked?)

def unlinked (calls : List MonitorCall) : Multiset (Pid × Callback) := ↑(calls.filterMap unlinked?)

/-- The calls take what is linked from one to the other, and end only what is linked then. -/
inductive Leads : Multiset (Pid × Callback) → List MonitorCall → Multiset (Pid × Callback) → Prop
  | done (held : Multiset (Pid × Callback)) : Leads held [] held
  | accepted {pid : Pid} {callback : Callback} {rest : List MonitorCall}
      {held later : Multiset (Pid × Callback)} :
      Leads ((pid, callback) ::ₘ held) rest later →
      Leads held (.link pid callback true :: rest) later
  | refused {pid : Pid} {callback : Callback} {rest : List MonitorCall}
      {held later : Multiset (Pid × Callback)} :
      Leads held rest later → Leads held (.link pid callback false :: rest) later
  | ended {pid : Pid} {callback : Callback} {rest : List MonitorCall}
      {held later : Multiset (Pid × Callback)} :
      Leads held rest later →
      Leads ((pid, callback) ::ₘ held) (.unlink pid callback :: rest) later

variable {held between later : Multiset (Pid × Callback)} {calls more : List MonitorCall}

theorem Leads.append (first : Leads held calls between) (second : Leads between more later) :
    Leads held (calls ++ more) later := by
  induction first with
  | done => exact second
  | accepted _ ih => exact .accepted (ih second)
  | refused _ ih => exact .refused (ih second)
  | ended _ ih => exact .ended (ih second)

theorem Leads.split (leads : Leads held (calls ++ more) later) :
    ∃ between, Leads held calls between ∧ Leads between more later := by
  induction calls generalizing held with
  | nil => exact ⟨held, .done held, leads⟩
  | cons call rest ih =>
      cases leads with
      | accepted leads =>
          obtain ⟨between, first, second⟩ := ih leads
          exact ⟨between, .accepted first, second⟩
      | refused leads =>
          obtain ⟨between, first, second⟩ := ih leads
          exact ⟨between, .refused first, second⟩
      | ended leads =>
          obtain ⟨between, first, second⟩ := ih leads
          exact ⟨between, .ended first, second⟩

/-- Calls for links that stand beside each other can be made one after the other. -/
theorem Leads.add {held' later' : Multiset (Pid × Callback)} (first : Leads held calls later)
    (second : Leads held' more later') : Leads (held + held') (calls ++ more) (later + later') := by
  induction first with
  | done held =>
      show Leads (held + held') more (held + later')
      induction second with
      | done held' => exact .done _
      | accepted _ ih =>
          rw [Multiset.add_cons] at ih
          exact .accepted ih
      | refused _ ih => exact .refused ih
      | ended _ ih =>
          rw [Multiset.add_cons]
          exact .ended ih
  | accepted _ ih =>
      rw [Multiset.cons_add] at ih
      exact .accepted ih
  | refused _ ih => exact .refused ih
  | ended _ ih =>
      rw [Multiset.cons_add]
      exact .ended ih

/-- What was linked, with the links made, is what is linked, with the links ended. The sums are
multisets, so links that are made twice are counted twice. -/
theorem Leads.balance (leads : Leads held calls later) :
    held + linked calls = unlinked calls + later := by
  induction leads with
  | done held => exact add_comm held 0
  | @accepted pid callback rest held later _ ih =>
      show held + (pid, callback) ::ₘ linked rest = unlinked rest + later
      rw [Multiset.add_cons, ← Multiset.cons_add, ih]
  | refused _ ih => exact ih
  | @ended pid callback rest held later _ ih =>
      show (pid, callback) ::ₘ held + linked rest = (pid, callback) ::ₘ unlinked rest + later
      rw [Multiset.cons_add, ih, Multiset.cons_add]

end MonitorCall

namespace Switchboard

open MonitorCall (Leads)

variable {s : Switchboard} {clients : List Client} {c : Client} {pid : Pid} {callback : Callback}
  {uuid : Uuid} {id : ClientId}

/-! ### What becomes of the clients' links -/

theorem linksOf_cons (c : Client) (rest : List Client) :
    linksOf (c :: rest) = ↑c.connection.toList + linksOf rest := by
  cases linked : c.connection with
  | none => simp [linksOf, linked]
  | some link => simp [linksOf, linked]

theorem leads_cut (c : Client) : Leads ↑c.connection.toList c.cut 0 := by
  unfold Client.cut
  cases c.connection with
  | none => exact .done 0
  | some k => exact .ended (.done 0)

theorem displaced_cons (pid : Pid) (uuid : Uuid) (c : Client) (rest : List Client) :
    displaced pid uuid (c :: rest) =
      (if c.runsAs pid && c.uuid != uuid then c.cut else []) ++ displaced pid uuid rest := by
  by_cases stale : (c.runsAs pid && c.uuid != uuid) = true
  · simp only [displaced, List.filter_cons, stale, if_true, List.flatMap_cons]
  · simp only [displaced, List.filter_cons, stale, Bool.false_eq_true, if_false, List.nil_append]

/-- Whoever is displaced is unlinked, and nobody else. -/
theorem leads_displaced (pid : Pid) (uuid : Uuid) (clients : List Client) :
    Leads (linksOf clients) (displaced pid uuid clients)
      (linksOf (displace pid uuid clients)) := by
  induction clients with
  | nil => exact .done _
  | cons c rest ih =>
      rw [displaced_cons, displace, List.map_cons, linksOf_cons, linksOf_cons]
      split
      · exact (leads_cut c).add ih
      · exact Leads.add (.done _) ih

/-- The first client that passes the test is unlinked. -/
theorem leads_disconnectFirst {test : Client → Bool} (found : clients.find? test = some c) :
    Leads (linksOf clients) c.cut (linksOf (disconnectFirst test clients)) := by
  induction clients with
  | nil => cases found
  | cons head rest ih =>
      rw [disconnectFirst, linksOf_cons]
      by_cases passes : test head = true
      · rw [List.find?_cons_of_pos passes] at found
        obtain rfl := Option.some.inj found
        rw [if_pos passes, linksOf_cons]
        have whole := (leads_cut head).add (.done (linksOf rest))
        rwa [List.append_nil] at whole
      · rw [List.find?_cons_of_neg passes] at found
        rw [if_neg passes, linksOf_cons]
        exact Leads.add (.done _) (ih found)

theorem linksOf_editEndpoints (pid : Pid) (edit : Table EndpointId Unit → Table EndpointId Unit)
    (clients : List Client) : linksOf (editEndpoints pid edit clients) = linksOf clients := by
  induction clients with
  | nil => rfl
  | cons c rest ih =>
      rw [editEndpoints]
      split
      · rw [linksOf_cons, linksOf_cons]
        rfl
      · rw [linksOf_cons, linksOf_cons, ih]

/-- The link that a known client brings takes the place of the one that it had. -/
theorem leads_renewed (apart : (clients.map Client.uuid).Nodup)
    (found : clients.find? (·.uuid == uuid) = some c) :
    Leads ((pid, callback) ::ₘ linksOf clients) c.cut
      (linksOf (clients.map fun c =>
        if c.uuid == uuid then c.renewed pid callback else c)) := by
  induction clients with
  | nil => cases found
  | cons head rest ih =>
      obtain ⟨absent, apart⟩ := List.nodup_cons.mp apart
      rw [List.map_cons, linksOf_cons, linksOf_cons]
      cases own : head.uuid == uuid with
      | true =>
          simp only [List.find?_cons, own] at found
          obtain rfl := Option.some.inj found
          have others : rest.map (fun c =>
              if c.uuid == uuid then c.renewed pid callback else c) = rest := by
            refine (List.map_congr_left fun c mem => if_neg fun same => absent ?_).trans
              (List.map_id rest)
            exact List.mem_map.mpr ⟨c, mem, (beq_iff_eq.mp same).trans (beq_iff_eq.mp own).symm⟩
          have whole := (leads_cut head).add (.done ((pid, callback) ::ₘ linksOf rest))
          rw [others, if_pos rfl, ← Multiset.add_cons]
          rwa [List.append_nil, zero_add] at whole
      | false =>
          simp only [List.find?_cons, own] at found
          rw [if_neg Bool.false_ne_true, ← Multiset.add_cons]
          exact Leads.add (.done _) (ih apart found)

/-- A client that comes brings its link, which takes the place of the one that it had. -/
theorem leads_connect (apart : (clients.map Client.uuid).Nodup) :
    Leads ((pid, callback) ::ₘ linksOf clients) (replaced uuid clients)
      (linksOf (connect pid callback uuid id clients)) := by
  unfold connect
  cases found : clients.find? (·.uuid == uuid) with
  | none =>
      have calls : replaced uuid clients = [] := by
        rw [replaced, found]
        rfl
      have new : ¬ clients.any (·.uuid == uuid) = true := by
        rw [List.any_eq_true]
        rintro ⟨c, mem, same⟩
        exact List.find?_eq_none.mp found c mem same
      have links : linksOf (clients ++ [Client.renewed { id, uuid } pid callback]) =
          (pid, callback) ::ₘ linksOf clients := by
        simp only [linksOf, List.filterMap_append, ← Multiset.coe_add]
        exact add_comm _ _
      rw [calls, if_neg new, links]
      exact .done _
  | some c =>
      have own := List.find?_some found
      have known : clients.any (·.uuid == uuid) = true :=
        List.any_eq_true.mpr ⟨c, List.mem_of_find?_eq_some found, own⟩
      have calls : replaced uuid clients = c.cut := by
        rw [replaced, found]
        exact List.append_nil c.cut
      rw [if_pos known, calls]
      exact leads_renewed apart found

/-! ### Operations and runs -/

def links (s : Switchboard) : Multiset (Pid × Callback) := linksOf s.clients

/-- What an operation asks the monitor leads from the links before it to those after it. Soundness
is needed for the clients that go: only one of them runs as the process, so that no link is
forgotten. -/
theorem Sound.leads (sound : s.Sound) (operation : HostOperation) :
    Leads s.links (s.asked operation) (s.after operation).links := by
  by_cases registers : ∃ pid callback uuid around,
      operation = .register pid callback uuid around
  · obtain ⟨pid, callback, uuid, around, rfl⟩ := registers
    show Leads s.links (s.register pid callback uuid around).2.2.calls
      (s.register pid callback uuid around).2.1.links
    have admitted := s.admission pid callback uuid around
    generalize (s.register pid callback uuid around).2.2.calls = calls at admitted ⊢
    generalize (s.register pid callback uuid around).2.1 = t at admitted ⊢
    generalize (s.register pid callback uuid around).1 = result at admitted
    cases admitted with
    | refused calls =>
        -- Nothing was asked, the monitor refused, or the link was taken back.
        rcases calls with rfl | rfl | rfl
        · exact .done _
        · exact .refused (.done _)
        · exact .accepted (.ended (.done _))
    | joined id roster =>
        have apart : ((displace pid uuid s.clients).map Client.uuid).Nodup := by
          rw [uuids_displace]
          exact sound.nodup_uuids
        -- The new link is made first and stands beside the others while they are ended.
        have gone := Leads.add (.done {(pid, callback)}) (leads_displaced pid uuid s.clients)
        exact .accepted (gone.append (leads_connect apart))
  · simp only [not_exists] at registers
    have acts := s.acts registers
    generalize s.after operation = t at acts ⊢
    generalize s.asked operation = calls at acts ⊢
    cases acts with
    | idle | started | handed | cleared => exact .done _
    | died found => exact leads_disconnectFirst found
    | opened | closed =>
        unfold links
        rw [linksOf_editEndpoints]
        exact .done _

theorem Sound.leads_run (sound : s.Sound) (operations : List HostOperation) :
    Leads s.links (s.askedIn operations) (s.run operations).links := by
  induction operations generalizing s with
  | nil => exact .done _
  | cons operation rest ih =>
      exact (sound.leads operation).append (ih (sound.change (s.change_after operation)))

theorem links_ofContents (settings : HostSettings) (contents : Option ByteArray) :
    (ofContents settings contents).links = 0 := by
  unfold links linksOf
  rw [Multiset.coe_eq_zero, List.filterMap_eq_nil_iff]
  intro c mem
  obtain ⟨pair, -, rfl⟩ := List.mem_map.mp mem
  rfl

end Switchboard

/-- After every run the links that the monitor accepted are those that were ended and those of the
connected clients, each as often. A link is ended only while it is held: before every call that ends
one, it was made more often than ended.

Links are pairs of a process and a callback. A client that registers again with the same callback
has its link twice for a moment, which is why the two sides are multisets. -/
theorem links_balance (settings : HostSettings) (contents : Option ByteArray)
    (operations : List HostOperation) :
    let s := Switchboard.ofContents settings contents
    let calls := s.askedIn operations
    MonitorCall.linked calls = MonitorCall.unlinked calls + (s.run operations).links ∧
      ∀ before pid callback rest, calls = before ++ .unlink pid callback :: rest →
        (MonitorCall.unlinked before).count (pid, callback) <
          (MonitorCall.linked before).count (pid, callback) := by
  intro s calls
  have leads := (Switchboard.sound_ofContents settings contents).leads_run operations
  rw [Switchboard.links_ofContents] at leads
  constructor
  · have balance := leads.balance
    rwa [zero_add] at balance
  · intro before pid callback rest split
    change s.askedIn operations = _ at split
    rw [split] at leads
    obtain ⟨standing, first, second⟩ := leads.split
    -- What stands when the link is ended is what was made and not ended, and the link is in it.
    have balance := first.balance
    rw [zero_add] at balance
    have mem : (pid, callback) ∈ standing := by
      cases second with
      | ended => exact Multiset.mem_cons_self _ _
    rw [balance, Multiset.count_add]
    exact Nat.lt_add_of_pos_right (Multiset.count_pos.mpr mem)

/-- A run in which a client registers the same callback again and then from another process, a
second one cannot be written down, cannot be watched, and then takes over the process, and the first
comes back before the second dies. -/
def HostOperation.comings : List HostOperation :=
  [.register 7 ⟨0⟩ (.ofNat 1) ⟨true, true⟩, .register 7 ⟨0⟩ (.ofNat 1) ⟨true, true⟩,
    .register 8 ⟨1⟩ (.ofNat 1) ⟨true, true⟩, .register 9 ⟨2⟩ (.ofNat 2) ⟨true, false⟩,
    .register 9 ⟨2⟩ (.ofNat 2) ⟨false, true⟩, .register 8 ⟨3⟩ (.ofNat 2) ⟨true, true⟩,
    .register 9 ⟨4⟩ (.ofNat 1) ⟨true, true⟩, .death 8]

theorem links_balance_comings :
    let s := Switchboard.ofContents {} none
    let calls := s.askedIn HostOperation.comings
    calls = [.link 7 ⟨0⟩ true, .link 7 ⟨0⟩ true, .unlink 7 ⟨0⟩, .link 8 ⟨1⟩ true, .unlink 7 ⟨0⟩,
        .link 9 ⟨2⟩ true, .unlink 9 ⟨2⟩, .link 9 ⟨2⟩ false, .link 8 ⟨3⟩ true, .unlink 8 ⟨1⟩,
        .link 9 ⟨4⟩ true, .unlink 8 ⟨3⟩] ∧
      MonitorCall.linked calls = MonitorCall.unlinked calls + {(9, ⟨4⟩)} := by
  intro s calls
  have standing : (s.run HostOperation.comings).links = {(9, ⟨4⟩)} := by decide +kernel
  have balance := (links_balance {} none HostOperation.comings).1
  rw [standing] at balance
  exact ⟨by decide +kernel, balance⟩

end HubRelay
