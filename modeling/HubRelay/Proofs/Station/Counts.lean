import HubRelay.Proofs.Switchboard.Links

/-!
What a watch counts.

A watch counts the links of each process and does not tell callbacks apart. `Watch.Counts` says of
what it is the count: one more link is one more of the process, an unlink takes one away if there is
one, and dropping a process takes all of its links away. So the watch can be put beside what a
switchboard holds linked (`Counts.follow`).
-/

namespace HubRelay

namespace Watch

variable {w : Watch} {held later : Multiset Pid} {pid other : Pid}

/-- The watch has one entry for each process that is held, with how often that is. Entries with a
count of zero are not kept, so the watched processes are those of the entries. -/
structure Counts (w : Watch) (held : Multiset Pid) : Prop where
  apart : (w.links.map Prod.fst).Nodup
  listed : ∀ pid count, (pid, count) ∈ w.links ↔ 0 < count ∧ held.count pid = count

theorem counts_empty : Counts {} 0 := by
  refine ⟨List.nodup_nil, fun pid count => ?_⟩
  simp only [List.not_mem_nil, Multiset.count_zero, false_iff, not_and]
  intro positive zero
  omega

theorem Counts.mem_iff (counts : w.Counts held) : pid ∈ w.links.map Prod.fst ↔ pid ∈ held := by
  rw [← Multiset.one_le_count_iff_mem]
  constructor
  · intro mem
    obtain ⟨⟨pid, count⟩, listed, rfl⟩ := List.mem_map.mp mem
    obtain ⟨positive, rfl⟩ := (counts.listed pid count).mp listed
    exact positive
  · intro positive
    exact List.mem_map.mpr ⟨_, (counts.listed pid _).mpr ⟨positive, rfl⟩, rfl⟩

theorem Counts.count_eq (counts : w.Counts held) (pid : Pid) : w.count pid = held.count pid := by
  unfold count
  cases found : w.links.find? fun link => link.1 == pid with
  | none =>
      have absent : pid ∉ held := by
        rw [← counts.mem_iff]
        intro mem
        obtain ⟨link, listed, rfl⟩ := List.mem_map.mp mem
        exact List.find?_eq_none.mp found link listed (beq_self_eq_true _)
      simp [Multiset.count_eq_zero_of_notMem absent]
  | some link =>
      obtain ⟨own, count⟩ := link
      obtain rfl : own = pid := by simpa using List.find?_some found
      obtain ⟨-, same⟩ := (counts.listed own count).mp (List.mem_of_find?_eq_some found)
      simp [same]

/-- Setting the count of one process, if the others stay. -/
theorem Counts.setCount (counts : w.Counts held)
    (others : ∀ other, other ≠ pid → later.count other = held.count other) :
    (w.setCount pid (later.count pid)).Counts later := by
  have rest : ∀ other count, (other, count) ∈ (w.links.filter fun link => link.1 != pid) ↔
      other ≠ pid ∧ 0 < count ∧ later.count other = count := by
    intro other count
    rw [List.mem_filter, counts.listed, bne_iff_ne]
    constructor
    · rintro ⟨listed, differs⟩
      exact ⟨differs, by rwa [others other differs]⟩
    · rintro ⟨differs, listed⟩
      exact ⟨by rwa [← others other differs], differs⟩
  have apart : ((w.links.filter fun link => link.1 != pid).map Prod.fst).Nodup :=
    counts.apart.sublist (List.filter_sublist.map _)
  unfold Watch.setCount
  by_cases zero : later.count pid = 0
  · simp only [if_pos zero]
    refine ⟨apart, fun other count => ?_⟩
    rw [rest]
    constructor
    · rintro ⟨-, listed⟩
      exact listed
    · rintro ⟨positive, same⟩
      refine ⟨?_, positive, same⟩
      rintro rfl
      omega
  · simp only [if_neg zero]
    refine ⟨?_, fun other count => ?_⟩
    · rw [List.map_append, List.map_singleton, List.nodup_append_comm]
      refine List.nodup_cons.mpr ⟨?_, apart⟩
      intro mem
      obtain ⟨⟨other, count⟩, listed, rfl⟩ := List.mem_map.mp mem
      exact ((rest other count).mp listed).1 rfl
    · rw [List.mem_append, rest, List.mem_singleton, Prod.mk.injEq]
      constructor
      · rintro (⟨-, listed⟩ | ⟨rfl, rfl⟩)
        · exact listed
        · exact ⟨Nat.pos_of_ne_zero zero, rfl⟩
      · rintro ⟨positive, same⟩
        by_cases own : other = pid
        · subst own
          exact .inr ⟨rfl, same.symm⟩
        · exact .inl ⟨own, positive, same⟩

theorem Counts.link (counts : w.Counts held) (linkable : isLinkable pid = true) :
    (w.link pid).2.Counts (pid ::ₘ held) := by
  unfold Watch.link
  rw [if_pos linkable, counts.count_eq, ← Multiset.count_cons_self]
  exact counts.setCount fun other differs => Multiset.count_cons_of_ne differs held

/-- Unlinking a process that is not held does nothing. -/
theorem Counts.unlink (counts : w.Counts held) (pid : Pid) :
    (w.unlink pid).Counts (held.erase pid) := by
  unfold Watch.unlink
  rw [counts.count_eq, ← Multiset.count_erase_self]
  exact counts.setCount fun other differs => Multiset.count_erase_of_ne differs held

/-- A round of looking leaves the links of the processes that are there. -/
theorem Counts.look (counts : w.Counts held) (living : Pid → Bool) :
    (w.look living).2.Counts (held.filter fun pid => living pid = true) := by
  refine ⟨counts.apart.sublist (List.filter_sublist.map _), fun pid count => ?_⟩
  have kept : (pid, count) ∈ (w.look living).2.links ↔
      (pid, count) ∈ w.links ∧ living pid = true := by
    simp [Watch.look]
  rw [kept, counts.listed, Multiset.count_filter]
  split
  · next lives => simp [lives]
  · next gone =>
    simp only [gone, Bool.false_eq_true, and_false, false_iff, not_and]
    intro positive zero
    omega

/-- The processes that a round of looking finds gone are those that are held and not there. -/
theorem Counts.mem_look (counts : w.Counts held) (living : Pid → Bool) :
    pid ∈ (w.look living).1 ↔ pid ∈ held ∧ living pid = false := by
  rw [← counts.mem_iff]
  simp [Watch.look]

end Watch

/-- The answers to the links that were asked for are those of a watch. -/
def MonitorCall.Watched (calls : List MonitorCall) : Prop :=
  ∀ pid callback accepted, .link pid callback accepted ∈ calls → accepted = Watch.isLinkable pid

/-- A watch that counts those of the processes that are there goes on to do so when it follows what
leads from some links to others. Ending the link of a process that is not counted does nothing. -/
theorem Watch.Counts.follow {w : Watch} {living : Pid → Bool}
    {held later : Multiset (Pid × Callback)} {calls : List MonitorCall}
    (counts : w.Counts ((held.map Prod.fst).filter fun pid => living pid = true))
    (leads : MonitorCall.Leads held calls later) (watched : MonitorCall.Watched calls)
    (lives : ∀ pid callback, .link pid callback true ∈ calls → living pid = true) :
    (calls.foldl Watch.follow w).Counts
      ((later.map Prod.fst).filter fun pid => living pid = true) := by
  induction leads generalizing w with
  | done => exact counts
  | accepted _ ih =>
      have linkable := watched _ _ _ List.mem_cons_self
      refine ih ?_ (fun pid callback accepted mem => watched _ _ _ (List.mem_cons_of_mem _ mem))
        fun pid callback mem => lives _ _ (List.mem_cons_of_mem _ mem)
      rw [Multiset.map_cons,
        Multiset.filter_cons_of_pos (p := fun pid => living pid = true) _
          (lives _ _ List.mem_cons_self)]
      exact counts.link linkable.symm
  | @refused pid callback rest _ _ _ ih =>
      have linkable := watched _ _ _ List.mem_cons_self
      refine ih ?_ (fun pid callback accepted mem => watched _ _ _ (List.mem_cons_of_mem _ mem))
        fun pid callback mem => lives _ _ (List.mem_cons_of_mem _ mem)
      have same : (w.link pid).2 = w := by
        rw [Watch.link, ← linkable]
        rfl
      rwa [Watch.follow, same]
  | @ended pid callback rest held later _ ih =>
      refine ih ?_ (fun pid callback accepted mem => watched _ _ _ (List.mem_cons_of_mem _ mem))
        fun pid callback mem => lives _ _ (List.mem_cons_of_mem _ mem)
      have less := counts.unlink pid
      rw [Multiset.map_cons] at less
      by_cases there : living pid = true
      · rwa [Multiset.filter_cons_of_pos (p := fun pid => living pid = true) _ there,
          Multiset.erase_cons_head] at less
      · rwa [Multiset.filter_cons_of_neg (p := fun pid => living pid = true) _ there,
          Multiset.erase_of_notMem] at less
        exact fun mem => there (Multiset.mem_filter.mp mem).2

end HubRelay
