import HubRelay.Proofs.Roster.Records
import HubRelay.Proofs.Roster.RoundTrip

/-!
Roster files.

A file is read leniently: what its text says of a roster is stated by `Roster.ReadsAs`, which keeps
records in their order as long as nothing speaks against them. It is written in one form, and what
is written reads back (`roster_files_normalize`).
-/

namespace HubRelay

/-- A character that Unicode counts as white space. -/
def IsWhite (c : Char) : Prop :=
  0x9 ≤ c.toNat ∧ c.toNat ≤ 0xd ∨ 0x2000 ≤ c.toNat ∧ c.toNat ≤ 0x200a ∨
    c.toNat ∈ [0x20, 0x85, 0xa0, 0x1680, 0x2028, 0x2029, 0x202f, 0x205f, 0x3000]

instance (c : Char) : Decidable (IsWhite c) := inferInstanceAs (Decidable (_ ∨ _))

namespace Roster

/-- What a text says of a roster: nothing if it is blank or lists no records, and else the pairs
that are kept of the records. -/
structure ReadsAs (text : List Char) (r : Roster) : Prop where
  blank : (∀ c ∈ text, IsWhite c) → r = {}
  foreign : (¬ ∃ records, Lists text records) → r = {}
  lists : ∀ records, Lists text records →
    (∃ kept, Kept records kept) ∧ ∀ kept, Kept records kept → r.pairs.Perm kept

theorem readsAs_ofText (text : List Char) : ReadsAs text (ofText text) := by
  have foreign (none_listed : ¬ ∃ records, Lists text records) : ofText text = {} := by
    cases read : records? text with
    | none =>
        rw [ofText, read]
        rfl
    | some records => exact absurd ⟨records, records?_eq_some_iff.mp read⟩ none_listed
  refine { blank := fun white => foreign ?_, foreign := foreign, lists := ?_ }
  · rintro ⟨records, lists⟩
    exact absurd (white '[' lists.bracket) (by decide)
  · intro records lists
    refine ⟨exists_kept records, fun kept held => ?_⟩
    rw [ofText, records?_eq_some_iff.mpr lists]
    exact held.perm

/-- What is written for the roster reads back as it. -/
def ReadsBack (r : Roster) : Prop :=
  ∀ path, ∃ stored, r.store path true = .ok stored ∧ ofContents (some stored) = r

theorem Valid.readsBack {r : Roster} (valid : r.Valid) : r.ReadsBack :=
  fun _ => ⟨r.contents, rfl, ofContents_contents valid⟩

end Roster

/-- A file is read as the roster that its text stands for, whichever text it holds. A roster in
which all numbers can be a client's and no two clients share one is read back as it was written:
every roster that was read, and also one to which a new client was added under a number that can be
a client's and is free. -/
theorem roster_files_normalize :
    (∀ text : String, Roster.ReadsAs text.toList (Roster.ofContents (some text.toByteArray))) ∧
      (∀ r : Roster, (∀ pair ∈ r.pairs, 1 ≤ pair.2.toNat ∧ pair.2.toNat ≤ 0x1fe) →
        (r.pairs.map Prod.snd).Nodup → r.ReadsBack) ∧
      ∀ contents, let r := Roster.ofContents contents
        r.ReadsBack ∧
          ∀ uuid (id : ClientId), uuid ∉ r.pairs.map Prod.fst → id ∉ r.pairs.map Prod.snd →
            1 ≤ id.toNat → id.toNat ≤ 0x1fe →
            ∀ path, ∃ longer stored, r.insert uuid id path true = .ok (longer, stored) ∧
              longer.pairs.Perm ((uuid, id) :: r.pairs) ∧
              Roster.ofContents (some stored) = longer ∧ longer.ReadsBack := by
  refine ⟨fun text => ?_, fun r numbers distinct => ?_, fun contents => ?_⟩
  · rw [Roster.ofContents_toByteArray]
    exact Roster.readsAs_ofText text.toList
  · have valid : r.Valid :=
      ⟨fun pair mem => ClientId.isAssignable_iff.mpr (numbers pair mem), distinct⟩
    exact valid.readsBack
  · intro r
    have valid : r.Valid := Roster.valid_ofContents contents
    refine ⟨valid.readsBack, fun uuid id absent free first last path => ?_⟩
    have fresh : r.find? uuid = none := Roster.find?_eq_none_iff.mpr absent
    have longer : (r.enter uuid id).Valid :=
      valid.enter fresh (ClientId.isAssignable_iff.mpr ⟨first, last⟩)
        (Roster.holdsId_eq_false_iff.mpr free)
    refine ⟨r.enter uuid id, (r.enter uuid id).contents, ?_, Roster.perm_enter fresh id,
      Roster.ofContents_contents longer, longer.readsBack⟩
    rw [Roster.insert, fresh]
    rfl

/-- Of two clients under one number the first is kept, however its identifier is spelled, and the
other can have another number. A text of blanks and one that is no array are empty rosters. -/
theorem roster_files_normalize_twins :
    let name := "URN:uuid:00000000-0000-0000-0000-00000000000A"
    let twin := "00000000000000000000000000000003"
    let text := "[[6, \"" ++ name ++ "\"], \x7b\"uuid\": \"" ++ twin ++ "\", \"ClientId\": 6\x7d]"
    let r := Roster.ofContents (some text.toByteArray)
    r.pairs = [(.ofNat 10, 6)] ∧ r.ReadsBack ∧
      (∃ longer stored, r.insert (.ofNat 3) 7 "clients.json" true = .ok (longer, stored) ∧
        longer.pairs.Perm [(.ofNat 3, 7), (.ofNat 10, 6)] ∧
        Roster.ofContents (some stored) = longer) ∧
      Roster.ofContents (some "\u2003\n".toByteArray) = {} ∧
      Roster.ofContents (some "null".toByteArray) = {} := by
  intro name twin text r
  obtain ⟨reads, back, loaded⟩ := roster_files_normalize
  have lists : Roster.Lists text.toList [⟨6, name.toList⟩, ⟨6, twin.toList⟩] :=
    Roster.records?_eq_some_iff.mp (by decide +kernel)
  have first : Roster.Keeps [] ⟨6, name.toList⟩ (.ofNat 10) :=
    ⟨by decide +kernel, by decide, by decide, by decide, by decide⟩
  have second (uuid : Uuid) : ¬ Roster.Keeps [(.ofNat 10, 6)] ⟨6, twin.toList⟩ uuid :=
    fun keeps => keeps.free (by decide)
  have kept : Roster.Kept [⟨6, name.toList⟩, ⟨6, twin.toList⟩] [(.ofNat 10, 6)] :=
    (Roster.Kept.none.keep first).skip second
  have pairs : r.pairs = [(.ofNat 10, 6)] :=
    List.perm_singleton.mp (((reads text).lists _ lists).2 _ kept)
  refine ⟨pairs, back r (by simp [pairs]) (by simp [pairs]), ?_, ?_, ?_⟩
  · obtain ⟨longer, stored, inserted, held, read, -⟩ := (loaded (some text.toByteArray)).2
      (.ofNat 3) 7 (by rw [pairs]; decide) (by rw [pairs]; decide) (by decide) (by decide)
      "clients.json"
    exact ⟨longer, stored, inserted, pairs ▸ held, read⟩
  · have blanks : "\u2003\n".toList = ['\u2003', '\n'] := rfl
    refine (reads "\u2003\n").blank ?_
    rw [blanks, List.forall_mem_cons, List.forall_mem_singleton]
    exact ⟨by decide, by decide⟩
  · refine (reads "null").foreign ?_
    rintro ⟨records, lists⟩
    have denied : Roster.records? "null".toList = none := rfl
    rw [Roster.records?_eq_some_iff.mpr lists] at denied
    cases denied

end HubRelay
