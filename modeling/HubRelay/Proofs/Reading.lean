import HubRelay.Proofs.Link.Inflow

/-!
A reader loses nothing and depends on nothing but what comes out of its source.

`Reassembly.results` are the answers of successive calls, failed ones included. `Lossless` says
what they are: the leading datagrams of all bytes, with each failure of the source reported once in
between. `Reassembly.lossless` proves it for every reader, whatever its source will do.
-/

namespace HubRelay

/-- The source gives bytes and nothing else, in pieces that are not empty. -/
def Source.Plain (source : Source) : Prop := ∀ read ∈ source, ∃ bytes ≠ [], read = .data bytes

def payloads (results : List (Except LinkError Bytes)) : List Bytes :=
  results.filterMap Except.toOption

def failures (results : List (Except LinkError Bytes)) : List LinkError :=
  results.filterMap fun
    | .ok _ => none
    | .error error => some error

namespace Reassembly

def results (r : Reassembly) : Nat → List (Except LinkError Bytes)
  | 0 => []
  | n + 1 => r.next.1 :: r.next.2.results n

def after (r : Reassembly) : Nat → Reassembly
  | 0 => r
  | n + 1 => r.next.2.after n

/-- Nothing more will be found: the header in the buffer is flawed, or the stream has ended. In both
cases the reader gives the same answer from now on, and does not read any further. -/
inductive Spent (r : Reassembly) : LinkError → Prop
  | flawed {error : LinkError} (flaw : Datagram.Flawed r.limit r.buffer error) : Spent r error
  | ended (scanned : Datagram.scan r.limit r.buffer = .incomplete) (none : r.source = []) :
      Spent r .closed

/-- What the calls of a reader give and what they leave. -/
structure Lossless (r : Reassembly) : Prop where
  /-- The payloads found are the leading ones of all bytes, and those that are not found yet are
  the leading ones of what is left. -/
  found : ∀ n, payloads (r.results n) ++ Datagram.leading r.limit (r.after n).bytes =
    Datagram.leading r.limit r.bytes
  /-- No byte is lost, whatever fails in between. -/
  kept : ∀ n, (payloads (r.results n)).flatMap Datagram.encode ++ (r.after n).bytes = r.bytes
  /-- Every failure of the source ends one call. Any other failure is the last thing to happen. -/
  failed : ∀ n, ∃ until' times error, r.results n = until' ++ List.replicate times (.error error) ∧
    failures until' ++ (r.after n).source.faults = r.source.faults ∧
    (times = 0 ∨ (r.after n).Spent error)
  /-- After a failed read the calls go on as if it had not been. -/
  resumed : ∀ before read later error, r.source = before ++ read :: later →
    read.fault? = some error → ∀ n, r.results n = { r with source := before ++ later }.results n ∨
      ∃ k m, n = k + 1 + m ∧ r.results n =
        { r with source := before ++ later }.results k ++
          .error error :: ({ r with source := before ++ later }.after k).results m
  /-- Interrupted reads change nothing. -/
  uninterrupted : ∀ before later, r.source = before ++ .interrupted :: later →
    ∀ n, r.results n = { r with source := before ++ later }.results n
  /-- A flawed header at the front of what comes is reported by every call, and only the first call
  reads. -/
  flawed : ∀ error, Datagram.Flawed r.limit r.inflow.ahead error →
    ∀ n, r.results n = List.replicate n (.error error) ∧ r.after (n + 1) = r.after 1
  /-- Once the flawed header is in the buffer, or the stream has ended, no call changes anything. -/
  spent : ∀ error, r.Spent error →
    ∀ n, r.results n = List.replicate n (.error error) ∧ r.after n = r
  /-- The pieces in which the bytes come do not matter. -/
  pieces : ∀ source : Source, r.source.Plain → source.Plain → source.bytes = r.source.bytes →
    ∀ n, { r with source }.results n = r.results n
  /-- Encoded payloads are found one by one, and then the end of the stream. -/
  encoded : ∀ sent : List Bytes, (∀ payload ∈ sent, Datagram.Fits r.limit payload) →
    r.source.Plain → r.bytes = sent.flatMap Datagram.encode →
    ∀ n, r.results n =
      (sent.map .ok).take n ++ List.replicate (n - sent.length) (.error .closed)

variable {r r' : Reassembly} {error : LinkError}

@[simp] theorem limit_next (r : Reassembly) : r.next.2.limit = r.limit := r.next_spec.2.2

/-! ### Results and inflow -/

theorem next_congr (flow : r.inflow = r'.inflow) (limit : r.limit = r'.limit) :
    r.next.1 = r'.next.1 ∧ r.next.2.inflow = r'.next.2.inflow := by
  obtain ⟨gives, leaves, -⟩ := r.next_spec
  obtain ⟨gives', leaves', -⟩ := r'.next_spec
  rw [gives, leaves, gives', leaves', flow, limit]
  exact ⟨rfl, rfl⟩

/-- The inflow decides about all results. Two readers with the same bytes and failures to come
answer alike, however the bytes are cut; the clauses about pieces and interruptions are cases of
this. -/
theorem results_congr (flow : r.inflow = r'.inflow) (limit : r.limit = r'.limit) (n : Nat) :
    r.results n = r'.results n := by
  induction n generalizing r r' with
  | zero => rfl
  | succ n ih =>
      obtain ⟨gives, leaves⟩ := next_congr flow limit
      rw [results, results, gives, ih leaves (by rw [limit_next, limit_next, limit])]

/-! ### Nothing is lost -/

/-- A call that finds a datagram takes it off the front of all bytes; any other leaves them. -/
theorem next_bytes (r : Reassembly) :
    match r.next.1 with
    | .ok payload => Datagram.scan r.limit r.bytes = .complete payload r.next.2.bytes ∧
        r.next.2.source.faults = r.source.faults
    | .error _ => r.next.2.bytes = r.bytes := by
  simp only [← bytes_inflow, ← faults_inflow]
  obtain whole := r.inflow.ofBytes_ahead_append_behind
  generalize leaves : r.next.2.inflow = flow'
  have call := r.next_call
  rw [leaves] at call
  generalize r.next.1 = result at call ⊢
  cases call with
  | found scanned =>
      have bytes := congrArg Inflow.bytes whole
      have faults := congrArg Inflow.faults whole
      simp only [Inflow.bytes_append, Inflow.bytes_ofBytes] at bytes
      simp only [Inflow.faults_append, Inflow.faults_ofBytes, List.nil_append] at faults
      constructor
      · simp only [Inflow.bytes_append, Inflow.bytes_ofBytes]
        rw [← bytes]
        exact Datagram.scan_append_of_complete scanned _
      · simp only [Inflow.faults_append, Inflow.faults_ofBytes, List.nil_append]
        exact faults
  | flawed flaw => rfl
  | failed scanned first =>
      rw [first] at whole
      have bytes := congrArg Inflow.bytes whole
      simpa [Inflow.bytes] using bytes
  | ended scanned none => rfl

theorem found_all (r : Reassembly) (n : Nat) :
    payloads (r.results n) ++ Datagram.leading r.limit (r.after n).bytes =
      Datagram.leading r.limit r.bytes := by
  induction n generalizing r with
  | zero => rfl
  | succ n ih =>
      have step := r.next_bytes
      have rest := ih r.next.2
      rw [limit_next] at rest
      rw [results, after]
      match result : r.next.1 with
      | .ok payload =>
          rw [result] at step
          rw [Datagram.leading_of_complete step.1, ← rest]
          rfl
      | .error error =>
          rw [result] at step
          rw [← step, ← rest]
          rfl

theorem kept_all (r : Reassembly) (n : Nat) :
    (payloads (r.results n)).flatMap Datagram.encode ++ (r.after n).bytes = r.bytes := by
  induction n generalizing r with
  | zero => rfl
  | succ n ih =>
      have step := r.next_bytes
      rw [results, after]
      match result : r.next.1 with
      | .ok payload =>
          rw [result] at step
          rw [(Datagram.scan_complete step.1).1, ← ih r.next.2, ← List.append_assoc]
          rfl
      | .error error =>
          rw [result] at step
          rw [← step, ← ih r.next.2]
          rfl

/-! ### When nothing more can be found -/

theorem Spent.next_eq (spent : r.Spent error) : r.next = (.error error, r) := by
  cases spent with
  | flawed flaw =>
      rw [next, Datagram.scan_eq_malformed_iff.mpr flaw]
  | ended scanned none =>
      obtain ⟨source, limit, buffer⟩ := r
      obtain rfl : source = [] := none
      rw [next, scanned]
      rfl

theorem Spent.results_eq (spent : r.Spent error) (n : Nat) :
    r.results n = List.replicate n (.error error) := by
  induction n with
  | zero => rfl
  | succ n ih => rw [results, spent.next_eq, ih, List.replicate_succ]

theorem Spent.after_eq (spent : r.Spent error) (n : Nat) : r.after n = r := by
  induction n with
  | zero => rfl
  | succ n ih => rw [after, spent.next_eq, ih]

/-- A call that fails without using up a failure of the source will always fail so. -/
theorem spent_of_error (fails : r.next.1 = .error error) (same : r.next.2.inflow = r.inflow) :
    r.next.2.Spent error := by
  -- an inflow without its first failure is another one
  have differs (r : Reassembly) {source : Source} {error : LinkError}
      (came : r.source.inflow = .fault error :: source.inflow) :
      { r with source }.inflow ≠ r.inflow := by
    intro same
    have := congrArg List.length same
    simp [inflow, came] at this
  fun_induction next r with
  | case1 r error' found =>
      cases fails
      exact .flawed (Datagram.scan_eq_malformed_iff.mp found)
  | case2 r payload rest found => cases fails
  | case3 r found source step ih => exact ih fails (same.trans (inflow_of_interrupted step).symm)
  | case4 r found text source step =>
      exact absurd same (differs r (inflow_of_failed step))
  | case5 r found bytes source step some ih =>
      exact ih fails (same.trans (inflow_of_data step some).symm)
  | case6 r found bytes source step none =>
      obtain rfl := Decidable.not_not.mp none
      obtain came | ⟨-, ended⟩ := Source.inflow_read readSize_pos r.source
      · rw [step] at came
        exact absurd same (differs r came)
      · rw [step] at ended
        cases ended
        cases fails
        exact .ended found rfl

theorem failed_once (r : Reassembly) (n : Nat) :
    ∃ until' times error, r.results n = until' ++ List.replicate times (.error error) ∧
      failures until' ++ (r.after n).source.faults = r.source.faults ∧
      (times = 0 ∨ (r.after n).Spent error) := by
  induction n generalizing r with
  | zero => exact ⟨[], 0, .closed, rfl, rfl, .inl rfl⟩
  | succ n ih =>
      -- An error that uses up nothing is given again by every later call.
      have last {error : LinkError} (fails : r.next.1 = .error error)
          (same : r.next.2.inflow = r.inflow) :
          ∃ until' times error, r.results (n + 1) = until' ++ List.replicate times (.error error) ∧
            failures until' ++ (r.after (n + 1)).source.faults = r.source.faults ∧
            (times = 0 ∨ (r.after (n + 1)).Spent error) := by
        have spent := spent_of_error fails same
        refine ⟨[], n + 1, error, ?_, ?_, .inr ?_⟩
        · rw [results, fails, spent.results_eq]
          rfl
        · rw [after, spent.after_eq, ← faults_inflow, same, faults_inflow]
          rfl
        · rwa [after, spent.after_eq]
      obtain ⟨until', times, error, gives, faults, spent⟩ := ih r.next.2
      have call := r.next_call
      generalize given : r.next.1 = result at call
      generalize left : r.next.2.inflow = flow at call
      cases call with
      | found scanned =>
          rename_i payload rest
          refine ⟨.ok payload :: until', times, error, ?_, ?_, spent⟩
          · rw [results, given, gives]
            rfl
          · have := r.next_bytes
            rw [given] at this
            rw [← this.2]
            exact faults
      | flawed flaw => exact last given left
      | failed scanned first =>
          rename_i error' later
          refine ⟨.error error' :: until', times, error, ?_, ?_, spent⟩
          · rw [results, given, gives]
            rfl
          · have whole := congrArg Inflow.faults r.inflow.ofBytes_ahead_append_behind
            rw [← faults_inflow r.next.2, left] at faults
            simp only [Inflow.faults_append, Inflow.faults_ofBytes, List.nil_append, first,
              Inflow.faults, faults_inflow] at whole faults
            rw [← whole, ← faults]
            rfl
      | ended scanned none => exact last given left

/-! ### A failure less -/

/-- A failure of the source is one more answer, and all others are as if it had not been. The bytes
that were collected before it stay in the buffer. -/
theorem results_of_fault {before later : Inflow} (flow : r.inflow = before ++ .fault error :: later)
    (flow' : r'.inflow = before ++ later) (limit : r.limit = r'.limit) (n : Nat) :
    r.results n = r'.results n ∨
      ∃ k m, n = k + 1 + m ∧
        r.results n = r'.results k ++ .error error :: (r'.after k).results m := by
  induction n generalizing r r' before with
  | zero => exact .inl rfl
  | succ n ih =>
      obtain ⟨gives, leaves, -⟩ := r.next_spec
      obtain ⟨gives', leaves', -⟩ := r'.next_spec
      rw [flow] at gives leaves
      rw [flow', ← limit] at gives' leaves'
      obtain met | ⟨result, before', with', without⟩ :=
        Inflow.next_of_fault r.limit before later error
      · right
        refine ⟨0, n, by omega, ?_⟩
        have same : r.next.2.results n = r'.results n :=
          results_congr (by rw [leaves, met, flow']) (by rw [limit_next, limit]) n
        rw [results.eq_2, gives, met, same]
        rfl
      · rw [with'] at gives leaves
        rw [without] at gives' leaves'
        obtain same | ⟨k, m, rfl, rest⟩ := ih leaves leaves' (by simpa using limit)
        · exact .inl (by rw [results, results, gives, gives', same])
        · refine .inr ⟨k + 1, m, by omega, ?_⟩
          rw [results, gives, rest, results, gives', after]
          rfl

/-! ### Bytes and nothing else -/

theorem inflow_of_plain {source : Source} (plain : source.Plain) :
    source.inflow = Inflow.ofBytes source.bytes := by
  induction source with
  | nil => rfl
  | cons read rest ih =>
      obtain ⟨⟨bytes, some, rfl⟩, rest⟩ := List.forall_mem_cons.mp plain
      have := ih rest
      simp only [Source.inflow, Source.bytes, List.flatMap_cons, Inflow.ofBytes_append,
        Read.inflow_data some] at this ⊢
      rw [this]
      rfl

/-- Without failures a reader finds what was encoded, and then the end of the stream. -/
theorem results_of_encoded (sent : List Bytes)
    (fit : ∀ payload ∈ sent, Datagram.Fits r.limit payload)
    (flow : r.inflow = Inflow.ofBytes (sent.flatMap Datagram.encode)) (n : Nat) :
    r.results n = (sent.map .ok).take n ++ List.replicate (n - sent.length) (.error .closed) := by
  induction n generalizing r sent with
  | zero => simp [results]
  | succ n ih =>
      obtain ⟨gives, leaves, -⟩ := r.next_spec
      rw [flow] at gives leaves
      cases sent with
      | nil =>
          have ended : Inflow.next r.limit [] = (.error .closed, []) := rfl
          rw [List.flatMap_nil] at gives leaves
          have rest := ih [] nofun (by rw [leaves]; exact congrArg Prod.snd ended)
          rw [results, gives, rest]
          simp [Inflow.ofBytes, ended, List.replicate_succ]
      | cons payload sent =>
          obtain ⟨fits, fit⟩ := List.forall_mem_cons.mp fit
          have found :
              Inflow.next r.limit (Inflow.ofBytes ((payload :: sent).flatMap Datagram.encode)) =
                (.ok payload, Inflow.ofBytes (sent.flatMap Datagram.encode)) := by
            rw [Inflow.next, Inflow.ahead_ofBytes, Inflow.behind_ofBytes, List.flatMap_cons,
              Datagram.scan_encode fits.1 fits.2]
            exact congrArg (Prod.mk _) (List.append_nil _)
          rw [found] at gives leaves
          rw [results, gives, ih sent (by simpa using fit) leaves]
          simp

/-! ### The whole reader -/

/-- A reader loses nothing, whatever its source does and however it is cut.

The clauses are proved for `Inflow.next`, which has no loop and no pieces, and brought back to the
reader by `Reassembly.next_spec`. -/
theorem lossless (r : Reassembly) : r.Lossless where
  found := r.found_all
  kept := r.kept_all
  failed := r.failed_once
  resumed before read later error cut fails n := by
    have flow : r.inflow = (Inflow.ofBytes r.buffer ++ Source.inflow before) ++
        .fault error :: Source.inflow later := by
      have shape : r.source.inflow =
          Source.inflow before ++ (read.inflow ++ Source.inflow later) := by
        rw [cut, Source.inflow_append]
        rfl
      rw [inflow, shape, Read.inflow_fault fails, List.append_assoc]
      rfl
    have flow' : { r with source := before ++ later }.inflow =
        (Inflow.ofBytes r.buffer ++ Source.inflow before) ++ Source.inflow later := by
      rw [inflow, Source.inflow_append, List.append_assoc]
    exact results_of_fault flow flow' rfl n
  uninterrupted before later cut n := by
    have same : r.inflow = { r with source := before ++ later }.inflow := by
      simp only [inflow, cut, Source.inflow_append]
      rfl
    exact results_congr same rfl n
  flawed error flaw n := by
    obtain ⟨gives, leaves, -⟩ := r.next_spec
    rw [Inflow.next, Datagram.scan_eq_malformed_iff.mpr flaw] at gives leaves
    have spent := spent_of_error gives leaves
    constructor
    · cases n with
      | zero => rfl
      | succ n => rw [results, gives, spent.results_eq, List.replicate_succ]
    · rw [after, spent.after_eq]
      rfl
  spent error spent n := ⟨spent.results_eq n, spent.after_eq n⟩
  pieces source plain plain' same n := by
    have same : { r with source }.inflow = r.inflow := by
      simp only [inflow, inflow_of_plain plain, inflow_of_plain plain', same]
    exact results_congr same rfl n
  encoded sent fit plain bytes n := by
    refine results_of_encoded sent fit ?_ n
    rw [← bytes, inflow, inflow_of_plain plain, Reassembly.bytes, Inflow.ofBytes_append]

end Reassembly

end HubRelay
