import HubRelay.Link.Source
import HubRelay.Proofs.Link.Scan

/-!
What comes out of a stream, without the pieces it comes in.

The bytes of a source and its failed reads form one sequence, its `Inflow`; the bytes that a reader
has collected stand in front of it. `Inflow.next` says without a loop what a call of the reader
gives and leaves, and `Reassembly.next_spec` that the reader does just that: how the bytes are cut
into pieces and how often a read is interrupted does not matter.
-/

namespace HubRelay

/-- A byte, or a read that failed. -/
inductive Arrival
  | byte (b : UInt8)
  | fault (error : LinkError)
  deriving DecidableEq, Repr

/-- What comes out of a stream, in order. -/
abbrev Inflow := List Arrival

namespace Inflow

def ofBytes (bytes : Bytes) : Inflow := bytes.map .byte

def bytes : Inflow → Bytes
  | [] => []
  | .byte b :: rest => b :: bytes rest
  | .fault _ :: rest => bytes rest

def faults : Inflow → List LinkError
  | [] => []
  | .byte _ :: rest => faults rest
  | .fault error :: rest => error :: faults rest

/-- The bytes before the first failure. -/
def ahead : Inflow → Bytes
  | .byte b :: rest => b :: ahead rest
  | _ => []

/-- The first failure and everything after it. -/
def behind : Inflow → Inflow
  | .byte _ :: rest => behind rest
  | flow => flow

/-- What one call of a reader gives for this inflow, and the inflow that it leaves. It looks at the
bytes before the first failure: if they start with a datagram that is the answer, and otherwise the
failure is. -/
def next (limit : Nat) (flow : Inflow) : Except LinkError Bytes × Inflow :=
  match Datagram.scan limit flow.ahead with
  | .malformed error => (.error error, flow)
  | .complete payload rest => (.ok payload, ofBytes rest ++ flow.behind)
  | .incomplete =>
      match flow.behind with
      | .fault error :: later => (.error error, ofBytes flow.ahead ++ later)
      | _ => (.error .closed, flow)

variable {limit : Nat} {flow later : Inflow} {error : LinkError}

/-- Bytes and faults are read off a flow in parts. -/
@[simp] theorem bytes_append (flow more : Inflow) :
    (flow ++ more).bytes = flow.bytes ++ more.bytes := by
  induction flow with
  | nil => rfl
  | cons arrival flow ih => cases arrival <;> simp [bytes, ih]

@[simp] theorem faults_append (flow more : Inflow) :
    (flow ++ more).faults = flow.faults ++ more.faults := by
  induction flow with
  | nil => rfl
  | cons arrival flow ih => cases arrival <;> simp [faults, ih]

@[simp] theorem bytes_ofBytes (bytes : Bytes) : (ofBytes bytes).bytes = bytes := by
  induction bytes with
  | nil => rfl
  | cons b bytes ih => exact congrArg (b :: ·) ih

/-- A flow made of bytes has no fault in it. -/
@[simp] theorem faults_ofBytes (bytes : Bytes) : (ofBytes bytes).faults = [] := by
  induction bytes with
  | nil => rfl
  | cons b bytes ih => exact ih

@[simp] theorem ofBytes_append (bytes more : Bytes) :
    ofBytes (bytes ++ more) = ofBytes bytes ++ ofBytes more := List.map_append

/-- Bytes put in front come before whatever was ahead of the next fault. -/
@[simp] theorem ahead_ofBytes_append (bytes : Bytes) (flow : Inflow) :
    ahead (ofBytes bytes ++ flow) = bytes ++ flow.ahead := by
  induction bytes with
  | nil => rfl
  | cons b bytes ih => exact congrArg (b :: ·) ih

/-- Bytes put in front change nothing behind the next fault. -/
@[simp] theorem behind_ofBytes_append (bytes : Bytes) (flow : Inflow) :
    behind (ofBytes bytes ++ flow) = flow.behind := by
  induction bytes with
  | nil => rfl
  | cons b bytes ih => exact ih

@[simp] theorem ahead_ofBytes (bytes : Bytes) : (ofBytes bytes).ahead = bytes := by
  induction bytes with
  | nil => rfl
  | cons b bytes ih => exact congrArg (b :: ·) ih

@[simp] theorem behind_ofBytes (bytes : Bytes) : (ofBytes bytes).behind = [] := by
  induction bytes with
  | nil => rfl
  | cons b bytes ih => exact ih

/-- A flow is what lies ahead of its first fault, followed by the rest. -/
theorem ofBytes_ahead_append_behind : (flow : Inflow) → ofBytes flow.ahead ++ flow.behind = flow
  | [] => rfl
  | .byte b :: rest => congrArg (Arrival.byte b :: ·) (ofBytes_ahead_append_behind rest)
  | .fault _ :: _ => rfl

/-- The rest begins with the fault, if there is one. -/
@[simp] theorem ahead_behind : (flow : Inflow) → flow.behind.ahead = []
  | [] => rfl
  | .byte _ :: rest => ahead_behind rest
  | .fault _ :: _ => rfl

/-- Either there is no failure, or the bytes up to the first one stand before it. -/
theorem behind_cases : (flow : Inflow) →
    flow.behind = [] ∨ ∃ error later, flow.behind = .fault error :: later
  | [] => .inl rfl
  | .byte _ :: rest => behind_cases rest
  | .fault error :: later => .inr ⟨error, later, rfl⟩

/-- A call either meets this failure, or it goes the same way with and without it. -/
theorem next_of_fault (limit : Nat) (before later : Inflow) (error : LinkError) :
    next limit (before ++ .fault error :: later) = (.error error, before ++ later) ∨
      ∃ result before', next limit (before ++ .fault error :: later) =
          (result, before' ++ .fault error :: later) ∧
        next limit (before ++ later) = (result, before' ++ later) := by
  have whole := before.ofBytes_ahead_append_behind
  generalize before.ahead = bytes at whole
  obtain none | ⟨first, more, behind⟩ := before.behind_cases
  · -- only bytes stand before the failure
    rw [none, List.append_nil] at whole
    subst whole
    match scanned : Datagram.scan limit bytes with
    | .incomplete => exact .inl (by simp [next, ahead, Inflow.behind, scanned])
    | .complete payload rest =>
        refine .inr ⟨.ok payload, ofBytes rest, by simp [next, ahead, Inflow.behind, scanned], ?_⟩
        simp [next, Datagram.scan_append_of_complete scanned, ofBytes_ahead_append_behind]
    | .malformed flaw =>
        refine .inr ⟨.error flaw, ofBytes bytes, by simp [next, ahead, scanned], ?_⟩
        simp [next, Datagram.scan_append_of_malformed scanned]
  · -- another failure comes first
    rw [behind] at whole
    subst whole
    right
    match scanned : Datagram.scan limit bytes with
    | .incomplete =>
        refine ⟨.error first, ofBytes bytes ++ more, ?_, ?_⟩ <;>
          simp [next, ahead, Inflow.behind, scanned]
    | .complete payload rest =>
        refine ⟨.ok payload, ofBytes rest ++ .fault first :: more, ?_, ?_⟩ <;>
          simp [next, ahead, Inflow.behind, scanned]
    | .malformed flaw =>
        refine ⟨.error flaw, ofBytes bytes ++ .fault first :: more, ?_, ?_⟩ <;>
          simp [next, ahead, scanned]

end Inflow

def Read.bytes : Read → Bytes
  | .data bytes => bytes
  | _ => []

/-- How a read fails. A read of no bytes says that the stream has ended. -/
def Read.fault? : Read → Option LinkError
  | .data [] => some .closed
  | .failed text => some (.failed text)
  | _ => none

def Read.inflow (read : Read) : Inflow :=
  Inflow.ofBytes read.bytes ++ read.fault?.toList.map .fault

/-- A read that brings data adds them to the flow. -/
theorem Read.inflow_data {bytes : Bytes} (some : bytes ≠ []) :
    (Read.data bytes).inflow = Inflow.ofBytes bytes := by
  obtain ⟨b, bytes, rfl⟩ := List.exists_cons_of_ne_nil some
  exact List.append_nil _

/-- A read that fails adds its fault, also if it brought no data at all because the stream is over.
-/
theorem Read.inflow_fault {read : Read} {error : LinkError} (fails : read.fault? = some error) :
    read.inflow = [.fault error] := by
  have empty : read.bytes = [] := by
    match read with
    | .data [] => rfl
    | .failed text => rfl
  rw [Read.inflow, fails, empty]
  rfl

namespace Source

def bytes (source : Source) : Bytes := source.flatMap Read.bytes

/-- All failures still to come, apart from the end of the stream. -/
def faults (source : Source) : List LinkError := source.filterMap Read.fault?

def inflow (source : Source) : Inflow := source.flatMap Read.inflow

@[simp] theorem inflow_append (source more : Source) :
    inflow (source ++ more) = source.inflow ++ inflow more := List.flatMap_append

/-- The flow of a source holds the bytes that it delivers, in order. -/
@[simp] theorem bytes_inflow (source : Source) : source.inflow.bytes = source.bytes := by
  induction source with
  | nil => rfl
  | cons read rest ih =>
      have own : read.inflow.bytes = read.bytes := by
        rw [Read.inflow, Inflow.bytes_append, Inflow.bytes_ofBytes]
        cases read.fault? <;> simp [Inflow.bytes]
      simp only [inflow, bytes, List.flatMap_cons, Inflow.bytes_append] at ih ⊢
      rw [own, ih]

/-- The flow of a source holds the faults that it meets, in order. -/
@[simp] theorem faults_inflow (source : Source) : source.inflow.faults = source.faults := by
  induction source with
  | nil => rfl
  | cons read rest ih =>
      simp only [inflow, faults, List.flatMap_cons, Inflow.faults_append, List.filterMap_cons,
        Read.inflow, Inflow.faults_ofBytes, List.nil_append] at ih ⊢
      cases read.fault? <;> simp [Inflow.faults, ih]

/-- A read lets in what it says, and a stream without reads has ended. -/
theorem inflow_read {want : Nat} (asks : 0 < want) (source : Source) :
    source.inflow = (source.read want).1.inflow ++ (source.read want).2.inflow ∨
      source = [] ∧ source.read want = (.data [], []) := by
  match source with
  | [] => exact .inr ⟨rfl, rfl⟩
  | .data [] :: rest => exact .inl (by simp [read, inflow])
  | .data (b :: bytes) :: rest =>
      left
      simp only [read]
      split
      · rename_i short
        rw [List.take_of_length_le short]
        rfl
      · -- a long piece lets in its first bytes now and the others later
        rename_i long
        have now : (b :: bytes).take want ≠ [] := by
          rw [ne_eq, List.take_eq_nil_iff]
          exact fun none => none.elim (Nat.pos_iff_ne_zero.mp asks) (by simp)
        have later : (b :: bytes).drop want ≠ [] := by
          rw [ne_eq, List.drop_eq_nil_iff]
          exact long
        simp only [inflow, List.flatMap_cons, Read.inflow_data now, Read.inflow_data later,
          Read.inflow_data (List.cons_ne_nil b bytes)]
        rw [← List.append_assoc, ← Inflow.ofBytes_append, List.take_append_drop]
  | .interrupted :: rest => exact .inl rfl
  | .failed text :: rest => exact .inl rfl

/-- As long as the stream has not ended, what a read gave and what it left add up. -/
theorem inflow_of_read {want : Nat} (asks : 0 < want) {source rest : Source} {given : Read}
    (step : source.read want = (given, rest)) (more : given ≠ .data []) :
    source.inflow = given.inflow ++ rest.inflow := by
  obtain came | ⟨-, ended⟩ := inflow_read asks source
  · rwa [step] at came
  · rw [step] at ended
    cases ended
    exact absurd rfl more

end Source

/-- The ways in which one call of a reader can go, given the inflow. A datagram is found, a header
is flawed, or the bytes do not suffice and a failure or the end of the stream is met. -/
inductive Inflow.Call (limit : Nat) (flow : Inflow) : Except LinkError Bytes → Inflow → Prop
  | found {payload rest : Bytes}
      (scanned : Datagram.scan limit flow.ahead = .complete payload rest) :
      Call limit flow (.ok payload) (ofBytes rest ++ flow.behind)
  | flawed {error : LinkError} (flaw : Datagram.Flawed limit flow.ahead error) :
      Call limit flow (.error error) flow
  | failed {error : LinkError} {later : Inflow}
      (scanned : Datagram.scan limit flow.ahead = .incomplete)
      (first : flow.behind = .fault error :: later) :
      Call limit flow (.error error) (ofBytes flow.ahead ++ later)
  | ended (scanned : Datagram.scan limit flow.ahead = .incomplete) (none : flow.behind = []) :
      Call limit flow (.error .closed) flow

/-- Reading from a flow is one of the three ways that a call can go. -/
theorem Inflow.next_call (limit : Nat) (flow : Inflow) :
    Inflow.Call limit flow (flow.next limit).1 (flow.next limit).2 := by
  rw [Inflow.next]
  split
  · rename_i error flaw
    exact .flawed (Datagram.scan_eq_malformed_iff.mp flaw)
  · rename_i payload rest scanned
    exact .found scanned
  · rename_i scanned
    obtain none | ⟨error, later, first⟩ := flow.behind_cases
    · rw [none]
      exact .ended scanned none
    · rw [first]
      exact .failed scanned first

namespace Reassembly

/-- A read asks for at least one byte. -/
theorem readSize_pos : 0 < readSize := by decide

/-- What the reader has still to make datagrams of. -/
def inflow (r : Reassembly) : Inflow := Inflow.ofBytes r.buffer ++ r.source.inflow

def bytes (r : Reassembly) : Bytes := r.buffer ++ r.source.bytes

@[simp] theorem bytes_inflow (r : Reassembly) : r.inflow.bytes = r.bytes := by
  simp [inflow, bytes]

@[simp] theorem faults_inflow (r : Reassembly) : r.inflow.faults = r.source.faults := by
  simp [inflow]

/-- What has been buffered is ahead of all that the source still delivers. -/
theorem ahead_inflow (r : Reassembly) : r.inflow.ahead = r.buffer ++ r.source.inflow.ahead :=
  Inflow.ahead_ofBytes_append ..

theorem behind_inflow (r : Reassembly) : r.inflow.behind = r.source.inflow.behind :=
  Inflow.behind_ofBytes_append ..

/-- An interrupted read changes nothing. -/
theorem inflow_of_interrupted {r : Reassembly} {source : Source}
    (step : r.source.read readSize = (.interrupted, source)) :
    { r with source }.inflow = r.inflow :=
  (congrArg (Inflow.ofBytes r.buffer ++ ·)
    (Source.inflow_of_read readSize_pos step nofun)).symm

/-- A failed read takes its failure out of the source. -/
theorem inflow_of_failed {r : Reassembly} {source : Source} {text : String}
    (step : r.source.read readSize = (.failed text, source)) :
    r.source.inflow = .fault (.failed text) :: source.inflow :=
  Source.inflow_of_read readSize_pos step nofun

/-- Bytes that are read move from the source to the buffer. -/
theorem inflow_of_data {r : Reassembly} {source : Source} {bytes : Bytes}
    (step : r.source.read readSize = (.data bytes, source)) (some : bytes ≠ []) :
    { r with source, buffer := r.buffer ++ bytes }.inflow = r.inflow := by
  have came := Source.inflow_of_read readSize_pos step (by simpa using some)
  simp only [inflow, came, Read.inflow_data some, Inflow.ofBytes_append, List.append_assoc]

/-- When the first thing to come is a failure, only the buffer counts. -/
theorem next_inflow_of_fault {r : Reassembly} {error : LinkError} {later : Inflow}
    (found : Datagram.scan r.limit r.buffer = .incomplete)
    (came : r.source.inflow = .fault error :: later) :
    r.inflow.next r.limit = (.error error, Inflow.ofBytes r.buffer ++ later) := by
  have front : r.inflow.ahead = r.buffer := by
    rw [ahead_inflow, came]
    exact List.append_nil _
  have back : r.inflow.behind = .fault error :: later := by
    rw [behind_inflow, came]
    rfl
  rw [Inflow.next, front, found, back]

/-- A call gives and leaves what the inflow prescribes, and keeps the limit. The induction is on
what there still is to read; every read moves something from the source to the buffer and leaves the
inflow as it is. -/
theorem next_spec (r : Reassembly) :
    r.next.1 = (r.inflow.next r.limit).1 ∧ r.next.2.inflow = (r.inflow.next r.limit).2 ∧
      r.next.2.limit = r.limit := by
  fun_induction next r with
  | case1 r error found =>
      rw [Inflow.next, ahead_inflow, Datagram.scan_append_of_malformed found]
      exact ⟨rfl, rfl, rfl⟩
  | case2 r payload rest found =>
      rw [Inflow.next, ahead_inflow, Datagram.scan_append_of_complete found, behind_inflow]
      refine ⟨rfl, ?_, rfl⟩
      simp only [inflow, Inflow.ofBytes_append, List.append_assoc,
        Inflow.ofBytes_ahead_append_behind]
  | case3 r found source step ih =>
      rw [← inflow_of_interrupted step]
      exact ih
  | case4 r found text source step =>
      rw [next_inflow_of_fault found (inflow_of_failed step)]
      exact ⟨rfl, rfl, rfl⟩
  | case5 r found bytes source step some ih =>
      rw [← inflow_of_data step some]
      exact ih
  | case6 r found bytes source step none =>
      obtain rfl := Decidable.not_not.mp none
      obtain came | ⟨empty, ended⟩ := Source.inflow_read readSize_pos r.source
      · rw [step] at came
        rw [next_inflow_of_fault found came]
        exact ⟨rfl, rfl, rfl⟩
      · rw [step] at ended
        cases ended
        have front : r.inflow.ahead = r.buffer := by
          rw [ahead_inflow, empty]
          exact List.append_nil _
        have back : r.inflow.behind = [] := by
          rw [behind_inflow, empty]
          rfl
        rw [Inflow.next, front, found, back]
        exact ⟨rfl, by rw [inflow, inflow, empty], rfl⟩

/-- A call of the reader is a call on the flow. How the bytes were cut into reads plays no part in
it. -/
theorem next_call (r : Reassembly) : Inflow.Call r.limit r.inflow r.next.1 r.next.2.inflow := by
  obtain ⟨gives, leaves, -⟩ := r.next_spec
  rw [gives, leaves]
  exact Inflow.next_call ..

end Reassembly

end HubRelay
