import CrossbarBench.Bus.Port
import CrossbarBench.Check.Shadow
import CrossbarBench.Log.Record

/-! What a run leaves behind: its failures, the handshakes it completed and the shadow
memory at its end. A failure determines the record that announces it in the log. -/

namespace CrossbarBench

inductive FailureKind where
  /-- Ready while request was low. -/
  | protocolViolation
  | dataMismatch (address expected observed : Word)
  | timeout (limit : Nat)
  deriving DecidableEq

structure Failure where
  kind : FailureKind
  time : Nat
  iteration : Nat
  /-- A failure of the run as a whole has no port. -/
  port : Option Port
  deriving DecidableEq

namespace Failure

def isProtocolViolation (f : Failure) : Bool := f.kind = .protocolViolation

def isDataMismatch (f : Failure) : Bool :=
  match f.kind with
  | .dataMismatch .. => true
  | _ => false

def isTimeout (f : Failure) : Bool :=
  match f.kind with
  | .timeout _ => true
  | _ => false

def severity (f : Failure) : Severity := if f.isTimeout then .error else .assertion

/-- Names the port at fault in front of a complaint. -/
def blame (f : Failure) (complaint : String) : String :=
  match f.port with
  | some port => s!"Port {port.number}: " ++ complaint
  | none => complaint

def message (f : Failure) : String :=
  match f.kind with
  | .protocolViolation => f.blame "Ready asserted although no request is present!"
  | .dataMismatch _ expected observed =>
    let expected := Text.hex expected.toNat
    let observed := Text.hex observed.toNat
    f.blame s!"Incorrect read. Expected {expected}, read {observed}!"
  | .timeout _ => "Iteration limit reached without completing test sequence!"

def kindFields : FailureKind → List (String × String)
  | .protocolViolation => []
  | .dataMismatch address expected observed =>
    [("addr", Text.hex address.toNat), ("expected", Text.hexWord expected.toNat),
      ("observed", Text.hexWord observed.toNat)]
  | .timeout limit => [("limit", toString limit)]

def fields (f : Failure) : List (String × String) :=
  (f.port.map fun port => ("port", toString port.number)).toList ++ kindFields f.kind ++
    [("iteration", toString f.iteration)]

def record (f : Failure) : LogRecord := ⟨f.severity, f.time, f.message, f.fields⟩

end Failure

inductive Access where
  | read (data : Word)
  | write (enables : ByteEnables) (data : Word)
  deriving DecidableEq

/-- A handshake seen on a port. -/
structure Completion where
  iteration : Nat
  port : Port
  address : Word
  access : Access
  deriving DecidableEq

namespace Completion

/-- The port, address and data of a completed read. -/
def read? (c : Completion) : Option (Port × Word × Word) :=
  match c.access with
  | .read data => some (c.port, c.address, data)
  | .write .. => none

/-- The record of a completion, at a time at which the shadow memory holds `word` there. -/
def record (c : Completion) (time : Nat) (word : Word) : LogRecord :=
  let place := [("port", toString c.port.number), ("addr", Text.hex c.address.toNat)]
  match c.access with
  | .read data =>
    ⟨.debug, time, "Read completed", place ++ [("data", Text.hexWord data.toNat)]⟩
  | .write enables _ =>
    ⟨.debug, time, "Write completed",
      place ++ [("be", Text.hex enables.toNat), ("word", Text.hexWord word.toNat)]⟩

end Completion

inductive Outcome where
  /-- Every sequence drained. -/
  | done
  /-- The iteration limit came first. -/
  | aborted
  deriving DecidableEq

structure Report where
  name : String
  outcome : Outcome
  iterations : Nat
  failures : List Failure
  completions : List Completion
  shadow : Shadow
  deriving DecidableEq

namespace Report

def errorCount (r : Report) : Nat := r.failures.length

def passed (r : Report) : Bool := r.outcome = .done && r.failures.isEmpty

def protocolViolations (r : Report) : List Failure := r.failures.filter Failure.isProtocolViolation

def dataMismatches (r : Report) : List Failure := r.failures.filter Failure.isDataMismatch

def completionsOn (r : Report) (port : Port) : List Completion :=
  r.completions.filter fun c => c.port = port

/-- The data of every completed read, in order of completion. -/
def reads (r : Report) : List (Port × Word × Word) := r.completions.filterMap Completion.read?

end Report

/-- The reports of one run over several scenarios. -/
structure Summary where
  reports : List Report
  deriving DecidableEq

namespace Summary

def empty : Summary := ⟨[]⟩

def push (s : Summary) (r : Report) : Summary := ⟨s.reports ++ [r]⟩

def errorCount (s : Summary) : Nat := s.reports.foldr (fun r n => r.errorCount + n) 0

def timeouts (s : Summary) : Nat := s.reports.countP fun r => r.outcome = .aborted

def passed (s : Summary) : Bool := s.errorCount = 0

end Summary

end CrossbarBench
