import CrossbarBench.Check.Campaign
import CrossbarBench.CommandLine.Options
import CrossbarBench.Crossbar.Basic
import CrossbarBench.Traffic.Catalogue

/-! A session of the bench from its command line: what it prints and the status it ends
with. -/

namespace CrossbarBench.CommandLine

structure Transcript where
  status : Nat
  output : List String
  error : Option String
  deriving DecidableEq

namespace Options

def selection (o : Options) : List String :=
  if o.scenarios.isEmpty then Catalogue.names else o.scenarios

end Options

def opening : String := "🚀 Starting Xbar TB.."

/-- A session that ends with an error message. -/
def failed (message : String) : Transcript := ⟨1, [opening], some message⟩

/-- A session that a fault ends: with its message, or broken off if it is fatal. -/
def faulted (fault : Fault) : Transcript :=
  if fault.fatal then ⟨101, [opening], none⟩ else failed fault.message

/-- A session that ends with a verdict. The status is the number of errors, as far as 255. -/
def finished (s : Summary) : Transcript :=
  let blamed := (s.reports.filter (!·.passed)).map fun r => s!"  {r.name}: {r.errorCount} errors"
  let verdict := if s.passed then "🎉 OK." else s!"❌ {s.errorCount} errors!"
  ⟨min s.errorCount 255, [opening, "Testbench finished."] ++ blamed ++ [verdict], none⟩

/-- Runs the selected scenarios on a new crossbar. No verilated model is built in. -/
def session (o : Options) : Transcript :=
  match Catalogue.select AddressMap.standard o.seed o.fuzzRequests o.selection with
  | .error fault => faulted fault
  | .ok scenarios =>
    match o.backend with
    | .verilator => failed "xbar-tb was built without the `verilator` feature"
    | .behavioral =>
      match (Testbench.new Crossbar.initial).campaign scenarios with
      | .error fault => faulted fault
      | .ok (summary, _) => finished summary

/-- The session of an argument list. Arguments that are refused end it with status 2. -/
def run (arguments : List String) : Transcript :=
  match parse arguments with
  | .error _ => ⟨2, [], none⟩
  | .ok o => session o

end CrossbarBench.CommandLine
