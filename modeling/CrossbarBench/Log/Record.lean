import CrossbarBench.Text.Numeral

/-! Log records: a message at a simulation time, with named values behind it. -/

namespace CrossbarBench

inductive Severity where
  | debug
  | info
  | error
  | assertion
  deriving DecidableEq

namespace Severity

def label : Severity → String
  | .debug => "DBG"
  | .info => "INF"
  | .error => "ERR"
  | .assertion => "ASSERT"

/-- Errors and failed assertions count against a run. -/
def isFailure : Severity → Bool
  | .error | .assertion => true
  | .debug | .info => false

def rank : Severity → Nat
  | .debug => 0
  | .info => 1
  | .error => 2
  | .assertion => 3

/-- The order of rising gravity. -/
def atMost (a b : Severity) : Bool := a.rank ≤ b.rank

end Severity

structure LogRecord where
  severity : Severity
  time : Nat
  message : String
  fields : List (String × String)
  deriving DecidableEq

namespace LogRecord

/-- The value of the first field with the key. -/
def get? (record : LogRecord) (key : String) : Option String := record.fields.lookup key

/-- The line that shows a record. -/
def render (record : LogRecord) : String :=
  record.fields.foldl (fun line (key, value) => line ++ s!" {key}={value}")
    s!"[{Text.timestamp record.time}] {record.severity.label}: {record.message}"

end LogRecord

end CrossbarBench
