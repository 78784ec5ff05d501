import CrossbarBench.Log.Record

/-! What of a log reaches a console. A console knows fewer levels than there are
severities: failures of either kind are errors. -/

namespace CrossbarBench

inductive Level where
  | error
  | info
  | debug
  deriving DecidableEq

namespace Level

def label : Level → String
  | .error => "ERROR"
  | .info => "INFO"
  | .debug => "DEBUG"

def ofSeverity : Severity → Level
  | .error | .assertion => .error
  | .info => .info
  | .debug => .debug

end Level

/-- How much a console shows. -/
inductive Verbosity where
  | off
  | error
  | warn
  | info
  | debug
  | trace
  deriving DecidableEq

namespace Verbosity

def shows : Verbosity → Level → Bool
  | .off, _ => false
  | .error, level | .warn, level => level = .error
  | .info, level => level ≠ .debug
  | .debug, _ | .trace, _ => true

/-- The lines of a log that a console shows, each with its level. -/
def published (verbosity : Verbosity) (records : List LogRecord) : List (Level × String) :=
  records.filterMap fun record =>
    let level := Level.ofSeverity record.severity
    if verbosity.shows level then some (level, record.render) else none

end Verbosity

end CrossbarBench
