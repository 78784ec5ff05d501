import CrossbarBench.Check.Run

/-! A campaign runs scenarios one after another on the same testbench and announces each
in the log. -/

namespace CrossbarBench.Testbench

variable {σ : Type} [Device σ]

def announce (b : Testbench σ) (s : Scenario) : Testbench σ :=
  let delays := ", ".intercalate (s.delays.toList.map toString)
  (b.info s!"{s.name}...").debug s!"delays [{delays}]"

def conclude (b : Testbench σ) (r : Report) : Testbench σ :=
  b.info s!"Done after {r.iterations} iterations, {r.errorCount} errors."

/-- The reports come in the order of the scenarios. A fault ends the campaign. -/
def performAll (b : Testbench σ) : List Scenario → Except Fault (List Report × Testbench σ)
  | [] => pure ([], b)
  | s :: rest => do
    let (report, b) ← (b.announce s).perform s
    let (reports, b) ← (b.conclude report).performAll rest
    pure (report :: reports, b)

def campaign (b : Testbench σ) (scenarios : List Scenario) :
    Except Fault (Summary × Testbench σ) := do
  let (reports, b) ← b.performAll scenarios
  pure (⟨reports⟩, b)

end CrossbarBench.Testbench
