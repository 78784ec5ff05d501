import CrossbarBench.Log.Verbosity
import CrossbarBench.Main
import CrossbarBench.Proofs.Crossbar.Drain
import CrossbarBench.Proofs.Crossbar.Repeatability
import CrossbarBench.Proofs.Ledger.Agreement
import CrossbarBench.Proofs.Ledger.Truncation
import CrossbarBench.Proofs.Ledger.Faults
import CrossbarBench.Proofs.Crossbar.Transfer
import CrossbarBench.Proofs.Crossbar.Contention
import CrossbarBench.Proofs.Run.Moments
import CrossbarBench.Proofs.Ledger.Ownership
import CrossbarBench.Proofs.Run.Outstanding
import CrossbarBench.Proofs.Run.Accounts
import CrossbarBench.Proofs.Run.Padding
import CrossbarBench.Proofs.Crossbar.Spacing
import CrossbarBench.Proofs.Crossbar.Aliasing
import CrossbarBench.Proofs.CommandLine.Verdict
import CrossbarBench.Proofs.Ledger.Lanes
import CrossbarBench.Proofs.Crossbar.Access
import CrossbarBench.Proofs.Bench.Driver
import CrossbarBench.Proofs.Crossbar.Evaluation
import CrossbarBench.Proofs.Crossbar.Counters
