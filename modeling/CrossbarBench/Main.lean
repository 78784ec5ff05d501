import CrossbarBench.CommandLine.Session

/-! The program. -/

open CrossbarBench

def main (arguments : List String) : IO UInt32 := do
  let transcript := CommandLine.run arguments
  transcript.output.forM fun line => IO.println line
  if let some message := transcript.error then
    IO.eprintln s!"Error: {message}"
  pure transcript.status.toUInt32
