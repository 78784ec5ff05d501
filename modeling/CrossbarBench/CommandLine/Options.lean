/-! The command line of the bench. Arguments are read left to right. A value that stands
in an argument of its own is held back until the next known option, or the end, and only
then judged; an argument that no option can take is refused at once. -/

namespace CrossbarBench.CommandLine

/-- What the bench is asked to drive. -/
inductive Backend where
  | behavioral
  | verilator
  deriving DecidableEq

structure Options where
  /-- The scenarios to run, in order; all of them when none is named. -/
  scenarios : List String
  seed : Nat
  /-- Slots of each port in random traffic. -/
  fuzzRequests : Nat
  backend : Backend
  artifacts : String
  trace : String
  noTrace : Bool
  deriving DecidableEq

namespace Options

def default : Options where
  scenarios := []
  seed := 42
  fuzzRequests := 150
  backend := .behavioral
  artifacts := "artifacts"
  trace := "build/trace.vcd"
  noTrace := false

end Options

/-- Why no options come of a list of arguments. -/
inductive Refusal where
  /-- No option or value can be made of an argument. -/
  | unknownArgument
  /-- A value is missing, or is none of a fixed choice. -/
  | invalidValue
  /-- A value is not a number of 64 bits. -/
  | valueValidation
  /-- An option is given twice. -/
  | argumentConflict
  /-- A value stands behind an option that takes none. -/
  | tooManyValues
  /-- Help is asked for instead of a run. -/
  | helpRequested
  deriving DecidableEq

inductive Setting where
  | scenario
  | seed
  | fuzzRequests
  | backend
  | artifacts
  | trace
  | noTrace
  deriving DecidableEq

namespace Setting

def ofName? : String → Option Setting
  | "scenario" => some .scenario
  | "seed" => some .seed
  | "fuzz-requests" => some .fuzzRequests
  | "backend" => some .backend
  | "artifacts" => some .artifacts
  | "trace" => some .trace
  | "no-trace" => some .noTrace
  | _ => none

end Setting

/-- The shape of an argument. -/
inductive Argument where
  /-- Two dashes alone. -/
  | separator
  | long (name : String) (value : Option String)
  /-- One dash and letters, the first of which is given. -/
  | short (letter : Char)
  /-- Anything else, a single dash included. -/
  | plain (text : String)
  deriving DecidableEq

namespace Argument

def ofString (s : String) : Argument :=
  match s.toList with
  | ['-', '-'] => .separator
  | '-' :: '-' :: cs =>
    .long (String.ofList (cs.takeWhile (· ≠ '='))) <|
      match cs.dropWhile (· ≠ '=') with
      | [] => none
      | _ :: value => some (String.ofList value)
  | '-' :: c :: _ => .short c
  | _ => .plain s

end Argument

/-- A decimal number below 2 to the 64th, with or without a plus sign. -/
def parseNumber (s : String) : Except Refusal Nat :=
  let digits := match s.toList with
    | '+' :: cs => cs
    | cs => cs
  let n := digits.foldl (fun n c => 10 * n + (c.toNat - '0'.toNat)) 0
  if !digits.isEmpty && digits.all Char.isDigit && n ≤ 0xFFFFFFFFFFFFFFFF then .ok n
  else .error .valueValidation

def parseBackend : String → Except Refusal Backend
  | "behavioral" => .ok .behavioral
  | "verilator" => .ok .verilator
  | _ => .error .invalidValue

namespace Options

/-- The options after a setting. A list of scenarios is split at its commas and added. -/
def assign (o : Options) (value : String) : Setting → Except Refusal Options
  | .scenario => pure { o with scenarios := o.scenarios ++ value.splitOn "," }
  | .seed => do pure { o with seed := ← parseNumber value }
  | .fuzzRequests => do pure { o with fuzzRequests := ← parseNumber value }
  | .backend => do pure { o with backend := ← parseBackend value }
  | .artifacts => pure { o with artifacts := value }
  | .trace => pure { o with trace := value }
  | .noTrace => pure { o with noTrace := true }

end Options

/-- The arguments read so far. -/
structure Reading where
  options : Options
  given : List Setting
  /-- A setting still to be judged, with its value if that has been read. -/
  held : Option (Setting × Option String)

namespace Reading

/-- Takes up a setting. Only scenarios may be given more than once, whatever the value. -/
def take (r : Reading) (setting : Setting) (value : String) : Except Refusal Reading := do
  if setting ≠ .scenario ∧ setting ∈ r.given then throw .argumentConflict
  let options ← r.options.assign value setting
  pure { r with options := options, given := setting :: r.given }

/-- Judges the setting held back. -/
def settle (r : Reading) : Except Refusal Reading :=
  match r.held with
  | none => pure r
  | some (_, none) => throw .invalidValue
  | some (setting, some value) => take { r with held := none } setting value

/-- A known option with the value written into the same argument, if any. -/
def option (r : Reading) (setting : Setting) (value : Option String) : Except Refusal Reading :=
  match setting, value with
  | .noTrace, some _ => throw .tooManyValues
  | .noTrace, none => do (← r.settle).take .noTrace ""
  | setting, some value => do (← r.settle).take setting value
  | setting, none => do pure { (← r.settle) with held := some (setting, none) }

def help (r : Reading) : Except Refusal Reading := do
  let _ ← r.settle
  throw .helpRequested

def argument (r : Reading) : Argument → Except Refusal Reading
  | .long "help" none => r.help
  | .long "help" (some _) => throw .tooManyValues
  | .long name value =>
    match Setting.ofName? name with
    | some setting => r.option setting value
    | none => throw .unknownArgument
  | .short 'h' => r.help
  | .plain text =>
    match r.held with
    | some (setting, none) => pure { r with held := some (setting, some text) }
    | _ => throw .unknownArgument
  | .short _ | .separator => throw .unknownArgument

/-- Nothing can follow a separator. -/
def arguments (r : Reading) : List String → Except Refusal Reading
  | [] => r.settle
  | s :: rest =>
    match Argument.ofString s, rest with
    | .separator, [] => r.settle
    | a, rest => do (← r.argument a).arguments rest

end Reading

def parse (arguments : List String) : Except Refusal Options := do
  let r ← Reading.arguments ⟨Options.default, [], none⟩ arguments
  pure r.options

end CrossbarBench.CommandLine
