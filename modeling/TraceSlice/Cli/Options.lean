import TraceSlice.Config
import TraceSlice.Text.Blank

/-!
# Command line options

Options are written `--name value`, `--name=value`, `-t value`, `-tvalue` or `-t=value`, and short flags may be
clustered. After `--` everything is positional. A separate value may not look like an option. Flags and options may be
given once, except `--track`. The only positional argument is the recording. `Options.ofArgs` reads a command line;
the options are those of the specification, §E11.
-/

namespace TraceSlice.Cli

/-- An option without a value. -/
inductive Flag where
  /-- Start at the crash. -/
  | crashed
  /-- Show each instruction as it is found. -/
  | step
  /-- Show the operands of instructions. -/
  | verbose
  /-- Track stack, frame and instruction pointers. -/
  | monitorStack
  /-- Write logs as JSON. -/
  | debugJson
  /-- Explain the usage. -/
  | help
  /-- Show the version. -/
  | version
deriving DecidableEq, Repr

/-- An option with a value. -/
inductive Setting where
  /-- An expression to track. -/
  | track
  /-- The number of the operand to follow. -/
  | follow
  /-- The file to save the slice in. -/
  | save
  /-- How much debug information to attach. -/
  | symbolLevel
  /-- The file with the configuration. -/
  | config
deriving DecidableEq, Repr

/-- Any option, a `Flag` or a `Setting`. -/
inductive Switch where
  /-- One without a value. -/
  | flag (flag : Flag)
  /-- One with a value. -/
  | setting (setting : Setting)
deriving DecidableEq, Repr

/-- The option with a long name. -/
def Switch.ofLong? : String → Option Switch
  | "crashed" => some (.flag .crashed)
  | "step" => some (.flag .step)
  | "verbose" => some (.flag .verbose)
  | "monitor-stack" => some (.flag .monitorStack)
  | "debug-json" => some (.flag .debugJson)
  | "help" => some (.flag .help)
  | "version" => some (.flag .version)
  | "track" => some (.setting .track)
  | "follow" => some (.setting .follow)
  | "save" => some (.setting .save)
  | "symbol-level" => some (.setting .symbolLevel)
  | "config" => some (.setting .config)
  | _ => none

/-- The option with a one-letter name. -/
def Switch.ofShort? : Char → Option Switch
  | 't' => some (.setting .track)
  | 'v' => some (.flag .verbose)
  | 'h' => some (.flag .help)
  | 'V' => some (.flag .version)
  | _ => none

/-- What a command line asks for, its values read. -/
structure Options where
  /-- The file with the recording. -/
  recording : String
  /-- Start at the crash? -/
  crashed : Bool := false
  /-- The expressions to track, in order. -/
  track : List String := []
  /-- The number of the operand to follow, from one on. -/
  follow : Option Nat := none
  /-- Show each instruction as it is found? -/
  step : Bool := false
  /-- The file to save the slice in. -/
  save : Option String := none
  /-- Show the operands of instructions? -/
  verbose : Bool := false
  /-- How much debug information to attach. -/
  symbolLevel : Option SymbolLevel := none
  /-- Track stack, frame and instruction pointers? -/
  monitorStack : Bool := false
  /-- The file with the configuration. -/
  config : Option String := none
deriving DecidableEq, Repr

/-- Why a command line asks for no slice. -/
inductive Refusal where
  /-- It is not understood. -/
  | usage
  /-- It asks for help. -/
  | help
  /-- It asks for the version. -/
  | version
deriving DecidableEq, Repr

/-- The arguments read so far; `finish` turns them into `Options`. -/
structure Parsing where
  /-- The flags given. -/
  flags : List Flag := []
  /-- The options given, with their values, in order. -/
  settings : List (Setting × String) := []
  /-- The positional argument. -/
  recording : Option String := none
  /-- The option that waits for its value. -/
  pending : Option Setting := none
  /-- Is everything positional from here on? -/
  trailing : Bool := false

/-- The number that a text denotes: decimal digits after an optional plus sign, within 64 bits. -/
def count? (s : String) : Option Nat :=
  let digits := if "+".toList.isPrefixOf s.toList then s.toList.drop 1 else s.toList
  if digits.all (Text.isDigitIn 10) && !digits.isEmpty && Text.valueOf 10 digits < UInt64.size then
    some (Text.valueOf 10 digits)
  else none

/-- Is the value one that the option takes? It is asked before anything runs. -/
def Setting.accepts (value : String) : Setting → Bool
  | .track => true
  | .follow => (count? value).isSome
  | .save | .config => !value.isEmpty
  | .symbolLevel => (SymbolLevel.ofWord? value).isSome

namespace Parsing

/-- The values given to `setting`, in order. -/
def valuesOf (p : Parsing) (setting : Setting) : List String :=
  (p.settings.filter fun entry => entry.1 == setting).map (·.2)

/-- Takes a flag. -/
def addFlag (p : Parsing) (flag : Flag) : Except Refusal Parsing :=
  if flag = .help then .error .help
  else if flag = .version then .error .version
  else if p.flags.contains flag then .error .usage
  else .ok { p with flags := p.flags ++ [flag] }

/-- Takes an option with its value. -/
def addSetting (p : Parsing) (setting : Setting) (value : String) : Except Refusal Parsing :=
  if !setting.accepts value then .error .usage
  else if setting ≠ .track ∧ !(p.valuesOf setting).isEmpty then .error .usage
  else .ok { p with settings := p.settings ++ [(setting, value)], pending := none }

/-- Takes a long option, which may have its value after `=` (`Switch.ofLong?`). -/
def addLong (p : Parsing) (text : List Char) : Except Refusal Parsing :=
  let (name, value) :=
    match Text.splitFirst? (· == '=') text with
    | some (name, value) => (name, some (String.ofList value))
    | none => (text, none)
  match Switch.ofLong? (String.ofList name), value with
  | some (.flag flag), none => p.addFlag flag
  | some (.setting setting), some value => p.addSetting setting value
  | some (.setting setting), none => .ok { p with pending := some setting }
  | _, _ => .error .usage

/-- Takes a cluster of short options (`Switch.ofShort?`). An option with a value takes the rest of the cluster,
without a leading `=`, or else the next argument. -/
def addShort (p : Parsing) : List Char → Except Refusal Parsing
  | [] => .ok p
  | letter :: rest =>
    match Switch.ofShort? letter with
    | some (.flag flag) =>
      match p.addFlag flag with
      | .ok p => addShort p rest
      | .error err => .error err
    | some (.setting setting) =>
      match rest with
      | [] => .ok { p with pending := some setting }
      | '=' :: value => p.addSetting setting (String.ofList value)
      | value => p.addSetting setting (String.ofList value)
    | none => .error .usage

/-- Takes a positional argument. -/
def addPositional (p : Parsing) (arg : String) : Except Refusal Parsing :=
  if p.recording.isSome || arg.isEmpty then .error .usage else .ok { p with recording := some arg }

/-- Takes one argument: `addLong`, `addShort`, `addPositional`, or the value that is `pending`. -/
def add (p : Parsing) (arg : String) : Except Refusal Parsing :=
  let plain : Except Refusal Parsing :=
    match p.pending with
    | some setting => p.addSetting setting arg
    | none => p.addPositional arg
  if p.trailing then plain
  else
    match arg.toList with
    | ['-', '-'] => if p.pending.isSome then .error .usage else .ok { p with trailing := true }
    | '-' :: '-' :: text => if p.pending.isSome then .error .usage else p.addLong text
    | ['-'] => plain
    | '-' :: text => if p.pending.isSome then .error .usage else p.addShort text
    | _ => plain

/-- The options given, once all arguments have been read. -/
def finish (p : Parsing) : Except Refusal Options :=
  match p.pending, p.recording with
  | none, some recording =>
    .ok
      { recording
        crashed := p.flags.contains .crashed
        track := p.valuesOf .track
        follow := (p.valuesOf .follow).head?.bind count?
        step := p.flags.contains .step
        save := (p.valuesOf .save).head?
        verbose := p.flags.contains .verbose
        symbolLevel := (p.valuesOf .symbolLevel).head?.bind SymbolLevel.ofWord?
        monitorStack := p.flags.contains .monitorStack
        config := (p.valuesOf .config).head? }
  | _, _ => .error .usage

end Parsing

/-- The options that a command line gives: `add` argument by argument, then `finish`. -/
def Options.ofArgs (args : List String) : Except Refusal Options :=
  match args.foldlM Parsing.add {} with
  | .ok p => p.finish
  | .error err => .error err

end TraceSlice.Cli
