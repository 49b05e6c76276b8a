import TraceSlice.Cli.Options
import TraceSlice.Recording.Replay
import TraceSlice.Session.Drive

/-!
# The command line program

`run` reads a configuration and a recording, tracks what it was asked to, walks back, and shows the slice
(specification, §E11). It is written over a `Host`, which provides files and output, so that it can run on a real
system as well as on files given as data (`Cli.Directory`).
-/

namespace TraceSlice.Cli

/-- What reading a file comes to. -/
inductive FileContent where
  /-- The file cannot be opened. -/
  | missing
  /-- The file can be opened, but holds no text. -/
  | unreadable
  /-- The file's text. -/
  | text (text : String)
deriving DecidableEq, Repr

/-- What the program needs from the system it runs on; `m` is where its effects happen. -/
structure Host (m : Type → Type) where
  /-- Reads a file. -/
  read : String → m FileContent
  /-- Writes a file, and tells whether that succeeded. -/
  write : String → String → m Bool
  /-- Writes to the standard output. -/
  print : String → m Unit

/-- How the program ended. -/
inductive Ending where
  /-- All went well. -/
  | success
  /-- It failed, for the given reason. -/
  | failure (reason : String)
  /-- The command line asked for no slice. -/
  | refused (refusal : Refusal)
deriving DecidableEq, Repr

/-- The exit code of the program. -/
def Ending.exitCode : Ending → UInt8
  | .success | .refused .help | .refused .version => 0
  | .failure _ => 1
  | .refused .usage => 2

/-- What the program says on the standard error output. -/
def Ending.complaint : Ending → String
  | .failure reason => "Error: " ++ reason ++ "\n"
  | .refused _ => "Usage: [OPTIONS] <RECORDING>\n"
  | .success => ""

/-- Puts the options of the command line above those of a configuration file. -/
def Options.override (options : Options) (config : Config) : Config :=
  { config with
    symbolLevel := options.symbolLevel.getD config.symbolLevel
    monitorStack := config.monitorStack || options.monitorStack }

/-- The configuration that a file holds (`Config.parse?`), or what is wrong with the file. -/
def configOf (path : String) : FileContent → Except String Config
  | .missing => .error ("failed to open config " ++ path)
  | .unreadable => .error ("failed to parse config " ++ path)
  | .text text =>
    match Config.parse? text with
    | some config => .ok config
    | none => .error ("failed to parse config " ++ path)

/-- The replay of the recording that a file holds (`Replay.ofText`), or what is wrong with the file. -/
def replayOf (path : String) : FileContent → Except String Replay
  | .text text =>
    match Replay.ofText text with
    | .ok replay => .ok replay
    | .error _ => .error ("failed to load " ++ path)
  | _ => .error ("failed to load " ++ path)

/-- Starts a slicer as the options ask: `Slicer.crashed` or `Slicer.start`. -/
def Options.start (options : Options) (replay : Replay) (config : Config) :
    Except String (Slicer Replay) :=
  if options.crashed then
    match Slicer.crashed replay .bundled config with
    | .ok (slicer, _) => .ok slicer
    | .error _ => .error "failed to start a crashed session"
  else
    match Slicer.start replay .bundled config with
    | .ok slicer => .ok slicer
    | .error _ => .error "failed to start a session"

/-- Tracks an expression (`addExpression`); a refusal ends the program. -/
def trackExpression (session : Session Replay) (expression : String) : Except String (Session Replay) :=
  match session.addExpression expression with
  | (session, .ok _) => .ok session
  | (_, .error _) => .error ("failed to track `" ++ expression ++ "`")

/-- Follows the operand with a number, from one on (`setFollowed`). -/
def followOperand (session : Session Replay) : Option Nat → Except String (Session Replay)
  | none => .ok session
  | some 0 => .error "operand indices start at 1"
  | some (index + 1) =>
    match session.slice.setFollowed (some index) with
    | (slice, .ok ()) => .ok { session with slice }
    | (_, .error _) => .error ("cannot follow operand " ++ Text.decimal (index + 1))

/-- The slicer before the first walk: `Options.start`, `trackExpression` for each expression, `followOperand`. -/
def Options.prepare (options : Options) (replay : Replay) (config : Config) :
    Except String (Slicer Replay) :=
  match options.start replay config with
  | .error reason => .error reason
  | .ok slicer =>
    match options.track.foldlM trackExpression slicer.session with
    | .error reason => .error reason
    | .ok session =>
      match followOperand session options.follow with
      | .error reason => .error reason
      | .ok session => .ok { slicer with session }

/-- The lines that report one walk (`Stage`). -/
def renderStage (verbose : Bool) (stage : Stage) : String :=
  stage.outcome.render ++ "\n" ++
    match stage.found with
    | some insn => insn.render verbose ++ "\n"
    | none => ""

/-- Everything a run shows, and what it ends with: the reason why it failed, or the text of the slice to
be saved. -/
structure Report where
  /-- The text for the standard output. -/
  shown : String
  /-- The text of the slice, or why there is none. -/
  slice : Except String String

/-- Walks back (`Slicer.drive`) and reports. -/
def Options.report (options : Options) (slicer : Slicer Replay) (hide : Bool) : Report :=
  let done := slicer.drive (if options.step then .step else .run)
  let shown := slicer.session.slice.operandListing ++
    String.join (done.stages.map (renderStage options.verbose))
  match done.failure with
  | some _ => ⟨shown, .error "slice failed"⟩
  | none =>
    let session := done.slicer.session
    ⟨shown ++ session.slice.instructionListing 1 none options.verbose hide, .ok session.saved⟩

/-- The configuration of a run: that of the file the options name, with the options put above it. -/
def Options.loadConfig {m : Type → Type} [Monad m] (options : Options) (host : Host m) :
    m (Except String Config) := do
  match options.config with
  | none => return .ok (options.override {})
  | some path =>
    match configOf path (← host.read path) with
    | .ok config => return .ok (options.override config)
    | .error reason => return .error reason

/-- Shows a report and saves the slice (`Session.saved`), if the options ask for it. -/
def Options.deliver {m : Type → Type} [Monad m] (options : Options) (host : Host m) (report : Report) :
    m Ending := do
  host.print report.shown
  match report.slice, options.save with
  | .error reason, _ => return .failure reason
  | .ok _, none => return .success
  | .ok text, some path =>
    if ← host.write path text then return .success
    else return .failure ("failed to save slice to " ++ path)

/-- Runs the program with the given arguments: the options, `Options.loadConfig`, `Options.prepare`, `Options.report`
and `Options.deliver`. -/
def run {m : Type → Type} [Monad m] (host : Host m) (args : List String) : m Ending := do
  match Options.ofArgs args with
  | .error refusal => return .refused refusal
  | .ok options =>
    match ← options.loadConfig host with
    | .error reason => return .failure reason
    | .ok config =>
      match replayOf options.recording (← host.read options.recording) with
      | .error reason => return .failure reason
      | .ok replay =>
        match options.prepare replay config with
        | .error reason => return .failure reason
        | .ok slicer => options.deliver host (options.report slicer config.hideFrameInstructions)

end TraceSlice.Cli
