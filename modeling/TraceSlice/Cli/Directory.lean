import TraceSlice.Cli.Run

/-!
# Running on files given as data

A `Directory` is a list of files, and a `Host` that runs the program without a system around it: files are those of
the directory, and output is collected.
-/

namespace TraceSlice.Cli

/-- A directory, and what has been written to the standard output. -/
structure Directory where
  /-- The files by name. -/
  files : List (String × String) := []
  /-- The standard output. -/
  output : String := ""
deriving DecidableEq, Repr

namespace Directory

/-! ### Paths -/

/-- Where a path leads from within the directory; `spot` follows it component by component. -/
inductive Spot where
  /-- To the directory itself. -/
  | here
  /-- To a directory above it, about whose files nothing is known. -/
  | above
  /-- To the name of a file in the directory. -/
  | entry (name : String)
  /-- To the name of a file in a directory above it. -/
  | stranger
  /-- Nowhere: on the way there is something that is no directory. -/
  | nowhere
deriving DecidableEq, Repr

/-- The longest name of a file, in bytes. -/
def maxNameSize : Nat := 255

/-- The longest path, in bytes. -/
def maxPathSize : Nat := 4095

/-- Takes one component of a path. Empty components and `.` stay in a directory, and `..` goes up; the top
has no directory above it but itself. Files have nothing below them. -/
def Spot.follow (spot : Spot) (component : List Char) : Spot :=
  let name := String.ofList component
  match spot with
  | .here =>
    if name = "" ∨ name = "." then .here
    else if name = ".." then .above
    else if maxNameSize < name.utf8ByteSize then .nowhere
    else .entry name
  | .above =>
    if name = "" ∨ name = "." ∨ name = ".." then .above
    else if maxNameSize < name.utf8ByteSize then .nowhere
    else .stranger
  | .entry _ | .stranger | .nowhere => .nowhere

/-- Where a path leads, by `Spot.follow`. A path that starts with a slash starts at the top. -/
def spot (path : String) : Spot :=
  if path.isEmpty ∨ maxPathSize < path.utf8ByteSize then .nowhere
  else
    let start : Spot := if path.toList.head? = some '/' then .above else .here
    (Text.pieces (· == '/') path.toList).foldl Spot.follow start

/-! ### Files -/

/-- Reads the file that `spot` leads to. A directory can be opened, but not read. -/
def read (directory : Directory) (path : String) : FileContent :=
  match spot path with
  | .entry name =>
    match directory.files.lookup name with
    | some text => .text text
    | none => .missing
  | .here | .above => .unreadable
  | .stranger | .nowhere => .missing

/-- Writes a file, if `spot` leads to one. What is written above the directory is not kept. -/
def write (directory : Directory) (path text : String) : Option Directory :=
  match spot path with
  | .entry name =>
    some { directory with
      files := (name, text) :: directory.files.filter fun file => file.1 != name }
  | .stranger => some directory
  | .here | .above | .nowhere => none

/-- The host that runs the program on a directory: `read` and `write` in the state. -/
def host : Host (StateM Directory) where
  read path := do return (← get).read path
  write path text := do
    match (← get).write path text with
    | some directory => set directory; return true
    | none => return false
  print text := modify fun directory => { directory with output := directory.output ++ text }

/-- `Cli.run` on a directory. -/
def run (directory : Directory) (args : List String) : Ending × Directory :=
  (Cli.run host args).run directory

end Directory

end TraceSlice.Cli
