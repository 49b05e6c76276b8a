import TraceSlice.Cli.Run

/-!
# The executable

Runs the command line program (`Cli.run`) on the files and the output of the system.
-/

namespace TraceSlice.Cli

/-- The content behind an open file. -/
def contentOf (handle : IO.FS.Handle) : IO FileContent := do
  try
    match String.fromUTF8? (← handle.readBinToEnd) with
    | some text => return .text text
    | none => return .unreadable
  catch _ => return .unreadable

/-- Reads a file of the system. -/
def readFile (path : String) : IO FileContent := do
  try
    let handle ← IO.FS.Handle.mk path .read
    contentOf handle
  catch _ => return .missing

/-- Writes a file of the system. -/
def writeFile (path text : String) : IO Bool := do
  try
    IO.FS.writeFile path text
    return true
  catch _ => return false

/-- The system as a `Host`: `readFile`, `writeFile` and the standard output. -/
def systemHost : Host IO where
  read := readFile
  write := writeFile
  print := IO.print

end TraceSlice.Cli

/-- Computes a backward slice over a recorded execution. -/
def main (args : List String) : IO UInt32 := do
  let ending ← TraceSlice.Cli.run TraceSlice.Cli.systemHost args
  IO.eprint ending.complaint
  return ending.exitCode.toUInt32
