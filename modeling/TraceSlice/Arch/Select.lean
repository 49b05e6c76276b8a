import TraceSlice.Arch.X64
import TraceSlice.Arch.X86

/-!
# The supported architectures

Names of architectures come from debuggers and recordings, which spell them in many ways; `ofName?` reads them
(specification, §E6). The case of ASCII letters does not matter. A name that mentions the 64-bit architecture anywhere
selects it, so `i386:x86-64` does.
-/

namespace TraceSlice

/-- A supported architecture. -/
inductive Arch where
  /-- 32-bit x86. -/
  | x86
  /-- 64-bit x86. -/
  | x64
deriving DecidableEq, Repr

namespace Arch

/-- What is known of an architecture: `x86Description` or `x64Description`. -/
def description : Arch → Description
  | .x86 => x86Description
  | .x64 => x64Description

/-- The architecture that a name selects. The 64-bit spellings are looked for first, since `i386:x86-64` starts like a
32-bit one. -/
def ofName? (name : String) : Option Arch :=
  let lowered := Text.lowered name
  if ["x86-64", "x86_64", "amd64"].any (Text.holds lowered) then some .x64
  else if ["i386", "i486", "i586", "i686"].any (Text.startsWith lowered) || lowered == "x86" then
    some .x86
  else none

end Arch

end TraceSlice
