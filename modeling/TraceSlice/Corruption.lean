/-!
# Kinds of memory corruption

The C library checks the heap and the stack for corruption and aborts when a check fails. Each kind of `Corruption` is
known by the function that reports it (`function`) and by the instruction that made the failed check (`trigger`), as
in the specification, §E10.
-/

namespace TraceSlice

/-- What was found corrupted. -/
inductive Corruption where
  /-- The allocator's bookkeeping. -/
  | heap
  /-- The canary of a stack frame. -/
  | stack
deriving DecidableEq, Repr

namespace Corruption

/-- The function that reports the corruption and aborts. -/
def function : Corruption → String
  | .heap => "__malloc_assert"
  | .stack => "__stack_chk_fail"

/-- The mnemonic of the check whose result led to the report. -/
def trigger : Corruption → String
  | .heap => "cmp"
  | .stack => "xor"

/-- The name of the corrupted region, as `blame` words it. -/
def region : Corruption → String
  | .heap => "heap"
  | .stack => "stack"

/-- The note put on the instruction that is to blame (`Reaction.blame`). -/
def blame (corruption : Corruption) : String :=
  "Cause of " ++ corruption.region ++ " corruption"

end Corruption

end TraceSlice
