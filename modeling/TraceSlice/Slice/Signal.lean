import TraceSlice.Text.Numeral

/-!
# Signals that end a program

A `Signal` decides how a crashed session is seeded (specification, §4.4).
-/

namespace TraceSlice

/-- A signal, by its number on Linux. -/
inductive Signal where
  /-- The program aborted. -/
  | abort
  /-- An access that the hardware cannot make. -/
  | bus
  /-- An access to memory that is not there. -/
  | segmentationFault
  /-- An arithmetic fault. -/
  | floatingPoint
  /-- Any other signal. -/
  | other (number : Int32)
deriving DecidableEq, Repr

namespace Signal

/-- The signal with a number; those that seeding does not know stay `other`. -/
def ofNumber (number : Int32) : Signal :=
  if number = 6 then .abort
  else if number = 7 then .bus
  else if number = 8 then .floatingPoint
  else if number = 11 then .segmentationFault
  else .other number

/-- The number of a signal: `ofNumber` the other way. -/
def toNumber : Signal → Int32
  | .abort => 6
  | .bus => 7
  | .floatingPoint => 8
  | .segmentationFault => 11
  | .other number => number

/-- The name of a signal as a `SeedReport` shows it. -/
def render : Signal → String
  | .abort => "SIGABRT"
  | .bus => "SIGBUS"
  | .segmentationFault => "SIGSEGV"
  | .floatingPoint => "SIGFPE"
  | .other number => "signal " ++ Text.signedDecimal number.toInt

end Signal

end TraceSlice
