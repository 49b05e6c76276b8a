/-!
# Machine words

Addresses, register values and counters are of type `Word`, 64 bits that wrap; memory is made of `Byte`s.
-/

namespace TraceSlice

/-- A 64-bit address or value. Arithmetic wraps. -/
abbrev Word := UInt64

/-- One byte of memory. -/
abbrev Byte := UInt8

/-- A byte seen as a word; `Word.lowByte` undoes it. -/
def Word.ofByte (b : Byte) : Word := UInt64.ofNat b.toNat

/-- The lowest eight bits of `w`. -/
def Word.lowByte (w : Word) : Byte := UInt8.ofNat w.toNat

/-- `n` as a word, if it fits 64 bits. The numerals and the recordings are read through it. -/
def Word.ofNat? (n : Nat) : Option Word :=
  if n < UInt64.size then some (UInt64.ofNat n) else none

/-- The two's complement reading of `w`, between `-2^63` and `2^63 - 1`. -/
def Word.toSigned (w : Word) : Int :=
  if w.toNat < 0x8000000000000000 then w.toNat else (w.toNat : Int) - UInt64.size

end TraceSlice
