import TraceSlice.Arch.Basic
import TraceSlice.Hook

/-!
# Operands

An `Operand` is one value that an instruction reads or writes: a register, one byte of memory, or an immediate
(specification, §3). What makes two operands *the same* (`same`) is the storage they name, its `Place`: registers by
their group, memory by its address. An immediate has no place, so it is never the same as anything, not even as
itself, and can neither be tracked nor matched.
-/

namespace TraceSlice

/-- Where the value of an `Operand` lives. -/
inductive Location where
  /-- In a register. -/
  | register (register : Register)
  /-- In one byte of memory. -/
  | memory (address : Word)
  /-- In the instruction itself. -/
  | immediate
deriving DecidableEq, Repr

/-- A piece of storage: a register group, by its `canonical` name, or one byte of memory. -/
inductive Place where
  /-- A register group. -/
  | group (canonical : String)
  /-- One byte of memory. -/
  | byte (address : Word)
deriving DecidableEq, Repr

/-- The storage a location names; an immediate names none. -/
def Location.place? : Location → Option Place
  | .register r => some (.group r.group.canonical)
  | .memory address => some (.byte address)
  | .immediate => none

/-- A value that an instruction reads or writes, with the `Hook` that may be attached to it. -/
structure Operand where
  /-- Where the value lives. -/
  location : Location
  /-- The value before the instruction runs. -/
  value : Word
  /-- Is it a register that is read to form a memory address? -/
  isMemoryAccess : Bool := false
  /-- The name of the variable it belongs to. -/
  symbol : Option String := none
  /-- The hook attached to it. -/
  hook : Option Hook := none
deriving DecidableEq, Repr

namespace Operand

/-! ### Building operands -/

/-- A register operand. -/
def ofRegister (register : Register) (value : Word) : Operand :=
  { location := .register register, value }

/-- A register that is read to form a memory address; `isMemoryAccess` marks it, which the seeding of a crash looks
for. -/
def addressRegister (register : Register) (value : Word) : Operand :=
  { location := .register register, value, isMemoryAccess := true }

/-- One byte of memory. -/
def ofMemory (address : Word) (value : Byte) : Operand :=
  { location := .memory address, value := Word.ofByte value }

/-- An immediate. -/
def ofImmediate (value : Word) : Operand := { location := .immediate, value }

/-! ### Views -/

/-- The storage the operand names. Every comparison of operands goes through it. -/
def place? (operand : Operand) : Option Place := operand.location.place?

/-- The register, if it is one. -/
def register? (operand : Operand) : Option Register :=
  match operand.location with
  | .register register => some register
  | _ => none

/-- The address, if it is a byte of memory. -/
def address? (operand : Operand) : Option Word :=
  match operand.location with
  | .memory address => some address
  | _ => none

/-- Is it a register? -/
def isRegister (operand : Operand) : Bool := operand.register?.isSome

/-- Is it a byte of memory? -/
def isMemory (operand : Operand) : Bool := operand.address?.isSome

/-- Is it an immediate? -/
def isImmediate (operand : Operand) : Bool := operand.place?.isNone

/-- Do two operands name the same storage? See `same_iff`. -/
def same (a b : Operand) : Bool :=
  match a.place?, b.place? with
  | some p, some q => p == q
  | _, _ => false

/-- Does a list hold an operand that is the `same`? -/
def isIn (operand : Operand) (operands : List Operand) : Bool :=
  operands.any fun other => other.same operand

/-! ### Text -/

/-- The operand as listings show it: its name or address, its value, and the variable it belongs to. -/
def render (operand : Operand) : String :=
  let value := Text.hex operand.value
  let place :=
    match operand.location with
    | .register register => "$" ++ register.name ++ ":" ++ value
    | .memory address => Text.hex address ++ ":" ++ value
    | .immediate => value
  match operand.symbol with
  | some symbol => place ++ " // " ++ symbol
  | none => place

/-! ### Small lemmas -/

@[simp] theorem place?_ofRegister (r : Register) (v : Word) :
    (ofRegister r v).place? = some (.group r.group.canonical) := rfl

@[simp] theorem place?_addressRegister (r : Register) (v : Word) :
    (addressRegister r v).place? = some (.group r.group.canonical) := rfl

@[simp] theorem place?_ofMemory (a : Word) (b : Byte) : (ofMemory a b).place? = some (.byte a) := rfl

@[simp] theorem place?_ofImmediate (v : Word) : (ofImmediate v).place? = none := rfl

/-- Two operands are the `same` exactly if they have one place in common. -/
theorem same_iff {a b : Operand} : a.same b = true ↔ ∃ p, a.place? = some p ∧ b.place? = some p := by
  unfold same
  split
  · next p q hp hq =>
    rw [hp, hq, beq_iff_eq]
    exact ⟨fun h => ⟨p, rfl, by rw [h]⟩, fun ⟨r, hr, hs⟩ => by simp_all⟩
  · next h =>
    simp only [Bool.false_eq_true, false_iff, not_exists, not_and]
    exact fun p hp hq => h p p hp hq

theorem same_comm (a b : Operand) : a.same b = b.same a := by
  rw [Bool.eq_iff_iff, same_iff, same_iff]
  exact ⟨fun ⟨p, ha, hb⟩ => ⟨p, hb, ha⟩, fun ⟨p, hb, ha⟩ => ⟨p, ha, hb⟩⟩

end Operand

end TraceSlice
