import TraceSlice.Word

/-!
# Recordings

A `Recording` lists the executed instructions, oldest first, each with the register values observed before it ran and
the bytes it wrote (`Step`), together with what is known of the process as a whole (`Process`). The register values of a
step are a map: `Registers` carries the proof that no register has two.
-/

namespace TraceSlice

-- A default that is a named fact makes every empty map the same term.
theorem Registers.nodup_nil : (([] : List (String × Word)).map Prod.fst).Nodup := List.Pairwise.nil

/-- Register values by name. -/
structure Registers where
  /-- The values, each after the name of its register. -/
  entries : List (String × Word) := []
  /-- No register has two values. -/
  distinct : (entries.map Prod.fst).Nodup := by exact Registers.nodup_nil
deriving DecidableEq, Repr

namespace Registers

/-- Maps with the same `entries` are the same. -/
theorem ext : ∀ {registers others : Registers}, registers.entries = others.entries → registers = others
  | ⟨_, _⟩, ⟨_, _⟩, rfl => rfl

/-- The names of the registers that have a value. -/
def names (registers : Registers) : List String := registers.entries.map Prod.fst

/-- The value of a register. -/
def get? (registers : Registers) (name : String) : Option Word := registers.entries.lookup name

/-- Puts a value into a list of entries, in place of the one that stands there under its name; `set` is this on maps.
-/
def put : List (String × Word) → String → Word → List (String × Word)
  | [], name, value => [(name, value)]
  | entry :: rest, name, value =>
    if entry.1 = name then (name, value) :: rest else entry :: put rest name value

theorem mem_names_put {entries : List (String × Word)} {name other : String} {value : Word}
    (h : other ∈ (put entries name value).map Prod.fst) : other = name ∨ other ∈ entries.map Prod.fst := by
  induction entries with
  | nil => exact .inl (by simpa [put] using h)
  | cons entry rest ih =>
    rw [put] at h
    split at h
    · next heq =>
      rw [List.map_cons, List.mem_cons] at h
      exact h.imp_right (List.mem_cons_of_mem _)
    · rw [List.map_cons, List.mem_cons] at h
      obtain rfl | h := h
      · exact .inr List.mem_cons_self
      · exact (ih h).imp_right (List.mem_cons_of_mem _)

theorem nodup_put {entries : List (String × Word)} (h : (entries.map Prod.fst).Nodup) (name : String) (value : Word) :
    ((put entries name value).map Prod.fst).Nodup := by
  induction entries with
  | nil => simp [put]
  | cons entry rest ih =>
    rw [List.map_cons, List.nodup_cons] at h
    rw [put]
    split
    · next heq => exact List.nodup_cons.mpr ⟨heq ▸ h.1, h.2⟩
    · next hne =>
      refine List.nodup_cons.mpr ⟨fun hmem => ?_, ih h.2⟩
      obtain heq | hmem := mem_names_put hmem
      · exact hne heq
      · exact h.1 hmem

/-- Gives a register a value, in place of the one it has. -/
def set (registers : Registers) (name : String) (value : Word) : Registers :=
  ⟨put registers.entries name value, nodup_put registers.distinct name value⟩

/-- Register values from a list in which a later value wins (`set`). -/
def ofList (entries : List (String × Word)) : Registers :=
  entries.foldl (fun registers entry => registers.set entry.1 entry.2) {}

theorem put_of_notMem {entries : List (String × Word)} {name : String} (h : name ∉ entries.map Prod.fst)
    (value : Word) : put entries name value = entries ++ [(name, value)] := by
  induction entries with
  | nil => rfl
  | cons entry rest ih =>
    rw [List.map_cons, List.mem_cons, not_or] at h
    rw [put, if_neg (Ne.symm h.1), ih h.2, List.cons_append]

/-- `set` appends as long as the registers that have a value and those still to come are all distinct. -/
theorem entries_foldl_set {entries : List (String × Word)} {registers : Registers}
    (h : ((registers.entries ++ entries).map Prod.fst).Nodup) :
    (entries.foldl (fun registers entry => registers.set entry.1 entry.2) registers).entries =
      registers.entries ++ entries := by
  induction entries generalizing registers with
  | nil => simp
  | cons entry rest ih =>
    have hnew : entry.1 ∉ registers.entries.map Prod.fst := by
      rw [List.map_append, List.nodup_append] at h
      exact fun hmem => h.2.2 _ hmem _ (by simp) rfl
    have hset : (registers.set entry.1 entry.2).entries = registers.entries ++ [entry] := put_of_notMem hnew _
    rw [List.foldl_cons, ih (by simpa [hset] using h), hset]
    simp

/-- `ofList` on the entries of a map gives the map back. -/
@[simp] theorem ofList_entries (registers : Registers) : ofList registers.entries = registers := by
  have hentries : (ofList registers.entries).entries = registers.entries := by
    have hnodup : ((({} : Registers).entries ++ registers.entries).map Prod.fst).Nodup := registers.distinct
    exact entries_foldl_set hnodup
  exact ext hentries

end Registers

/-- A named range of addresses, its end excluded. -/
structure Symbol where
  /-- The name. -/
  name : String
  /-- The first address. -/
  first : Word
  /-- The address after the last. -/
  finish : Word
deriving DecidableEq, Repr

/-- Does the symbol cover the address? Its end is excluded, as `Symbol` says. -/
def Symbol.covers (symbol : Symbol) (address : Word) : Bool :=
  symbol.first ≤ address && address < symbol.finish

/-- One entry of a call stack. -/
structure Frame where
  /-- The function that was called. -/
  function : String := ""
  /-- The file it comes from. -/
  file : String := ""
deriving DecidableEq, Repr

/-- One executed instruction. -/
structure Step where
  /-- Its address. -/
  pc : Word := 0
  /-- Its text. -/
  asm : String := ""
  /-- Register values before it ran. A register that is not named keeps its value. -/
  registers : Registers := {}
  /-- The bytes it wrote; a later write wins. -/
  writes : List (Word × Byte) := []
  /-- The source file it comes from; empty if not known. -/
  file : String := ""
  /-- The line in that file. -/
  line : UInt32 := 0
  /-- The call stack, innermost first. -/
  frames : List Frame := []
deriving DecidableEq, Repr

/-- What is known of the process as a whole. -/
structure Process where
  /-- The name of its architecture. -/
  archName : String
  /-- The signal that ended it. -/
  signal : Option Int32 := none
  /-- The executable address ranges, their ends excluded. -/
  executable : List (Word × Word) := []
  /-- Names of address ranges. -/
  symbols : List Symbol := []
  /-- The memory before the first step; a later entry wins. -/
  memory : List (Word × Byte) := []
deriving DecidableEq, Repr

/-- The recording of an execution: a `Process` and its steps, oldest first. -/
structure Recording extends Process where
  /-- The executed instructions, oldest first. -/
  steps : List Step
deriving DecidableEq, Repr

end TraceSlice
