import TraceSlice.Arch.Select
import TraceSlice.Decode.Basic
import TraceSlice.Proofs.Places

/-!
# Decoded operands

Decoding makes operands in a few places only: a named register, a register inside an address, a byte of memory, an
immediate. Each of them is **faithful** (`Use.Faithful`) to the machine it was decoded on, and every effect puts
faithful uses together (`uses_faithful`), so all operands of a decoded instruction are faithful (`decode_faithful`).
What the rest of the development takes from this is that decoded operands carry no hooks, and that their registers are
those of the architecture. For the latter, the place alone tells which registers are pointers
(`Arch.canonical_mem_pointerNames`).
-/

namespace TraceSlice

open Decode

/-- A use that tells the truth about the machine it was decoded on. -/
structure Use.Faithful (arch : Description) (view : View) (use : Use) : Prop where
  /-- No hook is attached to the operand. -/
  hook : use.operand.hook = none
  /-- A register is one of the architecture's and has its value on the machine. -/
  register : ∀ r, use.operand.register? = some r →
    r ∈ arch.allRegisters ∧
      use.operand.value =
        if use.operand.isMemoryAccess then addressValue arch view r
        else view.evaluate (registerExpression r.name)
  /-- A byte of memory has its value on the machine. -/
  memory : ∀ a, use.operand.address? = some a → use.operand.value = Word.ofByte (view.byte a)
  /-- Only registers that are read form addresses. -/
  access : use.operand.isMemoryAccess = true →
    use.operand.isRegister = true ∧ use.direction = .source

/-- Uses all of which are `Use.Faithful` to the machine of a context. -/
def Decode.Context.Faithful (ctx : Context) (uses : List Use) : Prop :=
  ∀ use ∈ uses, use.Faithful ctx.arch ctx.view

/-! ### Registers at the head of a text -/

namespace Description

theorem longer_eq {best : Option Register} {register r : Register}
    (h : longer best register = some r) : r = register ∨ best = some r := by
  unfold longer at h
  cases best with
  | none =>
      simp only [Option.some.injEq] at h
      exact Or.inl h.symm
  | some other =>
      dsimp only at h
      split at h
      · simp only [Option.some.injEq] at h
        exact Or.inl h.symm
      · exact Or.inr h

theorem foldl_longer_mem {registers : List Register} {best : Option Register} {r : Register}
    (h : registers.foldl longer best = some r) : r ∈ registers ∨ best = some r := by
  induction registers generalizing best with
  | nil => exact Or.inr h
  | cons register rest ih =>
      rcases ih h with hmem | hbest
      · exact Or.inl (List.mem_cons_of_mem _ hmem)
      · rcases longer_eq hbest with rfl | hbest
        · exact Or.inl List.mem_cons_self
        · exact Or.inr hbest

theorem registerAtHead?_mem {arch : Description} {text : List Char} {r : Register}
    (h : arch.registerAtHead? text = some r) : r ∈ arch.allRegisters := by
  rcases foldl_longer_mem h with hmem | hnone
  · exact (List.mem_filter.mp hmem).1
  · exact absurd hnone (by simp)

theorem register?_mem {arch : Description} {name : String} {r : Register}
    (h : arch.register? name = some r) : r ∈ arch.allRegisters ∧ r.name = name :=
  ⟨List.mem_of_find?_eq_some h, by simpa using List.find?_some h⟩

theorem group_mem_of_mem {arch : Description} {r : Register} (h : r ∈ arch.allRegisters) :
    r.group ∈ arch.registers := by
  unfold allRegisters at h
  obtain ⟨group, hgroup, hr⟩ := List.mem_flatMap.mp h
  obtain ⟨name, -, rfl⟩ := List.mem_map.mp hr
  exact hgroup

/-! ### Pointers are known by their canonical names -/

/-- The canonical names of the stack, frame and instruction pointers. -/
def pointerNames (arch : Description) : List String :=
  [arch.stackPointer, arch.framePointer, arch.instructionPointer]

/-- A group that goes by the name of a pointer holds it (`isPointerGroup`), whatever its other names are. -/
theorem isPointerGroup_of_canonical {arch : Description} {group : RegisterGroup}
    (h : group.canonical ∈ arch.pointerNames) : arch.isPointerGroup group = true := by
  have hcontains : group.contains group.canonical = true := by
    simp [RegisterGroup.contains, RegisterGroup.names]
  unfold isPointerGroup
  simp only [pointerNames, List.mem_cons, List.not_mem_nil, or_false] at h
  rcases h with h | h | h <;> rw [← h, hcontains] <;> simp

end Description

/-- Among the groups of an architecture, those that hold a pointer go by its name (`pointerNames`). -/
theorem Arch.canonical_mem_pointerNames (arch : Arch) {group : RegisterGroup}
    (hmem : group ∈ arch.description.registers)
    (h : arch.description.isPointerGroup group = true) :
    group.canonical ∈ arch.description.pointerNames := by
  have htable : ∀ g ∈ arch.description.registers, arch.description.isPointerGroup g = true →
      g.canonical ∈ arch.description.pointerNames := by
    cases arch <;> decide
  exact htable group hmem h

namespace Decode

/-- A piece that `head` reads holds no register but the architecture's. -/
theorem head_register_mem {arch : Description} {c : Char} {rest : List Char} {r : Register}
    {size : Nat} (h : head arch c rest = .piece (.register r) size) : r ∈ arch.allRegisters := by
  unfold head at h
  split at h
  · cases h
  · split at h
    · cases h
    · split at h
      · split at h <;> cases h
      · split at h
        · split at h <;> cases h
        · unfold registerHead at h
          split at h
          · cases h
          · split at h
            · next hr =>
                cases h
                exact Description.registerAtHead?_mem hr
            · cases h

/-- Every register inside an addressing expression is one of the architecture's. -/
theorem pieces_registers_mem (arch : Description) (cs : List Char) :
    ∀ r ∈ (pieces arch cs).registers, r ∈ arch.allRegisters := by
  induction cs using pieces.induct arch with
  | case1 => simp [pieces, Pieces.registers]
  | case2 c rest hhead => simp [pieces, hhead, Pieces.registers]
  | case3 c rest size hhead ih =>
      rw [pieces, hhead]
      exact ih
  | case4 c rest piece size hhead ih =>
      intro r hr
      rw [pieces, hhead] at hr
      cases piece with
      | text chars => exact ih r (by simpa [Pieces.cons, Pieces.registers, Piece.register?] using hr)
      | register r' =>
          simp only [Pieces.cons, Pieces.registers, List.filterMap_cons, Piece.register?,
            List.mem_cons] at hr
          rcases hr with rfl | hr
          · exact head_register_mem hhead
          · exact ih r hr

end Decode

namespace Decode.Context

variable (ctx : Context)

/-! ### Putting faithful uses together -/

theorem faithful_nil : ctx.Faithful [] := by
  intro use huse
  exact absurd huse List.not_mem_nil

variable {ctx}

theorem Faithful.append {uses more : List Use} (h : ctx.Faithful uses) (hmore : ctx.Faithful more) :
    ctx.Faithful (uses ++ more) := by
  intro use huse
  rcases List.mem_append.mp huse with huse | huse
  · exact h use huse
  · exact hmore use huse

theorem faithful_flatMap {α : Type} {items : List α} {f : α → List Use}
    (h : ∀ item ∈ items, ctx.Faithful (f item)) : ctx.Faithful (items.flatMap f) := by
  intro use huse
  obtain ⟨item, hitem, huse⟩ := List.mem_flatMap.mp huse
  exact h item hitem use huse

theorem faithful_ite {p : Prop} [Decidable p] {uses more : List Use} (h : ctx.Faithful uses)
    (hmore : ctx.Faithful more) : ctx.Faithful (if p then uses else more) := by
  split
  · exact h
  · exact hmore

variable (ctx)

/-! ### Arguments -/

theorem immediate_faithful (direction : Direction) (value : Word) :
    ctx.Faithful [⟨direction, .ofImmediate value⟩] := by
  intro use huse
  rw [List.mem_singleton] at huse
  subst huse
  exact ⟨rfl, nofun, nofun, nofun⟩

theorem register_faithful (name : String) (direction : Direction) :
    ctx.Faithful (ctx.register name direction) := by
  unfold register registerOperand?
  cases hr : ctx.arch.register? name with
  | none => exact faithful_nil ctx
  | some r =>
      intro use huse
      simp only [Option.map_some, List.mem_singleton] at huse
      subst huse
      refine ⟨rfl, ?_, nofun, nofun⟩
      intro r' hr'
      cases hr'
      exact ⟨(Description.register?_mem hr).1, rfl⟩

theorem addressUses_faithful {scan : Pieces}
    (h : ∀ r ∈ scan.registers, r ∈ ctx.arch.allRegisters) :
    ctx.Faithful (addressUses ctx.arch ctx.view scan) := by
  intro use huse
  obtain ⟨r, hr, rfl⟩ := List.mem_map.mp huse
  refine ⟨rfl, ?_, nofun, fun _ => ⟨rfl, rfl⟩⟩
  intro r' hr'
  cases hr'
  exact ⟨h r hr, rfl⟩

theorem byteUses_faithful (base : Word) (width : Nat) (direction : Direction) :
    ctx.Faithful (byteUses ctx.view base width direction) := by
  intro use huse
  obtain ⟨offset, -, rfl⟩ := List.mem_map.mp huse
  refine ⟨rfl, nofun, ?_, nofun⟩
  intro a ha
  cases ha
  rfl

theorem memory_faithful (text : List Char) (width : Nat) (direction : Direction) :
    ctx.Faithful (ctx.memory text width direction) := by
  have haddress := addressUses_faithful ctx (pieces_registers_mem ctx.arch (addressBody text))
  unfold memory memoryUses
  exact faithful_ite (haddress.append (byteUses_faithful ctx _ width direction)) haddress

theorem scalar_faithful (text : List Char) (direction : Direction) :
    ctx.Faithful (ctx.scalar text direction) := by
  unfold scalar
  split
  · split
    · exact immediate_faithful ctx direction _
    · exact faithful_nil ctx
  · split
    · exact immediate_faithful ctx direction 0
    · exact register_faithful ctx _ direction

theorem argument_faithful (text : List Char) (direction : Direction) :
    ctx.Faithful (ctx.argument text direction) := by
  unfold argument
  dsimp only
  split
  · exact faithful_nil ctx
  · split
    · exact faithful_nil ctx
    · split
      · exact memory_faithful ctx _ _ direction
      · split
        · exact memory_faithful ctx _ _ direction
        · exact scalar_faithful ctx _ direction

theorem argumentAt_faithful (args : Arguments) (index : Nat) (direction : Direction) :
    ctx.Faithful (ctx.argumentAt args index direction) := by
  unfold argumentAt
  split
  · exact argument_faithful ctx _ direction
  · exact faithful_nil ctx

theorem shape_faithful (args : Arguments) (directions : List Direction) :
    ctx.Faithful (ctx.shape args directions) := by
  induction args generalizing directions with
  | nil => exact faithful_nil ctx
  | cons text rest ih =>
      cases directions with
      | nil => exact faithful_nil ctx
      | cons direction directions =>
          exact (argument_faithful ctx text direction).append (ih directions)

/-! ### Effects -/

theorem stackSlot_faithful (offset : Int) (width : Nat) (direction : Direction) :
    ctx.Faithful (ctx.stackSlot offset width direction) :=
  memory_faithful ctx _ width direction

theorem indirect_faithful (register : String) (width : Nat) (direction : Direction) :
    ctx.Faithful (ctx.indirect register width direction) :=
  memory_faithful ctx _ width direction

theorem pushAll_faithful (slot : Nat) : ctx.Faithful (ctx.pushAll slot) := by
  refine Faithful.append (faithful_flatMap ?_) (register_faithful ctx _ _)
  rintro ⟨register, index⟩ -
  exact (stackSlot_faithful ctx _ slot _).append (register_faithful ctx register _)

theorem popAll_faithful (slot : Nat) : ctx.Faithful (ctx.popAll slot) := by
  refine Faithful.append (faithful_flatMap ?_) (register_faithful ctx _ _)
  rintro ⟨register, index⟩ -
  exact (stackSlot_faithful ctx _ slot _).append
    (faithful_ite (faithful_nil ctx) (register_faithful ctx register _))

theorem stringArguments_faithful (args : Arguments) (op : StringOp) :
    ctx.Faithful (ctx.stringArguments args op) := by
  cases op <;> exact shape_faithful ctx args _

theorem stringDefaults_faithful (width : Nat) (op : StringOp) :
    ctx.Faithful (ctx.stringDefaults width op) := by
  cases op with
  | move => exact (indirect_faithful ctx _ _ _).append (indirect_faithful ctx _ _ _)
  | store => exact (indirect_faithful ctx _ _ _).append (register_faithful ctx _ _)
  | load => exact (indirect_faithful ctx _ _ _).append (register_faithful ctx _ _)
  | scan => exact (register_faithful ctx _ _).append (indirect_faithful ctx _ _ _)
  | compare => exact (indirect_faithful ctx _ _ _).append (indirect_faithful ctx _ _ _)

theorem string_faithful (args : Arguments) (op : StringOp) (width : Option Nat) :
    ctx.Faithful (ctx.string args op width) := by
  unfold string
  split
  · split
    · exact shape_faithful ctx args _
    · exact shape_faithful ctx args _
  · have hindex : ∀ (used : Bool) (name : String),
        ctx.Faithful (if used then ctx.register name .both else []) :=
      fun used name => faithful_ite (register_faithful ctx name .both) (faithful_nil ctx)
    refine Faithful.append (Faithful.append ?_ (hindex _ _)) (hindex _ _)
    exact faithful_ite (stringDefaults_faithful ctx _ op) (stringArguments_faithful ctx args op)

theorem returnUses_faithful (slots : Nat) : ctx.Faithful (ctx.returnUses slots) := by
  refine Faithful.append ((register_faithful ctx _ _).append (register_faithful ctx _ _)) ?_
  exact faithful_flatMap fun index _ => stackSlot_faithful ctx _ _ _

theorem syscall_faithful (lastReturn : Word) : ctx.Faithful (ctx.syscall lastReturn).uses := by
  have hbuffer : ∀ (p : Prop) [Decidable p], ctx.Faithful
      (if p then ctx.indirect ctx.arch.readBuffer lastReturn.toNat .destination else []) :=
    fun p _ => faithful_ite (indirect_faithful ctx _ _ _) (faithful_nil ctx)
  unfold syscall
  dsimp only
  split
  · exact hbuffer _
  · refine Faithful.append ((hbuffer _).append (register_faithful ctx _ _)) ?_
    exact faithful_flatMap fun name _ => register_faithful ctx name .source

/-- Every effect but a system call uses faithful operands: one case for each effect. -/
theorem uses_faithful (args : Arguments) (effect : Effect) : ctx.Faithful (ctx.uses args effect) := by
  have hreg := register_faithful ctx
  have harg := argumentAt_faithful ctx args
  have hshape := shape_faithful ctx args
  have hslot := stackSlot_faithful ctx
  cases effect with
  | shape directions => exact hshape directions
  -- equal sources make it a plain write; otherwise its arguments are read as their shape says
  | selfClearing =>
      delta uses
      dsimp only
      split
      · exact faithful_ite (argument_faithful ctx _ _) (hshape _)
      · exact faithful_ite (argument_faithful ctx _ _) (hshape _)
      · exact hshape _
  | loadAddress =>
      refine (harg 0 .destination).append ?_
      split
      · exact memory_faithful ctx _ 0 .source
      · exact faithful_nil ctx
  | blend masked =>
      refine (hshape [.both, .source]).append ?_
      split
      · split
        · exact argument_faithful ctx _ .source
        · exact hreg "xmm0" .source
      · exact faithful_nil ctx
  | multiply =>
      rw [uses]
      split
      · exact ((harg 0 _).append (hreg _ _)).append (hreg _ _)
      · exact hshape _
      · exact hshape _
  | divide => exact ((harg 0 _).append (hreg _ _)).append (hreg _ _)
  | compareExchange => exact (hshape _).append (hreg _ _)
  | convertExtend => exact hreg _ _
  | convertSplit => exact (hreg _ _).append (hreg _ _)
  | loadFlags => exact (hreg _ _).append (hreg _ _)
  | storeFlags => exact (hreg _ _).append (hreg _ _)
  | adjustDivision => exact (hreg _ _).append (hreg _ _)
  | loop => exact (harg 0 _).append (hreg _ _)
  | string op width => exact string_faithful ctx args op width
  | push => exact ((hslot _ _ _).append (hreg _ _)).append (harg 0 _)
  | pop => exact ((hslot _ _ _).append (hreg _ _)).append (harg 0 _)
  | pushFlags => exact ((hslot _ _ _).append (hreg _ _)).append (hreg _ _)
  | popFlags => exact ((hslot _ _ _).append (hreg _ _)).append (hreg _ _)
  | pushAll slot => exact faithful_ite (pushAll_faithful ctx slot) (faithful_nil ctx)
  | popAll slot => exact faithful_ite (popAll_faithful ctx slot) (faithful_nil ctx)
  | call => exact (((harg 0 _).append (hreg _ _)).append (hreg _ _)).append (hslot _ _ _)
  | nearReturn => exact returnUses_faithful ctx 1
  | farReturn => exact returnUses_faithful ctx 2
  | interruptReturn => exact returnUses_faithful ctx 3
  | enter => exact ((hslot _ _ _).append (hreg _ _)).append (hreg _ _)
  | leave => exact ((hreg _ _).append (hreg _ _)).append (indirect_faithful ctx _ _ _)
  | syscall => exact faithful_nil ctx
  | interrupt => exact faithful_nil ctx

theorem footprint_faithful (args : Arguments) (lastReturn : Word) (effect : Effect) :
    ctx.Faithful (ctx.footprint args lastReturn effect).uses := by
  unfold footprint
  split
  · exact syscall_faithful ctx lastReturn
  · split
    · exact syscall_faithful ctx lastReturn
    · exact faithful_nil ctx
  · exact uses_faithful ctx args effect

end Decode.Context

/-! ### Instructions -/

namespace Decode

theorem anatomy_footprint_faithful (parts : Anatomy) (ctx : Context) (lastReturn : Word) :
    ctx.Faithful (parts.footprint ctx lastReturn).uses := by
  unfold Anatomy.footprint
  split
  · exact ctx.faithful_nil
  · split
    · exact ctx.faithful_nil
    · next effect _ =>
        have hfound := ctx.footprint_faithful (splitArguments parts.arguments) lastReturn effect
        dsimp only
        split
        · split
          · exact hfound.append (ctx.register_faithful _ _)
          · exact hfound
        · exact hfound

/-- The operands of a decoded instruction are those of a list of faithful uses, by `Use.sources` and
`Use.destinations`. -/
theorem decode_faithful (arch : Description) (view : View) (lastReturn pc : Word) (text : String) :
    ∃ uses : List Use, (∀ use ∈ uses, use.Faithful arch view) ∧
      (decode arch view lastReturn pc text).sources = Use.sources uses ∧
      (decode arch view lastReturn pc text).destinations = Use.destinations uses := by
  unfold decode
  dsimp only
  refine ⟨_, anatomy_footprint_faithful (anatomy (Text.trim (splitComment text.toList).1))
    { arch, view, target := commentTarget? (splitComment text.toList).2 } lastReturn, ?_⟩
  split <;> exact ⟨rfl, rfl⟩

/-- An operand that a decoded instruction reads comes from a use that is `Use.Faithful`. -/
theorem faithful_of_mem_sources {arch : Description} {view : View} {lastReturn pc : Word}
    {text : String} {o : Operand} (h : o ∈ (decode arch view lastReturn pc text).sources) :
    ∃ direction, Use.Faithful arch view ⟨direction, o⟩ := by
  obtain ⟨uses, huses, hsources, -⟩ := decode_faithful arch view lastReturn pc text
  rw [hsources] at h
  obtain ⟨use, huse, rfl⟩ := List.mem_map.mp h
  exact ⟨use.direction, huses use (List.mem_filter.mp huse).1⟩

end Decode

end TraceSlice
