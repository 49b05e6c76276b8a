import TraceSlice.Proofs.Decoded

/-!
# Memory references

An instruction refers to memory in two ways: an argument of its text is a memory operand (`Reference.ofArgument`), or
its effect implies one (`Reference.implied`), such as the stack slot of a call. Both are **references** (`Reference`),
a text for the address with a number of bytes and a direction. What an instruction uses is put together from its
references and from uses that have nothing to do with memory, and the target that a comment may give has no say in
what these parts are (`Anatomy.composed_footprint`). So what is said of references is said of every instruction.
-/

namespace TraceSlice

/-- Is the operand a byte of memory, or a register that forms an address? -/
def Operand.isReferring (operand : Operand) : Bool := operand.isMemory || operand.isMemoryAccess

namespace Decode

/-- A reference to memory: the text of the address, the number of bytes from there on, and how they are used. -/
structure Reference where
  /-- The text of the address. -/
  text : List Char
  /-- The number of bytes. -/
  width : Nat
  /-- How the bytes are used. -/
  direction : Direction
deriving DecidableEq, Repr

namespace Reference

/-- The registers that form the address, as `pieces` finds them. -/
def registers (arch : Description) (ref : Reference) : List Register := (pieces arch (addressBody ref.text)).registers

/-- Is the whole text understood as an address? -/
def isAddress (arch : Description) (ref : Reference) : Bool :=
  let scan := pieces arch (addressBody ref.text)
  scan.complete && !scan.pieces.isEmpty

/-- Stack at `offset` from its top, as `Context.stackSlot` uses it. -/
def slot (arch : Description) (offset : Int) (width : Nat) (direction : Direction) : Reference where
  text :=
    (if offset = 0 then "[" ++ arch.stackPointer ++ "]"
      else if offset < 0 then "[" ++ arch.stackPointer ++ "-" ++ Text.hexNat offset.natAbs ++ "]"
      else "[" ++ arch.stackPointer ++ "+" ++ Text.hexNat offset.natAbs ++ "]").toList
  width
  direction

/-- Memory at the address that `register` holds, as `Context.indirect` uses it. -/
def through (register : String) (width : Nat) (direction : Direction) : Reference where
  text := ("[" ++ register ++ "]").toList
  width
  direction

/-! ### Arguments -/

/-- The reference that an argument is, if it is one, by the cases of `Context.argument`. Memory of a thread-local
segment has no address that could be known. -/
def ofArgument (arch : Description) (text : List Char) (direction : Direction) : List Reference :=
  let text := Text.trim text
  if text.isEmpty then []
  else if Text.contains "fs:".toList text || Text.contains "gs:".toList text then []
  else if Context.isBareAddress text then [⟨text, arch.pointerWidth, direction⟩]
  else if Text.contains "PTR".toList text then
    [⟨(Context.sizedAddress text).2, (Context.sizedAddress text).1, direction⟩]
  else []

/-- The references among arguments with the given directions. -/
def ofArguments (arch : Description) (args : Arguments) (directions : List Direction) : List Reference :=
  (List.zipWith (ofArgument arch) args directions).flatten

/-- How the arguments of an effect are used. -/
def directions (args : Arguments) : Effect → List Direction
  | .shape directions => directions
  | .selfClearing =>
    match args with
    | [_, a, b] => if a = b then [.destination] else [.destination, .source, .source]
    | [dst, src] => if dst = src then [.destination] else [.both, .source]
    | _ => [.both, .source]
  | .loadAddress | .pop => [.destination]
  | .blend masked => if masked then [.both, .source, .source] else [.both, .source]
  | .multiply =>
    match args.length with
    | 1 => [.source]
    | 2 => [.both, .source]
    | _ => [.destination, .source, .source]
  | .divide | .loop | .push | .call => [.source]
  | .compareExchange => [.both, .source]
  | .string op _ =>
    match args.any Context.isVector, op with
    | true, .compare => [.both, .source, .source]
    | false, .scan | false, .compare => [.source, .source]
    | _, _ => [.destination, .source]
  | _ => []

/-! ### Implied references -/

/-- The references that `Context.stringDefaults` makes. -/
def ofStringOp (arch : Description) (width : Nat) : StringOp → List Reference
  | .move => [through arch.sourceIndex width .source, through arch.destinationIndex width .destination]
  | .store => [through arch.destinationIndex width .destination]
  | .load => [through arch.sourceIndex width .source]
  | .scan => [through arch.destinationIndex width .source]
  | .compare => [through arch.sourceIndex width .source, through arch.destinationIndex width .source]

/-- The slots that are read from the top of the stack on. -/
def popped (arch : Description) (count width : Nat) : List Reference :=
  (List.range count).map fun index => slot arch ((index * width : Nat) : Int) width .source

/-- The slot that is written below the top of the stack, by `push` and `call` among others. -/
def pushed (arch : Description) : Reference := slot arch (-arch.pointerWidth) arch.pointerWidth .destination

/-- The references that an effect implies. The second argument of a load of an address is an address, whatever its
form, and no byte there is touched. -/
def implied (arch : Description) (args : Arguments) : Effect → List Reference
  | .loadAddress => args[1]?.toList.map fun text => ⟨text, 0, .source⟩
  | .string op width =>
    if args.isEmpty then ofStringOp arch (width.getD arch.pointerWidth) op else []
  | .push | .pushFlags | .call | .enter => [pushed arch]
  | .pop | .popFlags | .nearReturn => popped arch 1 arch.pointerWidth
  | .farReturn => popped arch 2 arch.pointerWidth
  | .interruptReturn => popped arch 3 arch.pointerWidth
  | .pushAll width =>
    if arch.pointerWidth = 4 then
      (List.range 8).map fun index => slot arch (-((index + 1 : Nat) * width : Int)) width .destination
    else []
  | .popAll width => if arch.pointerWidth = 4 then popped arch 8 width else []
  | .leave => [through arch.framePointer arch.pointerWidth .source]
  | _ => []

/-- Does an effect call the system? -/
def callsSystem (arch : Description) (args : Arguments) : Effect → Bool
  | .syscall => true
  | .interrupt => decide (args.head? = some "0x80".toList) && arch.legacySyscallGate
  | _ => false

end Reference

/-- A part of what an instruction uses. -/
inductive Part where
  /-- A reference to memory. -/
  | reference (ref : Reference)
  /-- A use of something else. -/
  | other (use : Use)
deriving DecidableEq, Repr

/-- The `Reference` that a part is, if it is one. -/
def Part.reference? : Part → Option Reference
  | .reference ref => some ref
  | .other _ => none

namespace Context

open Reference

/-- The buffer that a system call has read into. -/
def buffer (ctx : Context) (lastReturn : Word) : List Reference :=
  if ctx.view.evaluate (registerExpression ctx.arch.syscallNumber) = ctx.arch.readSyscall ∧
      0 < ctx.arch.signed lastReturn then
    [through ctx.arch.readBuffer lastReturn.toNat .destination]
  else []

/-- All references of an effect. -/
def references (ctx : Context) (args : Arguments) (lastReturn : Word) (effect : Effect) : List Reference :=
  ofArguments ctx.arch args (directions args effect) ++ implied ctx.arch args effect ++
    if callsSystem ctx.arch args effect then ctx.buffer lastReturn else []

/-- The uses that a reference stands for: those of `Context.memory`. -/
def refer (ctx : Context) (ref : Reference) : List Use := ctx.memory ref.text ref.width ref.direction

/-- Uses that refer to memory (`isReferring`) exactly as the references say. -/
def Refers (ctx : Context) (uses : List Use) (refs : List Reference) : Prop :=
  ∀ use, use ∈ uses ∧ use.operand.isReferring = true ↔ ∃ ref ∈ refs, use ∈ ctx.refer ref

/-- The address of the first byte. -/
def base (ctx : Context) (ref : Reference) : Word :=
  baseAddress ctx.arch ctx.view ctx.target (pieces ctx.arch (addressBody ref.text))

/-- The same machine with another `target`. -/
def aimed (ctx : Context) (target : Option Word) : Context := { ctx with target }

@[simp] theorem aimed_arch (ctx : Context) (target : Option Word) : (ctx.aimed target).arch = ctx.arch := rfl

@[simp] theorem aimed_view (ctx : Context) (target : Option Word) : (ctx.aimed target).view = ctx.view := rfl

/-- The uses that a part stands for. -/
def usesOf (ctx : Context) : Part → List Use
  | .reference ref => ctx.refer ref
  | .other use => [use]

/-- Whatever the target is, the uses are those of the same parts (`usesOf`): the references, in some order, and uses
that do not refer to memory. -/
def Composed (ctx : Context) (uses : Option Word → List Use) (refs : List Reference) : Prop :=
  ∃ parts : List Part, (parts.filterMap Part.reference?).Perm refs ∧
    (∀ use, .other use ∈ parts → use.operand.isReferring = false) ∧
    ∀ target, uses target = parts.flatMap (ctx.aimed target).usesOf

variable {ctx : Context}

/-- A reference stands for the `registers` of its address, which are read, and for its bytes if the address is
understood (`isAddress`). -/
theorem mem_refer {ref : Reference} {use : Use} :
    use ∈ ctx.refer ref ↔
      (∃ r ∈ ref.registers ctx.arch, use = ⟨.source, .addressRegister r (addressValue ctx.arch ctx.view r)⟩) ∨
        (ref.isAddress ctx.arch = true ∧ ∃ k < ref.width,
          use = ⟨ref.direction,
            .ofMemory (ctx.base ref + UInt64.ofNat k) (ctx.view.byte (ctx.base ref + UInt64.ofNat k))⟩) := by
  unfold refer memory memoryUses isAddress
  dsimp only
  split
  · next hunderstood =>
      rw [hunderstood]
      simp [addressUses, byteUses, base, registers, eq_comm]
  · next hunderstood =>
      rw [Bool.eq_false_iff.mpr hunderstood]
      simp [addressUses, registers, eq_comm]

theorem isReferring_of_mem_refer {ref : Reference} {use : Use} (h : use ∈ ctx.refer ref) :
    use.operand.isReferring = true := by
  obtain ⟨r, -, rfl⟩ | ⟨-, k, -, rfl⟩ := mem_refer.mp h <;> rfl

/-- The operands of uses in the directions that `passes` admits, as far as they refer to memory. -/
theorem Refers.mem_filter {uses : List Use} {refs : List Reference} (h : ctx.Refers uses refs) {operand : Operand}
    (hreferring : operand.isReferring = true) (passes : Direction → Bool) :
    operand ∈ (uses.filter fun use => passes use.direction).map (·.operand) ↔
      ∃ ref ∈ refs, ∃ use ∈ ctx.refer ref, passes use.direction = true ∧ use.operand = operand := by
  simp only [List.mem_map, List.mem_filter]
  constructor
  · intro hmapped
    obtain ⟨use, ⟨huse, hpasses⟩, rfl⟩ := hmapped
    obtain ⟨ref, href, hmem⟩ := (h use).mp ⟨huse, hreferring⟩
    exact ⟨ref, href, use, hmem, hpasses, rfl⟩
  · intro hreferred
    obtain ⟨ref, href, use, hmem, hpasses, rfl⟩ := hreferred
    exact ⟨use, ⟨((h use).mpr ⟨ref, href, hmem⟩).1, hpasses⟩, rfl⟩

/-! ### Putting uses together -/

section

variable {uses more : Option Word → List Use} {refs others : List Reference}

theorem Composed.append (h : ctx.Composed uses refs) (hmore : ctx.Composed more others) :
    ctx.Composed (fun target => uses target ++ more target) (refs ++ others) := by
  obtain ⟨parts, hperm, hother, huses⟩ := h
  obtain ⟨parts', hperm', hother', huses'⟩ := hmore
  refine ⟨parts ++ parts', ?_, fun use hmem => ?_, fun target => ?_⟩
  · rw [List.filterMap_append]
    exact hperm.append hperm'
  · exact (List.mem_append.mp hmem).elim (hother use) (hother' use)
  · show uses target ++ more target = _
    rw [List.flatMap_append, huses, huses']

theorem Composed.append_none (h : ctx.Composed uses refs) (hmore : ctx.Composed more []) :
    ctx.Composed (fun target => uses target ++ more target) refs := by
  simpa using h.append hmore

theorem Composed.none_append (h : ctx.Composed uses []) (hmore : ctx.Composed more refs) :
    ctx.Composed (fun target => uses target ++ more target) refs := by
  simpa using h.append hmore

/-- The order of references does not matter to `Composed`. -/
theorem Composed.perm (h : ctx.Composed uses refs) (hperm : refs.Perm others) : ctx.Composed uses others := by
  obtain ⟨parts, hparts, hrest⟩ := h
  exact ⟨parts, hparts.trans hperm, hrest⟩

theorem Composed.ite {p : Prop} [Decidable p] (h : ctx.Composed uses refs) (hmore : ctx.Composed more others) :
    ctx.Composed (fun target => if p then uses target else more target) (if p then refs else others) := by
  by_cases hp : p
  · simpa only [if_pos hp] using h
  · simpa only [if_neg hp] using hmore

/-- What is `Composed` of references refers to memory as they say. -/
theorem Composed.refers (h : ctx.Composed uses refs) (target : Option Word) :
    (ctx.aimed target).Refers (uses target) refs := by
  obtain ⟨parts, hperm, hother, huses⟩ := h
  intro use
  rw [huses]
  simp only [← hperm.mem_iff, List.mem_flatMap, List.mem_filterMap]
  constructor
  · rintro ⟨⟨part, hpart, huse⟩, hreferring⟩
    cases part with
    | reference ref => exact ⟨ref, ⟨_, hpart, rfl⟩, huse⟩
    | other use' =>
        obtain rfl := List.mem_singleton.mp huse
        rw [hother _ hpart] at hreferring
        cases hreferring
  · rintro ⟨ref, ⟨part, hpart, href⟩, huse⟩
    cases part with
    | reference ref' =>
        cases href
        exact ⟨⟨_, hpart, huse⟩, isReferring_of_mem_refer huse⟩
    | other use' => cases href

end

variable (ctx)

theorem composed_nil : ctx.Composed (fun _ => []) [] := ⟨[], .nil, by simp, fun _ => rfl⟩

theorem Composed.flatMap {α : Type} {items : List α} {f : α → Option Word → List Use} {g : α → List Reference}
    (h : ∀ item ∈ items, ctx.Composed (f item) (g item)) :
    ctx.Composed (fun target => items.flatMap (f · target)) (items.flatMap g) := by
  induction items with
  | nil => exact composed_nil ctx
  | cons item items ih =>
      exact (h item List.mem_cons_self).append (ih fun other hother => h other (List.mem_cons_of_mem _ hother))

/-- A use that does not refer to memory is `Composed` of no references. -/
theorem composed_other {use : Use} (h : use.operand.isReferring = false) : ctx.Composed (fun _ => [use]) [] := by
  refine ⟨[.other use], .nil, fun use' hmem => ?_, fun _ => rfl⟩
  cases List.mem_singleton.mp hmem
  exact h

theorem composed_refer (ref : Reference) : ctx.Composed (fun target => (ctx.aimed target).refer ref) [ref] :=
  ⟨[.reference ref], .refl _, by simp, fun target => (List.append_nil _).symm⟩

theorem composed_register (name : String) (direction : Direction) :
    ctx.Composed (fun target => (ctx.aimed target).register name direction) [] := by
  simp only [register, registerOperand?, aimed_arch, aimed_view]
  cases ctx.arch.register? name with
  | none => exact composed_nil ctx
  | some r => exact composed_other ctx rfl

theorem composed_scalar (text : List Char) (direction : Direction) :
    ctx.Composed (fun target => (ctx.aimed target).scalar text direction) [] := by
  have hregister : ctx.Composed
      (fun target =>
        if ctx.arch.isZeroRegister (String.ofList text) then [⟨direction, .ofImmediate 0⟩]
        else (ctx.aimed target).register (String.ofList text) direction) [] := by
    split
    · exact composed_other ctx rfl
    · exact composed_register ctx _ direction
  unfold scalar
  split
  · cases Text.numeral? text with
    | none => exact composed_nil ctx
    | some number => exact composed_other ctx rfl
  · exact hregister

/-! ### Arguments -/

theorem composed_argument (text : List Char) (direction : Direction) :
    ctx.Composed (fun target => (ctx.aimed target).argument text direction) (ofArgument ctx.arch text direction) := by
  unfold argument ofArgument
  dsimp only [aimed_arch]
  refine (composed_nil ctx).ite ((composed_nil ctx).ite ((composed_refer ctx ⟨_, _, _⟩).ite ?_))
  exact (composed_refer ctx ⟨_, _, _⟩).ite (composed_scalar ctx _ direction)

theorem composed_shape (args : Arguments) (directions : List Direction) :
    ctx.Composed (fun target => (ctx.aimed target).shape args directions) (ofArguments ctx.arch args directions) := by
  induction args generalizing directions with
  | nil => exact composed_nil ctx
  | cons text rest ih =>
      cases directions with
      | nil => exact composed_nil ctx
      | cons direction directions => exact (composed_argument ctx text direction).append (ih directions)

theorem argumentAt_zero (args : Arguments) (direction : Direction) :
    ctx.argumentAt args 0 direction = ctx.shape args [direction] := by
  cases args with
  | nil => rfl
  | cons text rest => simp [argumentAt, shape]

theorem composed_argumentAt (args : Arguments) (direction : Direction) :
    ctx.Composed (fun target => (ctx.aimed target).argumentAt args 0 direction)
      (ofArguments ctx.arch args [direction]) := by
  simp only [argumentAt_zero]
  exact composed_shape ctx args [direction]

/-! ### Effects -/

theorem composed_stackSlot (offset : Int) (width : Nat) (direction : Direction) :
    ctx.Composed (fun target => (ctx.aimed target).stackSlot offset width direction)
      [slot ctx.arch offset width direction] :=
  composed_refer ctx (slot ctx.arch offset width direction)

theorem composed_indirect (register : String) (width : Nat) (direction : Direction) :
    ctx.Composed (fun target => (ctx.aimed target).indirect register width direction)
      [through register width direction] :=
  composed_refer ctx (through register width direction)

theorem composed_stringArguments {args : Arguments} (hvector : args.any isVector = false) (op : StringOp)
    (width : Option Nat) :
    ctx.Composed (fun target => (ctx.aimed target).stringArguments args op)
      (ofArguments ctx.arch args (directions args (.string op width))) := by
  cases op <;> simp only [directions, hvector] <;> exact composed_shape ctx args _

theorem composed_stringDefaults (width : Nat) (op : StringOp) :
    ctx.Composed (fun target => (ctx.aimed target).stringDefaults width op) (ofStringOp ctx.arch width op) := by
  have hsource := composed_indirect ctx ctx.arch.sourceIndex width
  have hdestination := composed_indirect ctx ctx.arch.destinationIndex width
  have haccumulator := composed_register ctx (ctx.sizedAccumulator width)
  cases op with
  | move => exact (hsource .source).append (hdestination .destination)
  | store => exact (hdestination .destination).append (haccumulator .source)
  | load => exact (hsource .source).append (haccumulator .destination)
  | scan => exact (haccumulator .source).append (hdestination .source)
  | compare => exact (hsource .source).append (hdestination .source)

theorem composed_string (args : Arguments) (op : StringOp) (width : Option Nat) :
    ctx.Composed (fun target => (ctx.aimed target).string args op width)
      (ofArguments ctx.arch args (directions args (.string op width)) ++ implied ctx.arch args (.string op width)) := by
  have hindex : ∀ (used : Bool) (name : String),
      ctx.Composed (fun target => if used then (ctx.aimed target).register name .both else []) [] := by
    intro used name
    cases used with
    | true => exact composed_register ctx name .both
    | false => exact composed_nil ctx
  simp only [string, aimed_arch]
  split
  · -- a vector operand makes this the vector instruction of the same name, which has its operands written out
    next hvector =>
      have hne : args.isEmpty = false := by
        cases args with
        | nil => cases hvector
        | cons text rest => rfl
      simp only [implied, hne, Bool.false_eq_true, if_false, List.append_nil]
      cases op <;> simp only [directions, hvector] <;> exact composed_shape ctx args _
  · next hvector =>
      rw [Bool.not_eq_true] at hvector
      have hoperands : ctx.Composed
          (fun target =>
            if args.isEmpty then (ctx.aimed target).stringDefaults (width.getD ctx.arch.pointerWidth) op
            else (ctx.aimed target).stringArguments args op)
          (ofArguments ctx.arch args (directions args (.string op width)) ++
            implied ctx.arch args (.string op width)) := by
        simp only [implied]
        cases args with
        | nil => simpa [ofArguments] using composed_stringDefaults ctx _ op
        | cons text rest => simpa using composed_stringArguments ctx hvector op width
      exact (hoperands.append_none (hindex op.usesSourceIndex ctx.arch.sourceIndex)).append_none
        (hindex op.usesDestinationIndex ctx.arch.destinationIndex)

theorem composed_returnUses (slots : Nat) :
    ctx.Composed (fun target => (ctx.aimed target).returnUses slots)
      (popped ctx.arch slots ctx.arch.pointerWidth) := by
  have hslots : ctx.Composed
      (fun target => (List.range slots).flatMap fun index =>
        (ctx.aimed target).stackSlot ((index * ctx.arch.pointerWidth : Nat) : Int) ctx.arch.pointerWidth .source)
      (popped ctx.arch slots ctx.arch.pointerWidth) := by
    rw [popped, List.map_eq_flatMap]
    exact Composed.flatMap ctx fun index _ => composed_stackSlot ctx _ _ _
  simp only [returnUses, aimed_arch]
  exact ((composed_register ctx _ _).append_none (composed_register ctx _ _)).none_append hslots

/-- Slots that are used together with the registers that they belong to. -/
theorem composed_slots (names : List String) (offset : Nat → Int) (width : Nat) (direction : Direction)
    {extra : String × Nat → Option Word → List Use} (hextra : ∀ entry, ctx.Composed (extra entry) []) :
    ctx.Composed
      (fun target => names.zipIdx.flatMap fun entry =>
        (ctx.aimed target).stackSlot (offset entry.2) width direction ++ extra entry target)
      ((List.range names.length).map fun index => slot ctx.arch (offset index) width direction) := by
  have hslots := Composed.flatMap ctx fun entry (_ : entry ∈ names.zipIdx) =>
    (composed_stackSlot ctx (offset entry.2) width direction).append (hextra entry)
  have heq : names.zipIdx.flatMap (fun entry => [slot ctx.arch (offset entry.2) width direction] ++ []) =
      (List.range names.length).map fun index => slot ctx.arch (offset index) width direction := by
    rw [List.range_eq_range', ← List.zipIdx_map_snd 0 names, List.map_map, List.map_eq_flatMap]
    rfl
  rwa [heq] at hslots

theorem length_savedRegisters (width : Nat) : (savedRegisters width).length = 8 := by
  unfold savedRegisters
  split <;> rfl

theorem composed_pushAll (width : Nat) :
    ctx.Composed (fun target => (ctx.aimed target).pushAll width)
      ((List.range 8).map fun index => slot ctx.arch (-((index + 1 : Nat) * width : Int)) width .destination) := by
  have hslots := composed_slots ctx (savedRegisters width) (fun index => -((index + 1 : Nat) * width : Int)) width
    .destination fun entry => composed_register ctx entry.1 .source
  rw [length_savedRegisters] at hslots
  exact hslots.append_none (composed_register ctx ctx.arch.stackPointer .destination)

theorem composed_popAll (width : Nat) :
    ctx.Composed (fun target => (ctx.aimed target).popAll width) (popped ctx.arch 8 width) := by
  have hrestored : ∀ entry : String × Nat,
      ctx.Composed (fun target => if entry.2 = 3 then [] else (ctx.aimed target).register entry.1 .destination) [] := by
    intro entry
    split
    · exact composed_nil ctx
    · exact composed_register ctx entry.1 .destination
  have hslots := composed_slots ctx (savedRegisters width).reverse (fun index => ((index * width : Nat) : Int)) width
    .source hrestored
  rw [List.length_reverse, length_savedRegisters] at hslots
  exact hslots.append_none (composed_register ctx ctx.arch.stackPointer .destination)

theorem composed_selfClearing (args : Arguments) :
    ctx.Composed (fun target => (ctx.aimed target).uses args .selfClearing)
      (ofArguments ctx.arch args (directions args .selfClearing)) := by
  have hcleared : ∀ {p : Prop} [Decidable p] (text : List Char) (rest : Arguments) (directions : List Direction),
      ctx.Composed
        (fun target =>
          if p then (ctx.aimed target).argument text .destination
          else (ctx.aimed target).shape (text :: rest) directions)
        (ofArguments ctx.arch (text :: rest) (if p then [.destination] else directions)) := by
    intro p _ text rest directions
    split
    · simpa [ofArguments] using composed_argument ctx text .destination
    · exact composed_shape ctx _ directions
  rcases args with _ | ⟨dst, _ | ⟨a, _ | ⟨b, _ | ⟨c, rest⟩⟩⟩⟩
  · exact composed_shape ctx [] _
  · exact composed_shape ctx [dst] _
  · exact hcleared dst [a] [.both, .source]
  · exact hcleared dst [a, b] [.destination, .source, .source]
  · exact composed_shape ctx (dst :: a :: b :: c :: rest) _

theorem composed_blend (args : Arguments) (masked : Bool) :
    ctx.Composed (fun target => (ctx.aimed target).uses args (.blend masked))
      (ofArguments ctx.arch args (directions args (.blend masked))) := by
  cases masked with
  | false => exact (composed_shape ctx args _).append_none (composed_nil ctx)
  | true =>
      -- the mask is the third argument, or else a register
      have hregister := composed_register ctx "xmm0" .source
      rcases args with _ | ⟨a, _ | ⟨b, _ | ⟨mask, rest⟩⟩⟩
      · exact (composed_shape ctx [] _).append_none hregister
      · exact (composed_shape ctx [a] _).append_none hregister
      · exact (composed_shape ctx [a, b] _).append_none hregister
      · simpa [ofArguments, directions, uses, shape] using
          (composed_shape ctx [a, b] [.both, .source]).append (composed_argument ctx mask .source)

theorem composed_multiply (args : Arguments) :
    ctx.Composed (fun target => (ctx.aimed target).uses args .multiply)
      (ofArguments ctx.arch args (directions args .multiply)) := by
  have hreg := composed_register ctx
  simp only [uses, aimed_arch]
  rcases args with _ | ⟨a, _ | ⟨b, _ | ⟨c, rest⟩⟩⟩
  · exact composed_shape ctx [] _
  · exact ((composed_argumentAt ctx [a] .source).append_none (hreg _ _)).append_none (hreg _ _)
  · exact composed_shape ctx [a, b] _
  · exact composed_shape ctx (a :: b :: c :: rest) _

/-- Every effect but a system call refers to memory through its arguments and what it implies (`implied`): one case
for each effect. -/
theorem composed_uses (args : Arguments) (effect : Effect) :
    ctx.Composed (fun target => (ctx.aimed target).uses args effect)
      (ofArguments ctx.arch args (directions args effect) ++ implied ctx.arch args effect) := by
  have hreg := composed_register ctx
  have harg := composed_argumentAt ctx args
  have hshape := composed_shape ctx args
  have hslot := composed_stackSlot ctx
  have hpop : ctx.Composed (fun target => (ctx.aimed target).stackSlot 0 ctx.arch.pointerWidth .source)
      (popped ctx.arch 1 ctx.arch.pointerWidth) := by
    simpa [popped] using hslot 0 ctx.arch.pointerWidth .source
  -- either part may be missing, and the order in which they come does not matter
  have hexplicit : ∀ {uses : Option Word → List Use} {refs : List Reference},
      ctx.Composed uses refs → ctx.Composed uses (refs ++ []) := by
    intro uses refs h
    rwa [List.append_nil]
  have himplied : ∀ {uses : Option Word → List Use} {refs : List Reference}, ctx.Composed uses refs →
      ctx.Composed uses (ofArguments ctx.arch args [] ++ refs) := by
    intro uses refs h
    simpa [ofArguments] using h
  have hboth : ∀ {uses : Option Word → List Use} {refs others : List Reference}, ctx.Composed uses (refs ++ others) →
      ctx.Composed uses (others ++ refs) := fun h => h.perm List.perm_append_comm
  unfold uses
  dsimp only [aimed_arch]
  cases effect with
  | shape ds => exact hexplicit (hshape ds)
  | selfClearing => exact hexplicit (composed_selfClearing ctx args)
  | loadAddress =>
      refine (harg .destination).append ?_
      simp only [implied]
      cases args[1]? with
      | none => exact composed_nil ctx
      | some text => exact composed_refer ctx ⟨text, 0, .source⟩
  | blend masked => exact hexplicit (composed_blend ctx args masked)
  | multiply => exact hexplicit (composed_multiply ctx args)
  | divide => exact hexplicit (((harg _).append_none (hreg _ _)).append_none (hreg _ _))
  | compareExchange => exact hexplicit ((hshape _).append_none (hreg _ _))
  | convertExtend => exact himplied (hreg _ _)
  | convertSplit => exact himplied ((hreg _ _).append_none (hreg _ _))
  | loadFlags => exact himplied ((hreg _ _).append_none (hreg _ _))
  | storeFlags => exact himplied ((hreg _ _).append_none (hreg _ _))
  | adjustDivision => exact himplied ((hreg _ _).append_none (hreg _ _))
  | loop => exact hexplicit ((harg _).append_none (hreg _ _))
  | string op width => exact composed_string ctx args op width
  | push => exact hboth (((hslot _ _ _).append_none (hreg _ _)).append (harg _))
  | pop => exact hboth ((hpop.append_none (hreg _ _)).append (harg _))
  | pushFlags => exact himplied (((hslot _ _ _).append_none (hreg _ _)).append_none (hreg _ _))
  | popFlags => exact himplied ((hpop.append_none (hreg _ _)).append_none (hreg _ _))
  | pushAll width => exact himplied ((composed_pushAll ctx width).ite (composed_nil ctx))
  | popAll width => exact himplied ((composed_popAll ctx width).ite (composed_nil ctx))
  | call => exact (((harg _).append_none (hreg _ _)).append_none (hreg _ _)).append (hslot _ _ _)
  | nearReturn => exact himplied (composed_returnUses ctx 1)
  | farReturn => exact himplied (composed_returnUses ctx 2)
  | interruptReturn => exact himplied (composed_returnUses ctx 3)
  | enter => exact himplied (((hslot _ _ _).append_none (hreg _ _)).append_none (hreg _ _))
  | leave => exact himplied (((hreg _ _).append_none (hreg _ _)).none_append (composed_indirect ctx _ _ _))
  | syscall => exact himplied (composed_nil ctx)
  | interrupt => exact himplied (composed_nil ctx)

theorem composed_syscall (lastReturn : Word) :
    ctx.Composed (fun target => ((ctx.aimed target).syscall lastReturn).uses) (ctx.buffer lastReturn) := by
  have hbuffer : ctx.Composed
      (fun target =>
        if ctx.view.evaluate (registerExpression ctx.arch.syscallNumber) = ctx.arch.readSyscall ∧
            0 < ctx.arch.signed lastReturn then
          (ctx.aimed target).indirect ctx.arch.readBuffer lastReturn.toNat .destination
        else [])
      (ctx.buffer lastReturn) :=
    (composed_indirect ctx _ _ _).ite (composed_nil ctx)
  have hregisters : ∀ names : List String,
      ctx.Composed (fun target => names.flatMap ((ctx.aimed target).register · .source)) [] := by
    intro names
    have hall := Composed.flatMap ctx fun name (_ : name ∈ names) => composed_register ctx name .source
    rwa [List.flatMap_eq_nil_iff.mpr fun _ _ => rfl] at hall
  simp only [syscall, aimed_arch, aimed_view]
  cases ctx.arch.syscall? (ctx.view.evaluate (registerExpression ctx.arch.syscallNumber)) with
  | none => exact hbuffer
  | some call => exact (hbuffer.append_none (composed_register ctx _ _)).append_none (hregisters _)

/-- **An effect refers to memory through its references**, and through nothing else. -/
theorem composed_footprint (args : Arguments) (lastReturn : Word) (effect : Effect) :
    ctx.Composed (fun target => ((ctx.aimed target).footprint args lastReturn effect).uses)
      (ctx.references args lastReturn effect) := by
  have hnone : ofArguments ctx.arch args [] = [] := by simp [ofArguments]
  -- every effect but the two that may enter the system is its own uses
  have hcalls : callsSystem ctx.arch args effect = false →
      ctx.Composed (fun target => (ctx.aimed target).uses args effect) (ctx.references args lastReturn effect) := by
    intro hcalls
    simpa [references, hcalls] using composed_uses ctx args effect
  cases effect with
  | syscall =>
      simpa [references, directions, implied, callsSystem, hnone, footprint] using composed_syscall ctx lastReturn
  | interrupt =>
      have hgated : ctx.Composed
          (fun target =>
            (if args.head? = some "0x80".toList ∧ ctx.arch.legacySyscallGate then
              (ctx.aimed target).syscall lastReturn else {}).uses)
          (ctx.references args lastReturn .interrupt) := by
        split
        · next hgate =>
            simpa [references, directions, implied, callsSystem, hnone, hgate] using composed_syscall ctx lastReturn
        · next hgate => exact hcalls (by simpa [callsSystem] using hgate)
      exact hgated
  | _ => exact hcalls rfl

end Context

/-! ### Instructions -/

/-- The references of an instruction taken apart (`Anatomy.footprint`). -/
def Anatomy.references (parts : Anatomy) (ctx : Context) (lastReturn : Word) : List Reference :=
  if isPrefixWord parts.mnemonic then []
  else
    match effect? (String.ofList parts.mnemonic) with
    | none => []
    | some effect => ctx.references (splitArguments parts.arguments) lastReturn effect

/-- **An instruction is put together from its references** and from uses that do not refer to memory. -/
theorem Anatomy.composed_footprint (parts : Anatomy) (ctx : Context) (lastReturn : Word) :
    ctx.Composed (fun target => (parts.footprint (ctx.aimed target) lastReturn).uses)
      (parts.references ctx lastReturn) := by
  unfold Anatomy.footprint Anatomy.references
  split
  · exact ctx.composed_nil
  · cases effect? (String.ofList parts.mnemonic) with
    | none => exact ctx.composed_nil
    | some effect =>
        have hfound := ctx.composed_footprint (splitArguments parts.arguments) lastReturn effect
        cases effect with
        | string op width =>
            dsimp only
            split
            · exact hfound.append_none (ctx.composed_register ctx.arch.counter .both)
            · exact hfound
        | _ => exact hfound

/-- The machine and the target that `decode` gives the text of an instruction. -/
def contextOf (arch : Description) (view : View) (text : String) : Context :=
  { arch, view, target := commentTarget? (splitComment text.toList).2 }

/-- The references of the instruction with a text, as `decode` takes it apart. -/
def references (arch : Description) (view : View) (lastReturn : Word) (text : String) : List Reference :=
  (anatomy (Text.trim (splitComment text.toList).1)).references (contextOf arch view text) lastReturn

section

variable {arch : Description} {view : View} {lastReturn pc : Word} {text : String} {operand : Operand}

/-- The operands of an instruction are those of its footprint. -/
theorem sources_decode : (decode arch view lastReturn pc text).sources =
    Use.sources ((anatomy (Text.trim (splitComment text.toList).1)).footprint (contextOf arch view text)
      lastReturn).uses := by
  unfold decode
  dsimp only [contextOf]
  split <;> simp [Instruction.annotate, Instruction.addUses, Instruction.ofText]

theorem destinations_decode : (decode arch view lastReturn pc text).destinations =
    Use.destinations ((anatomy (Text.trim (splitComment text.toList).1)).footprint (contextOf arch view text)
      lastReturn).uses := by
  unfold decode
  dsimp only [contextOf]
  split <;> simp [Instruction.annotate, Instruction.addUses, Instruction.ofText]

theorem refers_decode : (contextOf arch view text).Refers
    ((anatomy (Text.trim (splitComment text.toList).1)).footprint (contextOf arch view text) lastReturn).uses
    (references arch view lastReturn text) :=
  (Anatomy.composed_footprint _ (contextOf arch view text) lastReturn).refers _

/-- What an instruction reads of memory, and the registers that form its addresses, come from its `references`. -/
theorem mem_sources_decode (h : operand.isReferring = true) :
    operand ∈ (decode arch view lastReturn pc text).sources ↔
      ∃ ref ∈ references arch view lastReturn text, ∃ use ∈ (contextOf arch view text).refer ref,
        use.direction.reads = true ∧ use.operand = operand := by
  rw [sources_decode]
  exact refers_decode.mem_filter h Direction.reads

/-- What an instruction writes of memory comes from its `references`. -/
theorem mem_destinations_decode (h : operand.isReferring = true) :
    operand ∈ (decode arch view lastReturn pc text).destinations ↔
      ∃ ref ∈ references arch view lastReturn text, ∃ use ∈ (contextOf arch view text).refer ref,
        use.direction.writes = true ∧ use.operand = operand := by
  rw [destinations_decode]
  exact refers_decode.mem_filter h Direction.writes

end

end Decode

end TraceSlice
