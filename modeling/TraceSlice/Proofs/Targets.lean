import Mathlib.Data.List.Forall2
import TraceSlice.Proofs.Layout
import TraceSlice.Proofs.References
import TraceSlice.Proofs.Tokens

/-!
# Comments with a target

Behind the text of an instruction a disassembler may write a comment, and the number that this starts with is the
address of an operand relative to the instruction pointer (specification, §E9; `Targets`). Nothing else of the comment
matters, and the number matters to nothing else: two comments give the same operands at the same positions, up to the
bytes of such an operand (`decode_moves_relative_only`).
-/

namespace TraceSlice

/-! ### The number in a comment -/

namespace Text

/-- A text starts with a number: with `0x` or `0X` and hexadecimal digits, or else with decimal digits. All the digits
that stand there belong to it. -/
inductive StartsWithNumber : List Char → Nat → Prop
  | hexadecimal {x : Char} {digits rest : List Char} {n : Nat} (hx : x = 'x' ∨ x = 'X') (h : Numeral 16 digits n)
      (hend : ∀ c ∈ rest.head?, isDigitIn 16 c = false) : StartsWithNumber ('0' :: x :: (digits ++ rest)) n
  | decimal {digits rest : List Char} {n : Nat} (hhex : ¬ HexHead (digits ++ rest)) (h : Numeral 10 digits n)
      (hend : ∀ c ∈ rest.head?, isDigitIn 10 c = false) : StartsWithNumber (digits ++ rest) n

/-- The run of digits at the head of a text, and what follows it: `takeWhile` by `isDigitIn`. -/
theorem exists_digits_append (base : Nat) (cs : List Char) :
    ∃ rest, cs = cs.takeWhile (isDigitIn base) ++ rest ∧ ∀ c ∈ rest.head?, isDigitIn base c = false := by
  refine ⟨cs.dropWhile (isDigitIn base), List.takeWhile_append_dropWhile.symm, fun c hc => ?_⟩
  obtain ⟨rest, hrest⟩ := List.head?_eq_some_iff.mp hc
  exact eq_false_of_dropWhile_eq_cons hrest

theorem takeWhile_digits_append {base : Nat} (hbase : base ≤ 16) {digits rest : List Char} {n : Nat}
    (h : Numeral base digits n) (hend : ∀ c ∈ rest.head?, isDigitIn base c = false) :
    (digits ++ rest).takeWhile (isDigitIn base) = digits := by
  rw [List.takeWhile_append_of_pos ((numeral_iff hbase).mp h).2.1]
  cases rest with
  | nil => simp
  | cons c rest => simp [hend c rfl]

/-- `numeral?` reads a number at the head of a text if it stands there and fits. -/
theorem numeral?_fst_eq_some_iff {cs : List Char} {w : Word} :
    (numeral? cs).map (·.1) = some w ↔ StartsWithNumber cs w.toNat := by
  constructor
  · intro h
    obtain ⟨⟨v, size⟩, hread, rfl⟩ := Option.map_eq_some_iff.mp h
    -- the base is chosen by the head alone, before any digit is read
    by_cases hhex : HexHead cs
    · obtain ⟨x, digits, rfl, hx⟩ := hhex
      rw [numeral?_hexadecimal hx, Option.map_eq_some_iff] at hread
      obtain ⟨⟨v', run⟩, hrun, heq⟩ := hread
      cases heq
      obtain ⟨rest, hdigits, hend⟩ := exists_digits_append 16 digits
      rw [hdigits]
      exact .hexadecimal hx ((digitRun?_eq_some_iff (by decide)).mp hrun).1 hend
    · rw [numeral?_decimal hhex] at hread
      obtain ⟨rest, hdigits, hend⟩ := exists_digits_append 10 cs
      rw [hdigits] at hhex ⊢
      exact .decimal hhex ((digitRun?_eq_some_iff (by decide)).mp hread).1 hend
  · intro h
    rw [Option.map_eq_some_iff]
    generalize hn : w.toNat = n at h
    subst hn
    cases h with
    | hexadecimal hx h hend =>
        have hrun := (digitRun?_eq_some_iff (by decide)).mpr
          ⟨(takeWhile_digits_append (by decide) h hend).symm ▸ h, rfl⟩
        exact ⟨_, by rw [numeral?_hexadecimal hx, hrun]; rfl, rfl⟩
    | decimal hhex h hend =>
        have hrun := (digitRun?_eq_some_iff (by decide)).mpr
          ⟨(takeWhile_digits_append (by decide) h hend).symm ▸ h, rfl⟩
        exact ⟨_, by rw [numeral?_decimal hhex, hrun], rfl⟩

end Text

namespace Decode

open Text

/-! ### Where references start -/

namespace Reference

/-- Does the address mention the instruction pointer? -/
def isRelative (arch : Description) (ref : Reference) : Bool :=
  (ref.registers arch).any fun register => register.group.contains arch.instructionPointer

/-- The address that the text evaluates to (`Pieces.resolve`). -/
def evaluated (arch : Description) (view : View) (ref : Reference) : Word :=
  view.evaluateAddress ((pieces arch (addressBody ref.text)).resolve arch view)

/-- The address of the first byte: the target if the reference `isRelative` and there is one. -/
def start (arch : Description) (view : View) (target : Option Word) (ref : Reference) : Word :=
  if ref.isRelative arch then target.getD (ref.evaluated arch view) else ref.evaluated arch view

end Reference

theorem Context.base_eq_start (ctx : Context) (ref : Reference) :
    ctx.base ref = ref.start ctx.arch ctx.view ctx.target := by
  unfold Context.base baseAddress Reference.start
  cases ctx.target with
  | none => exact (ite_self _).symm
  | some target => rfl

/-- The uses that a part stands for. A reference reads the registers of its address and uses the bytes from its
`start` on, if its address is understood. -/
def Part.uses (arch : Description) (view : View) (target : Option Word) : Part → List Use
  | .reference ref =>
    ((ref.registers arch).map fun r => ⟨.source, .addressRegister r (addressValue arch view r)⟩) ++
      if ref.isAddress arch then byteUses view (ref.start arch view target) ref.width ref.direction else []
  | .other use => [use]

theorem Context.usesOf_eq (ctx : Context) (part : Part) : ctx.usesOf part = part.uses ctx.arch ctx.view ctx.target := by
  cases part with
  | reference ref =>
      rw [Part.uses, ← ctx.base_eq_start]
      unfold Context.usesOf Context.refer Context.memory memoryUses Reference.isAddress
      dsimp only
      split
      · rfl
      · exact (List.append_nil _).symm
  | other use => rfl

/-! ### Operands with two targets -/

/-- Operands that stand at the same position, with two targets: the same operand, or the same byte of a relative
reference, counted from where this starts. -/
inductive Retargeted (arch : Description) (view : View) (refs : List Reference) (target target' : Option Word) :
    Operand → Operand → Prop
  | same (operand : Operand) : Retargeted arch view refs target target' operand operand
  | moved {ref : Reference} (href : ref ∈ refs) (hrelative : ref.isRelative arch = true) {k : Nat} (hk : k < ref.width)
      {address address' : Word} (h : address = ref.start arch view target + UInt64.ofNat k)
      (h' : address' = ref.start arch view target' + UInt64.ofNat k) :
      Retargeted arch view refs target target' (.ofMemory address (view.byte address))
        (.ofMemory address' (view.byte address'))

section

variable {arch : Description} {view : View} {refs : List Reference} {target target' : Option Word}

/-- Uses of operands that are `Retargeted`, in the same direction. -/
def RetargetedUse (arch : Description) (view : View) (refs : List Reference) (target target' : Option Word)
    (use use' : Use) : Prop :=
  use.direction = use'.direction ∧ Retargeted arch view refs target target' use.operand use'.operand

theorem retargetedUse_refl (use : Use) : RetargetedUse arch view refs target target' use use := ⟨rfl, .same _⟩

theorem retargeted_byteUses {ref : Reference} (href : ref ∈ refs) :
    List.Forall₂ (RetargetedUse arch view refs target target')
      (byteUses view (ref.start arch view target) ref.width ref.direction)
      (byteUses view (ref.start arch view target') ref.width ref.direction) := by
  cases hrelative : ref.isRelative arch with
  | false =>
      have hstart : ∀ target, ref.start arch view target = ref.evaluated arch view := fun target => by
        simp [Reference.start, hrelative]
      rw [hstart, hstart]
      exact List.forall₂_same.mpr fun use _ => retargetedUse_refl use
  | true =>
      unfold byteUses
      rw [List.forall₂_map_left_iff, List.forall₂_map_right_iff, List.forall₂_same]
      exact fun k hk => ⟨rfl, .moved href hrelative (List.mem_range.mp hk) rfl rfl⟩

theorem Part.retargeted_uses {part : Part} (h : ∀ ref, part.reference? = some ref → ref ∈ refs) :
    List.Forall₂ (RetargetedUse arch view refs target target') (part.uses arch view target)
      (part.uses arch view target') := by
  cases part with
  | reference ref =>
      refine List.rel_append (List.forall₂_same.mpr fun use _ => retargetedUse_refl use) ?_
      split
      · exact retargeted_byteUses (h ref rfl)
      · exact .nil
  | other use => exact .cons (retargetedUse_refl use) .nil

theorem retargeted_flatMap_uses {parts : List Part} (h : (parts.filterMap Part.reference?).Perm refs) :
    List.Forall₂ (RetargetedUse arch view refs target target') (parts.flatMap (Part.uses arch view target))
      (parts.flatMap (Part.uses arch view target')) := by
  have hsame : List.Forall₂ (fun part part' => part = part' ∧ part ∈ parts) parts parts :=
    List.forall₂_same.mpr fun part hpart => ⟨rfl, hpart⟩
  refine List.rel_flatMap hsame fun part part' hpart => ?_
  obtain ⟨rfl, hmem⟩ := hpart
  exact part.retargeted_uses fun ref href => h.mem_iff.mp (List.mem_filterMap.mpr ⟨part, hmem, href⟩)

/-- What is related as uses (`RetargetedUse`) is related in the list of operands in any direction. -/
theorem retargeted_filter {uses uses' : List Use}
    (h : List.Forall₂ (RetargetedUse arch view refs target target') uses uses')
    (passes : Direction → Bool) :
    List.Forall₂ (Retargeted arch view refs target target')
      ((uses.filter fun use => passes use.direction).map (·.operand))
      ((uses'.filter fun use => passes use.direction).map (·.operand)) := by
  rw [List.forall₂_map_left_iff, List.forall₂_map_right_iff]
  have hpasses : ∀ use use', RetargetedUse arch view refs target target' use use' →
      (passes use.direction = true ↔ passes use'.direction = true) := fun use use' hused => by rw [hused.1]
  exact (List.rel_filter hpasses h).imp fun _ _ hused => hused.2

end

/-! ### Decoding with comments -/

theorem Context.note_syscall_aimed (ctx : Context) (lastReturn : Word) (target : Option Word) :
    ((ctx.aimed target).syscall lastReturn).note = (ctx.syscall lastReturn).note := by
  simp only [Context.syscall, Context.aimed_arch, Context.aimed_view]
  cases ctx.arch.syscall? (ctx.view.evaluate (registerExpression ctx.arch.syscallNumber)) <;> rfl

/-- A note names a system call, which no target selects. -/
theorem Context.note_footprint_aimed (ctx : Context) (args : Arguments) (lastReturn : Word) (effect : Effect)
    (target : Option Word) :
    ((ctx.aimed target).footprint args lastReturn effect).note = (ctx.footprint args lastReturn effect).note := by
  cases effect with
  | syscall => exact ctx.note_syscall_aimed lastReturn target
  | interrupt =>
      simp only [Context.footprint]
      rw [apply_ite Footprint.note, apply_ite Footprint.note, note_syscall_aimed, Context.aimed_arch]
  | _ => simp only [Context.footprint]

theorem Anatomy.note_footprint_aimed (parts : Anatomy) (ctx : Context) (lastReturn : Word) (target : Option Word) :
    (parts.footprint (ctx.aimed target) lastReturn).note = (parts.footprint ctx lastReturn).note := by
  unfold Anatomy.footprint
  split
  · rfl
  · cases effect? (String.ofList parts.mnemonic) with
    | none => rfl
    | some effect =>
        have hfound := ctx.note_footprint_aimed (splitArguments parts.arguments) lastReturn effect target
        cases effect with
        | string op width =>
            dsimp only
            rw [apply_ite Footprint.note, apply_ite Footprint.note, hfound]
        | _ => exact hfound

/-- The target that a comment gives: the number that it starts with (`StartsWithNumber`), if there is one that fits a
word. -/
def Targets (comment : Option (List Char)) (target : Option Word) : Prop :=
  ∀ w : Word, target = some w ↔ ∃ text, comment = some text ∧ StartsWithNumber (trim text) w.toNat

theorem targets_commentTarget? (comment : Option (List Char)) : Targets comment (comment.bind commentTarget?) := by
  intro w
  simp only [Option.bind_eq_some_iff, commentTarget?, numeral?_fst_eq_some_iff]

theorem references_of_not_mem (arch : Description) (view : View) (lastReturn : Word) {body : List Char}
    (h : '#' ∉ body) :
    references arch view lastReturn (String.ofList body) = (anatomy body).references { arch, view } lastReturn := by
  unfold references contextOf
  rw [String.toList_ofList, splitComment_of_not_mem h, anatomy_trim]
  rfl

/-- **A comment only moves what is relative to the instruction pointer.** What an instruction uses is put together
from its `references` and from uses that do not refer to memory, and no comment changes these parts. The bytes of a
relative reference start at the number that the comment starts with (`Targets`), if there is one that fits, and
otherwise where its text evaluates to; those of other references always start there. So two comments give the same
text, prefix, mnemonic and note, and operands in the same order that differ in nothing but the addresses and values of
the bytes of relative references. -/
theorem decode_moves_relative_only (arch : Description) (view : View) (lastReturn pc : Word) {body : List Char}
    (hhash : '#' ∉ body) :
    let refs := references arch view lastReturn (String.ofList body)
    ∃ parts : List Part, (parts.filterMap Part.reference?).Perm refs ∧
      (∀ use, .other use ∈ parts → use.operand.isReferring = false) ∧
      ∀ comment comment' : Option (List Char),
        let insn := decode arch view lastReturn pc (String.ofList (commented body comment))
        let insn' := decode arch view lastReturn pc (String.ofList (commented body comment'))
        ∃ target target', Targets comment target ∧ Targets comment' target' ∧
          (insn.text = insn'.text ∧ insn.leading = insn'.leading ∧ insn.mnemonic = insn'.mnemonic ∧
            insn.comment = insn'.comment) ∧
          List.Forall₂ (Retargeted arch view refs target target') insn.sources insn'.sources ∧
          List.Forall₂ (Retargeted arch view refs target target') insn.destinations insn'.destinations ∧
          insn.sources = Use.sources (parts.flatMap (Part.uses arch view target)) ∧
          insn.destinations = Use.destinations (parts.flatMap (Part.uses arch view target)) := by
  intro refs
  obtain ⟨parts, hperm, hother, huses⟩ := (anatomy body).composed_footprint { arch, view } lastReturn
  rw [← references_of_not_mem arch view lastReturn hhash] at hperm
  refine ⟨parts, hperm, hother, fun comment comment' => ?_⟩
  have hparts : ∀ target, ((anatomy body).footprint { arch, view, target } lastReturn).uses =
      parts.flatMap (Part.uses arch view target) := fun target => by
    rw [← funext (Context.usesOf_eq { arch, view, target })]
    exact huses target
  have hdecode := decode_commented arch view lastReturn pc hhash
  -- a comment acts through its target, and the target through the parts
  have hsources : ∀ comment, (decode arch view lastReturn pc (String.ofList (commented body comment))).sources =
      Use.sources (parts.flatMap (Part.uses arch view (comment.bind commentTarget?))) := fun comment => by
    rw [hdecode, ← hparts]
  have hdestinations : ∀ comment,
      (decode arch view lastReturn pc (String.ofList (commented body comment))).destinations =
        Use.destinations (parts.flatMap (Part.uses arch view (comment.bind commentTarget?))) := fun comment => by
    rw [hdecode, ← hparts]
  refine ⟨_, _, targets_commentTarget? comment, targets_commentTarget? comment', ?_, ?_, ?_, hsources comment,
    hdestinations comment⟩
  · rw [hdecode, hdecode]
    refine ⟨rfl, rfl, rfl, ?_⟩
    have hnote := (anatomy body).note_footprint_aimed { arch, view } lastReturn
    exact congrArg (·.getD "") ((hnote (comment.bind commentTarget?)).trans (hnote (comment'.bind commentTarget?)).symm)
  · rw [hsources, hsources]
    exact retargeted_filter (retargeted_flatMap_uses hperm) Direction.reads
  · rw [hdestinations, hdestinations]
    exact retargeted_filter (retargeted_flatMap_uses hperm) Direction.writes

/-- A machine at `0x400500` with a `7` where a disassembler would point and a `9` at the sum of the displacement and the
instruction pointer. -/
def beforeGlobal : View where
  evaluate _ := 0
  evaluateAddress expression :=
    if expression = "$rip" then 0x400500 else if expression = "0x400500+0x20003a" then 0x60053a else 0
  byte address := if address = 0x601040 then 7 else if address = 0x60053a then 9 else 0

/-- A number in the comment moves the operand there, and one that does not fit leaves it where its text evaluates to. -/
theorem decode_moves_relative_only_at_global :
    ∃ insn insn',
      insn = decode Arch.x64.description beforeGlobal 0 0x400500 "inc BYTE PTR [rip+0x20003a] # 0x601040 <hits>" ∧
      insn' = decode Arch.x64.description beforeGlobal 0 0x400500
        "inc BYTE PTR [rip+0x20003a] # 0x10000000000601040" ∧
      .ofMemory 0x601040 7 ∈ insn.destinations ∧ .ofMemory 0x60053a 9 ∈ insn'.destinations ∧
      insn.text = insn'.text ∧ insn.mnemonic = insn'.mnemonic ∧
      ∃ target target', Targets (some " 0x601040 <hits>".toList) target ∧
        Targets (some " 0x10000000000601040".toList) target' ∧
        List.Forall₂
          (Retargeted Arch.x64.description beforeGlobal [⟨"[rip+0x20003a]".toList, 1, .both⟩] target target')
          insn.destinations insn'.destinations := by
  have hinsn : String.ofList (commented "inc BYTE PTR [rip+0x20003a] ".toList (some " 0x601040 <hits>".toList)) =
      "inc BYTE PTR [rip+0x20003a] # 0x601040 <hits>" := by
    decide +kernel
  have hinsn' : String.ofList (commented "inc BYTE PTR [rip+0x20003a] ".toList
      (some " 0x10000000000601040".toList)) = "inc BYTE PTR [rip+0x20003a] # 0x10000000000601040" := by
    decide +kernel
  have hrefs : references Arch.x64.description beforeGlobal 0 (String.ofList "inc BYTE PTR [rip+0x20003a] ".toList) =
      [⟨"[rip+0x20003a]".toList, 1, .both⟩] := by
    decide +kernel
  have hbytes :
      .ofMemory 0x601040 7 ∈ (decode Arch.x64.description beforeGlobal 0 0x400500
        "inc BYTE PTR [rip+0x20003a] # 0x601040 <hits>").destinations ∧
      .ofMemory 0x60053a 9 ∈ (decode Arch.x64.description beforeGlobal 0 0x400500
        "inc BYTE PTR [rip+0x20003a] # 0x10000000000601040").destinations := by
    decide +kernel
  obtain ⟨parts, -, -, hmoves⟩ := decode_moves_relative_only Arch.x64.description beforeGlobal 0 0x400500
    (by decide +kernel : '#' ∉ "inc BYTE PTR [rip+0x20003a] ".toList)
  have hboth := hmoves (some " 0x601040 <hits>".toList) (some " 0x10000000000601040".toList)
  rw [hinsn, hinsn', hrefs] at hboth
  obtain ⟨target, target', htarget, htarget', ⟨htext, -, hmnemonic, -⟩, -, hretargeted, -⟩ := hboth
  exact ⟨_, _, rfl, rfl, hbytes.1, hbytes.2, htext, hmnemonic, target, target', htarget, htarget', hretargeted⟩

end Decode

end TraceSlice
