import TraceSlice.Proofs.Forward
import TraceSlice.Proofs.Tokens

/-!
# Parts of a general register

A general register goes by several names, each of which denotes some of its bits, and a snapshot may give a value to
any of them. A replay keeps one history per name. Asked for a part, it takes the latest value recorded under the very
name, and only if there is none the widest of the wider names. So a snapshot that names the whole register does not
reach the parts that an older snapshot has named, nor does one that names a part reach below it if an older snapshot
has named the whole. `evaluate_narrower_iff` says exactly when a part is up to date.
-/

namespace TraceSlice

/-- A name of a general register, and the bits that it denotes. -/
structure RegisterPart where
  name : String
  first : Nat
  count : Nat
deriving DecidableEq, Repr

namespace RegisterPart

/-- The bits of the part in the value of a register, as `extract` takes them. -/
def bits (part : RegisterPart) (value : Word) : Word := UInt64.ofNat (value.toNat / 2 ^ part.first % 2 ^ part.count)

/-- One part denotes fewer bits than another, all of them bits of the other. -/
def Narrower (inner outer : RegisterPart) : Prop :=
  outer.first ≤ inner.first ∧ inner.first + inner.count ≤ outer.first + outer.count ∧ inner.count < outer.count

instance (inner outer : RegisterPart) : Decidable (inner.Narrower outer) :=
  inferInstanceAs (Decidable (_ ∧ _ ∧ _))

end RegisterPart

/-- The parts of a 32-bit register that goes by a letter. -/
def lettered (x : String) : List RegisterPart :=
  [⟨"e" ++ x ++ "x", 0, 32⟩, ⟨x ++ "x", 0, 16⟩, ⟨x ++ "h", 8, 8⟩, ⟨x ++ "l", 0, 8⟩]

/-- The general registers, each by its parts, widest first. -/
def Arch.generalRegisters : Arch → List (List RegisterPart)
  | .x86 =>
    ["a", "b", "c", "d"].map lettered ++
    ["si", "di", "bp", "sp"].map fun x => [⟨"e" ++ x, 0, 32⟩, ⟨x, 0, 16⟩]
  | .x64 =>
    (["a", "b", "c", "d"].map fun x => ⟨"r" ++ x ++ "x", 0, 64⟩ :: lettered x) ++
    (["si", "di", "bp", "sp"].map fun x =>
      [⟨"r" ++ x, 0, 64⟩, ⟨"e" ++ x, 0, 32⟩, ⟨x, 0, 16⟩, ⟨x ++ "l", 0, 8⟩]) ++
    ["r8", "r9", "r10", "r11", "r12", "r13", "r14", "r15"].map fun x =>
      [⟨x, 0, 64⟩, ⟨x ++ "d", 0, 32⟩, ⟨x ++ "w", 0, 16⟩, ⟨x ++ "b", 0, 8⟩, ⟨x ++ "l", 0, 8⟩]

/-! ### The table of registers -/

theorem Arch.group?_of_part (arch : Arch) : ∀ parts ∈ arch.generalRegisters, ∀ part ∈ parts,
    (arch.description.group? part.name).map (·.names) = some (parts.map (·.name)) := by
  cases arch <;> decide +kernel

theorem Arch.all_isNameChar_of_part (arch : Arch) : ∀ parts ∈ arch.generalRegisters, ∀ part ∈ parts,
    part.name.toList.all Expr.isNameChar = true := by
  cases arch <;> decide +kernel

theorem Arch.bitsOf?_of_part (arch : Arch) : ∀ parts ∈ arch.generalRegisters, ∀ part ∈ parts,
    ∀ wider ∈ parts, part.Narrower wider →
      Replay.bitsOf? ((parts.map (·.name)).headD "") part.name = some (part.first, part.count) := by
  cases arch <;> decide +kernel

/-- The names that `registerValue?` searches a part under, apart from its own. -/
def searched (parts : List RegisterPart) (part : RegisterPart) : List String :=
  ((parts.map (·.name)).takeWhile (· ≠ part.name)).filter fun other => !Replay.isHighByte other

/-- The parts listed before `part`: widest first, so the wider ones and those of the same width. -/
def widerThan (parts : List RegisterPart) (part : RegisterPart) : List RegisterPart := parts.takeWhile (· ≠ part)

theorem Arch.searched_of_narrower (arch : Arch) : ∀ parts ∈ arch.generalRegisters, ∀ wider ∈ parts,
    ∀ part ∈ parts, part.Narrower wider →
      (widerThan parts wider).map (·.name) ++ [wider.name] <+: searched parts part := by
  cases arch <;> decide +kernel

/-! ### Histories -/

/-- The latest value recorded under `name` in a list of steps, newest first: `recorded?` on part of the history. -/
def latest? (steps : List Step) (name : String) : Option Word :=
  steps.findSome? fun step => step.registers.get? name

/-- The latest step that names a general register gives a value to one of its parts only. What stands before that
step is left. -/
def LastNamed (replay : Replay) (parts : List RegisterPart) (named : RegisterPart) (value : Word)
    (older : List Step) : Prop :=
  ∃ newer step, replay.current :: replay.past = newer ++ step :: older ∧
    (∀ later ∈ newer, ∀ part ∈ parts, later.registers.get? part.name = none) ∧
    step.registers.get? named.name = some value ∧
    ∀ part ∈ parts, part ≠ named → step.registers.get? part.name = none

theorem LastNamed.recorded? {replay : Replay} {parts : List RegisterPart} {named part : RegisterPart} {value : Word}
    {older : List Step} (h : LastNamed replay parts named value older) (hpart : part ∈ parts) :
    replay.recorded? part.name = if part = named then some value else latest? older part.name := by
  obtain ⟨newer, step, hsteps, hnewer, hvalue, hother⟩ := h
  have hnone : newer.findSome? (fun step => step.registers.get? part.name) = none :=
    List.findSome?_eq_none_iff.mpr fun later hlater => hnewer later hlater part hpart
  rw [Replay.recorded?, hsteps, List.findSome?_append, hnone, Option.none_or, List.findSome?_cons]
  by_cases heq : part = named
  · rw [if_pos heq, heq, hvalue]
  · rw [if_neg heq, hother part hpart heq, latest?]

/-- What steps before the last naming make of a part: the `latest?` value under its own name, or else its bits in the
widest of the parts listed before the one that was named last. -/
def outdated? (parts : List RegisterPart) (older : List Step) (named part : RegisterPart) : Option Word :=
  (latest? older part.name).or
    (((widerThan parts named).findSome? fun wider => latest? older wider.name).map part.bits)

theorem extract_eq_bits (part : RegisterPart) (value : Word) :
    Replay.extract value part.first part.count = part.bits value := by
  simp [Replay.extract, RegisterPart.bits, Nat.shiftRight_eq_div_pow, Nat.shiftLeft_eq]

section

variable {replay : Replay} {parts : List RegisterPart} {named part : RegisterPart} {value : Word} {older : List Step}

/-- The search for a part that is not recorded finds an `outdated?` wider part first, or else the one that was named
last. -/
theorem LastNamed.findSome?_searched (h : LastNamed replay parts named value older)
    (hparts : parts ∈ replay.arch.generalRegisters) (hnamed : named ∈ parts) (hpart : part ∈ parts)
    (hnarrower : part.Narrower named) :
    (searched parts part).findSome? replay.recorded? =
      some (((widerThan parts named).findSome? fun wider => latest? older wider.name).getD value) := by
  obtain ⟨further, hsearched⟩ := replay.arch.searched_of_narrower parts hparts named hnamed part hpart hnarrower
  have hwider : ((widerThan parts named).map (·.name)).findSome? replay.recorded? =
      (widerThan parts named).findSome? fun wider => latest? older wider.name := by
    rw [List.findSome?_map, ← List.head?_filterMap, ← List.head?_filterMap]
    refine congrArg List.head? (List.filterMap_congr fun wider hwider => ?_)
    have hmem : wider ∈ parts := (List.takeWhile_sublist _).subset hwider
    have hne : wider ≠ named := by simpa using List.mem_takeWhile_imp hwider
    rw [Function.comp_apply, h.recorded? hmem, if_neg hne]
  have hlast : replay.recorded? named.name = some value := by rw [h.recorded? hnamed, if_pos rfl]
  rw [← hsearched, List.append_assoc, List.findSome?_append, hwider, List.singleton_append, List.findSome?_cons, hlast]
  cases (widerThan parts named).findSome? fun wider => latest? older wider.name <;> rfl

/-- The value (`registerValue?`) of a part of the one that was named last. -/
theorem LastNamed.registerValue?_narrower (h : LastNamed replay parts named value older)
    (hparts : parts ∈ replay.arch.generalRegisters) (hnamed : named ∈ parts) (hpart : part ∈ parts)
    (hnarrower : part.Narrower named) :
    replay.registerValue? part.name = some ((outdated? parts older named part).getD (part.bits value)) := by
  have hne : part ≠ named := by
    rintro rfl
    exact Nat.lt_irrefl _ hnarrower.2.2
  rw [Replay.registerValue?, h.recorded? hpart, if_neg hne, outdated?]
  cases latest? older part.name with
  | some old => rfl
  | none =>
      obtain ⟨group, hgroup, hnames⟩ := Option.map_eq_some_iff.mp (replay.arch.group?_of_part parts hparts part hpart)
      have hcanonical : group.canonical = (parts.map (·.name)).headD "" := by rw [← hnames]; rfl
      have hbits := replay.arch.bitsOf?_of_part parts hparts part hpart named hnamed hnarrower
      have hfound := h.findSome?_searched hparts hnamed hpart hnarrower
      rw [searched, ← hnames] at hfound
      simp only [hgroup, hcanonical, hbits, hfound, Option.getD_some, extract_eq_bits, Option.none_or]
      cases (widerThan parts named).findSome? fun wider => latest? older wider.name <;> rfl

theorem evaluate_eq_ok_iff_of_part (hparts : parts ∈ replay.arch.generalRegisters) {part : RegisterPart}
    (hpart : part ∈ parts) {result : Word} :
    Backend.evaluate replay (Decode.registerExpression part.name) = .ok result ↔
      replay.registerValue? part.name = some result := by
  show Replay.evaluate replay ("$" ++ part.name) = .ok result ↔ _
  rw [Replay.evaluate, Expr.evaluate_register _ (replay.arch.all_isNameChar_of_part parts hparts part hpart)]
  cases replay.registerValue? part.name <;> simp

end

/-- **When the parts of a register are up to date.** Let the latest step that names a general register name one of its
parts only. That part has the value that was named. A narrower part has its bits of this value exactly if older steps
say nothing else of it: neither under its own name, nor, if they have not recorded that, under the widest name that is
wider than the part named last. -/
theorem evaluate_narrower_iff (replay : Replay) (parts : List RegisterPart)
    (hparts : parts ∈ replay.arch.generalRegisters) (named : RegisterPart) (hnamed : named ∈ parts)
    (value : Word) (older : List Step) (hlast : LastNamed replay parts named value older) :
    Backend.evaluate replay (Decode.registerExpression named.name) = .ok value ∧
      ∀ part ∈ parts, part.Narrower named →
        (Backend.evaluate replay (Decode.registerExpression part.name) = .ok (part.bits value) ↔
          ∀ old ∈ outdated? parts older named part, old = part.bits value) := by
  constructor
  · rw [evaluate_eq_ok_iff_of_part hparts hnamed, Replay.registerValue?, hlast.recorded? hnamed, if_pos rfl]
  · intro part hpart hnarrower
    rw [evaluate_eq_ok_iff_of_part hparts hpart, hlast.registerValue?_narrower hparts hnamed hpart hnarrower]
    cases outdated? parts older named part <;> simp

/-- A recording whose older step names a register and its low byte, and whose newer one a half that agrees with both. -/
def agreeing : Recording where
  archName := "i386:x86-64"
  steps :=
    [{ pc := 0x1000, asm := "nop", registers := .ofList [("r9", 0xffff000000001177), ("r9b", 0x77)] },
      { pc := 0x1001, asm := "nop", registers := .ofList [("r9d", 0xaaaa1177), ("rax", 1)] }]

/-- The parts of the ninth register. -/
def ninth : List RegisterPart := [⟨"r9", 0, 64⟩, ⟨"r9d", 0, 32⟩, ⟨"r9w", 0, 16⟩, ⟨"r9b", 0, 8⟩, ⟨"r9l", 0, 8⟩]

/-- `evaluate_narrower_iff` where older steps agree: the parts are up to date. -/
theorem evaluate_narrower_iff_at_agreeing :
    ∃ replay older, Replay.ofRecording agreeing = .ok replay ∧ ninth ∈ replay.arch.generalRegisters ∧
      LastNamed replay ninth ⟨"r9d", 0, 32⟩ 0xaaaa1177 older ∧
      Backend.evaluate replay (Decode.registerExpression "r9d") = .ok 0xaaaa1177 ∧
      Backend.evaluate replay (Decode.registerExpression "r9w") = .ok 0x1177 ∧
      Backend.evaluate replay (Decode.registerExpression "r9b") = .ok 0x77 := by
  have hopen : ∃ replay ∈ (Replay.ofRecording agreeing).toOption,
      replay.current :: replay.past = agreeing.steps.reverse ∧ ninth ∈ replay.arch.generalRegisters := by
    decide +kernel
  obtain ⟨replay, hreplay, hsteps, hninth⟩ := hopen
  have hlast : LastNamed replay ninth ⟨"r9d", 0, 32⟩ 0xaaaa1177 (agreeing.steps.take 1) :=
    ⟨[], _, hsteps, by simp, by decide, by decide⟩
  have hnamed : (⟨"r9d", 0, 32⟩ : RegisterPart) ∈ ninth := by decide
  obtain ⟨hwhole, hparts⟩ := evaluate_narrower_iff replay ninth hninth _ hnamed _ _ hlast
  have hagrees {part : RegisterPart}
      (h : outdated? ninth (agreeing.steps.take 1) ⟨"r9d", 0, 32⟩ part = some (part.bits 0xaaaa1177)) :
      ∀ old ∈ outdated? ninth (agreeing.steps.take 1) ⟨"r9d", 0, 32⟩ part, old = part.bits 0xaaaa1177 := by
    rw [h]
    exact fun old hold => (Option.some.inj hold).symm
  refine ⟨replay, _, Except.eq_ok_of_mem_toOption hreplay, hninth, hlast, hwhole, ?_, ?_⟩
  · exact (hparts ⟨"r9w", 0, 16⟩ (by decide) (by decide)).mpr (hagrees (by decide))
  · exact (hparts ⟨"r9b", 0, 8⟩ (by decide) (by decide)).mpr (hagrees (by decide))

/-- A recording that first names the low byte of one register and the whole of another, and then the whole of the one
and the lower half of the other. -/
def renamed : Recording where
  archName := "i386"
  steps :=
    [{ pc := 0x1000, asm := "mov al,0x5", registers := .ofList [("al", 5), ("ebx", 0x11112222)] },
      { pc := 0x1002, asm := "nop", registers := .ofList [("eax", 0x1234), ("bx", 0x3344)] }]

/-- Both low bytes keep their old values, though the latest step gives them new ones. -/
theorem low_bytes_stale :
    ∃ replay older, Replay.ofRecording renamed = .ok replay ∧
      lettered "a" ∈ replay.arch.generalRegisters ∧ lettered "b" ∈ replay.arch.generalRegisters ∧
      LastNamed replay (lettered "a") ⟨"eax", 0, 32⟩ 0x1234 older ∧
      (⟨"al", 0, 8⟩ : RegisterPart).bits 0x1234 = 0x34 ∧
      Backend.evaluate replay (Decode.registerExpression "al") = .ok 5 ∧
      LastNamed replay (lettered "b") ⟨"bx", 0, 16⟩ 0x3344 older ∧
      (⟨"bl", 0, 8⟩ : RegisterPart).bits 0x3344 = 0x44 ∧
      Backend.evaluate replay (Decode.registerExpression "bl") = .ok 0x22 := by
  have hopen : ∃ replay ∈ (Replay.ofRecording renamed).toOption,
      replay.current :: replay.past = renamed.steps.reverse ∧ lettered "a" ∈ replay.arch.generalRegisters ∧
        lettered "b" ∈ replay.arch.generalRegisters ∧ replay.registerValue? "al" = some 5 ∧
        replay.registerValue? "bl" = some 0x22 := by
    decide +kernel
  obtain ⟨replay, hreplay, hsteps, ha, hb, hal, hbl⟩ := hopen
  have hlow : (⟨"al", 0, 8⟩ : RegisterPart) ∈ lettered "a" := by decide
  have hlow' : (⟨"bl", 0, 8⟩ : RegisterPart) ∈ lettered "b" := by decide
  refine ⟨replay, renamed.steps.take 1, Except.eq_ok_of_mem_toOption hreplay, ha, hb,
    ⟨[], _, hsteps, by simp, by decide, by decide⟩, by decide, ?_,
    ⟨[], _, hsteps, by simp, by decide, by decide⟩, by decide, ?_⟩
  · exact (evaluate_eq_ok_iff_of_part ha hlow).mpr hal
  · exact (evaluate_eq_ok_iff_of_part hb hlow').mpr hbl

end TraceSlice
