import TraceSlice.Proofs.Course
import TraceSlice.Proofs.Future
import TraceSlice.Proofs.Opening
import TraceSlice.Proofs.Prefixes

/-!
# Stepping back from an instruction that repeats

Whether the instruction at hand repeats in place matters only for a step back that leaves the program counter where it
is and changes the counter register (`Recounts`). A session remembers this of the instruction it decoded last
(`Session.decoded`); of any other it looks at how the text starts (`repeatsAt`). What it remembers stays right
whatever is done to the session (`Recalls.operate`), so decoding the instruction at hand first changes the answer of a
step back exactly if the start of the text is misread (`reverseStep_decoding_iff`), and never where the step leads.
-/

namespace TraceSlice

/-- The words of the instruction at `pc`, without its comment (`splitComment`). -/
def Replay.wordsAt (replay : Replay) (pc : Word) : List (List Char) :=
  Text.words (Decode.splitComment ((Backend.disassemble replay pc).toOption.getD "").toList).1

theorem Replay.wordsAt_congr {replay other : Replay} (h : other.steps = replay.steps) (pc : Word) :
    other.wordsAt pc = replay.wordsAt pc := by
  simp only [wordsAt, Backend.disassemble, instructionAt?, h]

namespace Session

variable {hooks : List Hook} {mode : StepMode} {s t : Session Replay}

/-! ### What is remembered stays right -/

theorem isRepeating_instructionAt (s : Session Replay) (pc : Word) :
    (s.instructionAt pc).isRepeating = (Decode.peeled (s.backend.wordsAt pc)).any Decode.isRepeatWord :=
  Decode.isRepeating_decode ..

/-- What was `decoded` last is what decoding it again would give. -/
def Recalls (s : Session Replay) : Prop :=
  ∀ pc repeating, s.decoded = some (pc, repeating) → (s.instructionAt pc).isRepeating = repeating

theorem recalls_of_none (h : s.decoded = none) : s.Recalls := by
  intro pc repeating hdecoded
  rw [h] at hdecoded
  cases hdecoded

/-- Moving about in a recording does not change its instructions. -/
theorem Recalls.congr (h : s.Recalls) (hsteps : t.backend.steps = s.backend.steps) (hdecoded : t.decoded = s.decoded) :
    t.Recalls := by
  intro pc repeating ht
  rw [isRepeating_instructionAt, Replay.wordsAt_congr hsteps, ← isRepeating_instructionAt]
  exact h pc repeating (hdecoded.symm.trans ht)

theorem pc_instructionAt {β : Type} [Backend β] (s : Session β) (pc : Word) : (s.instructionAt pc).pc = pc := by
  unfold instructionAt Decode.decode
  dsimp only
  split <;> rfl

theorem recalls_remember (s : Session Replay) (pc : Word) : (s.remember (s.instructionAt pc)).Recalls := by
  intro pc' repeating hdecoded
  obtain ⟨rfl, rfl⟩ := Prod.mk.inj (Option.some.inj hdecoded)
  rw [pc_instructionAt]
  rfl

theorem Recalls.backed (h : s.Recalls) : s.backed.Recalls := h.congr s.backend.steps_back rfl

theorem recalls_meet (s : Session Replay) (hooks : List Hook) : (s.meet hooks).session.Recalls := by
  have hstand := s.meet_sameStand hooks
  exact (s.recalls_remember _).congr (congrArg Replay.steps hstand.backend) hstand.decoded

theorem Recalls.turn (h : s.Recalls) {outcome : Option Outcome} (hturn : Turn hooks mode s t outcome) :
    t.Recalls := by
  rcases hturn.eq_cases with rfl | rfl | rfl
  · exact h
  · exact s.recalls_meet hooks
  · exact (s.recalls_meet hooks).backed

theorem Recalls.compute (h : s.Recalls) (hooks : List Hook) (mode : StepMode) : (s.compute hooks mode).1.Recalls :=
  compute_induction h (fun h => h.congr rfl rfl) fun _ _ _ h hturn => h.turn hturn

theorem Recalls.served (h : s.Recalls) (hserved : s.Served t) : t.Recalls := by
  cases hserved with
  | @joins pc => exact (recalls_remember (s.withPc pc) pc).congr rfl rfl
  | steps =>
      rw [reverseStep_eq]
      exact h.backed
  | _ => exact h.congr rfl rfl

theorem Recalls.seed (h : s.Recalls) {report : SeedReport} (hseed : s.seed = .ok (report, t)) : t.Recalls := by
  obtain ⟨signal, ⟨-, -, rfl⟩ | ⟨pc, -, ⟨register, -, rfl⟩ | hfault | ⟨-, rfl⟩⟩⟩ := seed_cases hseed
  · exact h.congr rfl rfl
  · exact h.congr rfl rfl
  · rw [← show _ = t from congrArg Prod.snd hfault]
    exact (recalls_remember ((s.told signal).withPc pc) pc).congr rfl rfl
  · exact h.congr rfl rfl

/-- What is remembered stays right, as long as the backend stays within its recording (`WithinRecording`). -/
theorem Recalls.operate (h : s.Recalls) {op : Operation Replay} (hop : op.WithinRecording) :
    (s.operate op).Recalls := by
  by_cases hstep : op.InStep
  · exact operate_induction hstep h (fun _ _ hserved hu => hu.served hserved)
      (fun _ hooks mode hu => hu.compute hooks mode) (fun _ _ _ hseed hu => hu.seed hseed)
      (fun u pc _ => u.recalls_remember pc) fun _ _ _ _ hu => hu.congr rfl rfl
  · cases op with
    | move f => exact h.congr (hop s.backend) rfl
    | other f hf => exact hop.elim
    | _ => exact absurd trivial hstep

theorem ArisesBy.recalls (h : s.ArisesBy Operation.WithinRecording) : s.Recalls := by
  refine h.induction (fun replay config started hstart => ?_) fun _ _ hop ht => ht.operate hop
  obtain ⟨arch, rfl⟩ := start_eq hstart
  exact recalls_of_none rfl

/-! ### Decoding before stepping back -/

/-- The session after decoding the instruction that it looks at. -/
def decoding (s : Session Replay) : Session Replay := s.remember (s.instructionAt s.slice.pc)

/-- The session remembers the instruction at the address. -/
def Remembers (s : Session Replay) (pc : Word) : Prop := ∃ repeating, s.decoded = some (pc, repeating)

/-- The step back from here is progress only if the instruction repeats: it leaves the program counter where it is and
changes the counter register (`counter?`). -/
def Recounts (s : Session Replay) : Prop :=
  s.backend.back.current.pc = s.slice.pc ∧ s.counter?.isSome = true ∧ s.backed.counter? ≠ s.counter?

theorem backed_decoding (s : Session Replay) :
    s.decoding.backed = { s.backed with decoded := s.decoding.decoded } := rfl

theorem decoded_decoding (s : Session Replay) :
    s.decoding.decoded = some (s.slice.pc, (s.instructionAt s.slice.pc).isRepeating) := by
  show some ((s.instructionAt s.slice.pc).pc, _) = _
  rw [pc_instructionAt]

theorem repeatsAt_of_remembered {pc : Word} {repeating : Bool} (h : s.decoded = some (pc, repeating)) :
    s.repeatsAt pc = repeating := by
  simp [repeatsAt, h]

/-- Of an instruction that is not remembered, the first word decides (`isRepeatWord`). -/
theorem repeatsAt_of_not_remembers {pc : Word} (h : ¬s.Remembers pc) :
    s.repeatsAt pc = (s.backend.wordsAt pc).head?.any Decode.isRepeatWord := by
  have htext : s.repeatsAt pc = Instruction.isRepeatPrefix (String.ofList (Text.trimStart
      ((Backend.disassemble s.backend pc).toOption.getD "").toList)) := by
    unfold repeatsAt
    cases hdecoded : s.decoded with
    | none => cases Backend.disassemble s.backend pc <;> rfl
    | some known =>
        obtain ⟨address, repeating⟩ := known
        have hother : address ≠ pc := fun heq => h ⟨repeating, heq ▸ hdecoded⟩
        simp only [if_neg hother]
        cases Backend.disassemble s.backend pc <;> rfl
  rw [htext, Decode.isRepeatPrefix_trimStart, Replay.wordsAt]

/-- Decoding first matters only where the instruction has to repeat for progress (`Recounts`). -/
theorem moves_decoding_iff : s.decoding.moves = s.moves ↔
    (s.Recounts → s.backed.repeatsAt s.slice.pc = (s.instructionAt s.slice.pc).isRepeating) := by
  have hrepeats : s.decoding.backed.repeatsAt s.slice.pc = (s.instructionAt s.slice.pc).isRepeating :=
    repeatsAt_of_remembered s.decoded_decoding
  have hmoves : s.decoding.moves = (s.backed.slice.pc != s.slice.pc ||
      ((s.instructionAt s.slice.pc).isRepeating && s.counter?.isSome && s.backed.counter? != s.counter?)) := by
    rw [← hrepeats]
    rfl
  rw [hmoves, moves]
  -- one Boolean is different on the two sides, and counts only if all others leave it to that one
  by_cases hpc : s.backed.slice.pc = s.slice.pc
  · have hback : s.backend.back.current.pc = s.slice.pc := hpc
    cases hknown : s.counter?.isSome with
    | false => simp [Recounts, hknown]
    | true =>
        by_cases hsame : s.backed.counter? = s.counter?
        · simp [Recounts, hsame]
        · simp [Recounts, hpc, hback, hknown, hsame, bne_iff_ne.mpr hsame, eq_comm]
  · have hback : s.backend.back.current.pc ≠ s.slice.pc := hpc
    simp [Recounts, bne_iff_ne.mpr hpc, hback]

theorem Recalls.repeatsAt_eq_iff (h : s.Recalls) :
    s.backed.repeatsAt s.slice.pc = (s.instructionAt s.slice.pc).isRepeating ↔
      s.Remembers s.slice.pc ∨ ¬Decode.Misread (s.backend.wordsAt s.slice.pc) := by
  by_cases hknown : s.Remembers s.slice.pc
  · obtain ⟨repeating, hdecoded⟩ := hknown
    rw [repeatsAt_of_remembered (s := s.backed) hdecoded, h _ _ hdecoded]
    simp [Remembers, hdecoded]
  · have hwords : s.backed.backend.wordsAt s.slice.pc = s.backend.wordsAt s.slice.pc :=
      Replay.wordsAt_congr s.backend.steps_back _
    rw [repeatsAt_of_not_remembers (s := s.backed) hknown, isRepeating_instructionAt, hwords, Decode.misread_iff,
      not_not]
    simp [hknown]

/-- **Decoding before stepping back.** It leaves the session where it would have been, apart from what is remembered.
It changes the answer exactly if only an instruction that repeats would make the step progress, the instruction is not
the one decoded last, and the start of its text is misread: a prefix that repeats is buried behind others, or the first
word only looks like one. For these texts, and no others, looking at the start and decoding disagree. -/
theorem reverseStep_decoding_iff (s : Session Replay) (h : s.ArisesBy Operation.WithinRecording) :
    s.decoding.reverseStep.1 = { s.reverseStep.1 with decoded := s.decoding.decoded } ∧
      (s.decoding.reverseStep.2 = s.reverseStep.2 ↔
        ¬(s.Recounts ∧ ¬s.Remembers s.slice.pc ∧ Decode.Misread (s.backend.wordsAt s.slice.pc))) ∧
      ∀ (lastReturn pc : Word) (text : String),
        (Decode.decode s.arch.description (Backend.view s.backend) lastReturn pc text).isRepeating =
            Instruction.isRepeatPrefix (String.ofList (Text.trimStart text.toList)) ↔
          ¬Decode.Misread (Text.words (Decode.splitComment text.toList).1) := by
  refine ⟨?_, ?_, fun lastReturn pc text => Decode.isRepeating_decode_eq_iff ..⟩
  · rw [reverseStep_eq, reverseStep_eq]
    exact s.backed_decoding
  · rw [reverseStep_eq, reverseStep_eq]
    show Except.ok s.decoding.moves = .ok s.moves ↔ _
    rw [Except.ok.injEq, moves_decoding_iff, h.recalls.repeatsAt_eq_iff, not_and, not_and, or_iff_not_imp_left]

end Session

/-- A fill that has got through one round, with a prefix before the one that repeats. -/
def lockedFill : Recording where
  archName := "i386"
  steps :=
    [{ pc := 0x1000, asm := "lock rep stos DWORD PTR es:[edi],eax"
       registers := .ofList [("ecx", 2), ("edi", 0x2000)] },
      { pc := 0x1000, asm := "lock rep stos DWORD PTR es:[edi],eax", registers := .ofList [("ecx", 1)] }]

/-- A prefix that stands alone, while the counter changes. -/
def loneRepeat : Recording where
  archName := "i386"
  steps :=
    [{ pc := 0x1000, asm := "rep", registers := .ofList [("ecx", 2)] },
      { pc := 0x1000, asm := "rep", registers := .ofList [("ecx", 1)] }]

namespace Session

theorem arisesBy_of_ofRecording? {recording : Recording} {config : Config} {s : Session Replay}
    (h : s ∈ ofRecording? recording config) : s.ArisesBy Operation.WithinRecording :=
  (fresh_of_ofRecording? h).arisesBy trivial trivial fun _ => trivial

theorem reverseStep_decoding_iff_at_fill :
    ∃ s ∈ ofRecording? lockedFill {}, s.ArisesBy Operation.WithinRecording ∧ s.Aligned ∧ s.Recounts ∧
      ¬s.Remembers s.slice.pc ∧ Decode.Buried (s.backend.wordsAt s.slice.pc) ∧
      s.decoding.reverseStep.2 ≠ s.reverseStep.2 := by
  have hready : ∃ s ∈ ofRecording? lockedFill {}, s.slice.pc = s.backend.current.pc ∧ s.decoded = none ∧
      (s.backend.back.current.pc = s.slice.pc ∧ s.counter?.isSome = true ∧ s.backed.counter? ≠ s.counter?) ∧
      (s.backend.wordsAt s.slice.pc).head?.any Decode.isRepeatWord = false ∧
      (Decode.peeled (s.backend.wordsAt s.slice.pc)).any Decode.isRepeatWord = true := by
    decide +kernel
  obtain ⟨s, hs, haligned, hdecoded, hrecounts, hwords⟩ := hready
  have hforgot : ¬s.Remembers s.slice.pc := by simp [Remembers, hdecoded]
  have hburied := Decode.buried_iff.mpr hwords
  have harises := arisesBy_of_ofRecording? hs
  refine ⟨s, hs, harises, haligned, hrecounts, hforgot, hburied, fun hsame => ?_⟩
  exact (reverseStep_decoding_iff s harises).2.1.mp hsame ⟨hrecounts, hforgot, .inl hburied⟩

/-- Behind another prefix, the one that repeats is seen only by decoding: without it the step to the earlier round is
taken for the end of history. A prefix that stands alone is seen only at the start of the text. -/
theorem reverseStep_depends_on_decoding :
    (∃ s ∈ ofRecording? lockedFill {}, s.ArisesBy Operation.WithinRecording ∧ s.Aligned ∧
      s.reverseStep.2 = .ok false ∧ s.decoding.reverseStep.2 = .ok true) ∧
    ∃ s ∈ ofRecording? loneRepeat {}, s.ArisesBy Operation.WithinRecording ∧ s.Aligned ∧
      s.reverseStep.2 = .ok true ∧ s.decoding.reverseStep.2 = .ok false := by
  have hfill : ∃ s ∈ ofRecording? lockedFill {}, s.slice.pc = s.backend.current.pc ∧
      s.reverseStep.2 = .ok false ∧ s.decoding.reverseStep.2 = .ok true := by
    decide +kernel
  have hlone : ∃ s ∈ ofRecording? loneRepeat {}, s.slice.pc = s.backend.current.pc ∧
      s.reverseStep.2 = .ok true ∧ s.decoding.reverseStep.2 = .ok false := by
    decide +kernel
  obtain ⟨s, hs, haligned, hstep, hdecoding⟩ := hfill
  obtain ⟨t, ht, haligned', hstep', hdecoding'⟩ := hlone
  exact ⟨⟨s, hs, arisesBy_of_ofRecording? hs, haligned, hstep, hdecoding⟩,
    t, ht, arisesBy_of_ofRecording? ht, haligned', hstep', hdecoding'⟩

end Session

end TraceSlice
