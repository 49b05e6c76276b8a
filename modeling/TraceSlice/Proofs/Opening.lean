import TraceSlice.Proofs.Walk
import TraceSlice.Session.Triage

/-!
# How sessions begin

A plain session (`Session.start`) stands on the current step of its recording and has found nothing. A crashed one
(`Slicer.crashed`) has been seeded there: if the signal blames an instruction, that instruction is all that the slice
holds. Unless the signal says nothing, the session then takes one step back, past the instruction to blame, and the
start hooks are run.

All that `Session.seed` can do is said once (`seed_cases`), and so is what a crashed session is made of
(`crashed_of_seed`, `crashed_inv`). What `Session.triage` preserves follows from its steps (`triage_induction`). A
session without hooks that has just been started, plain or from a crash, is `Fresh`: it follows nothing, and tracks
nothing that carries a hook (`Fresh.hookFree`).
-/

theorem Except.eq_ok_of_mem_toOption {ε α : Type} {x : Except ε α} {a : α} (h : a ∈ x.toOption) : x = .ok a := by
  cases x with
  | error => cases h
  | ok => rw [Option.some.inj h]

namespace TraceSlice

/-- Does the signal blame the instruction at which the program ended? -/
def SeedReport.blamesInstruction : SeedReport → Bool
  | .invalidAccess .. | .arithmetic .. => true
  | _ => false

theorem SeedReport.isHandled_of_blames {report : SeedReport} (h : report.blamesInstruction = true) :
    report.isHandled = true := by
  cases report <;> first | rfl | cases h

theorem Replay.signal_of_ofRecording {recording : Recording} {replay : Replay}
    (h : Replay.ofRecording recording = .ok replay) : replay.process.signal = recording.signal := by
  obtain ⟨arch, newest, older, -, -, rfl⟩ := ofRecording_inv h
  rfl

namespace Session

section

variable {β : Type} [Backend β] {s t : Session β} {report : SeedReport}

/-! ### Seeding -/

/-- The session that has been told the signal. -/
def told (s : Session β) (signal : Signal) : Session β :=
  { s with slice := { s.slice with signal := some signal } }

/-- What `seed` can do: nothing after an abort or a signal that says nothing, and else track the instruction pointer
or what the instruction at hand is to blame for. -/
theorem seed_cases (h : s.seed = .ok (report, t)) : ∃ signal,
    (signal = .abort ∧ report = .abort ∧ t = s.told signal) ∨
      ∃ pc, Backend.programCounter s.backend = .ok pc ∧
        ((∃ register, report = .invalidProgramCounter pc ∧
            t = { ((s.told signal).withPc pc).addOperands [.ofRegister register pc] with monitorStack := true }) ∨
          ((s.told signal).withPc pc).seedFault signal pc = (report, t) ∨
          (report = .unhandled signal ∧ t = (s.told signal).withPc pc)) := by
  unfold seed at h
  split at h
  · cases h
  · next number _ =>
      refine ⟨Signal.ofNumber number, ?_⟩
      dsimp only at h
      split at h
      · -- an abort is told before the counter is read
        next habort =>
          cases h
          exact .inl ⟨habort, rfl, rfl⟩
      · split at h
        · cases h
        · next pc hpc =>
            refine .inr ⟨pc, hpc, ?_⟩
            split at h
            · unfold seedInvalidPc at h
              dsimp only at h
              split at h
              · cases h
              · next register _ =>
                  cases h
                  exact .inl ⟨register, rfl, rfl⟩
            · split at h
              · exact .inr (.inl (Except.ok.inj h))
              · cases h
                exact .inr (.inr ⟨rfl, rfl⟩)

theorem seedFault_kept {signal : Signal} {pc : Word} (h : s.seedFault signal pc = (report, t)) :
    report.blamesInstruction = true ∧ t.backend = s.backend ∧ t.slice.pc = s.slice.pc ∧
      t.slice.instructions = s.slice.instructions ++ [s.locate (s.instructionAt pc)] := by
  have hreport : (s.seedFault signal pc).1 = report := congrArg Prod.fst h
  have ht : (s.seedFault signal pc).2 = t := congrArg Prod.snd h
  refine ⟨?_, ht ▸ rfl, ht ▸ rfl, ht ▸ rfl⟩
  rw [← hreport, seedFault]
  dsimp only
  split <;> rfl

/-- `seed` tracks more, none of it with a hook, and leaves alone what is followed. -/
theorem seed_extends (h : s.seed = .ok (report, t)) :
    ∃ operands : List Operand, (∀ o ∈ operands, o.hook = none) ∧
      t.slice.tracked = s.slice.tracked.extend operands ∧ t.slice.followed = s.slice.followed := by
  obtain ⟨signal, ⟨-, -, rfl⟩ | ⟨pc, -, ⟨register, -, rfl⟩ | hfault | ⟨-, rfl⟩⟩⟩ := seed_cases h
  · exact ⟨[], by simp, rfl, rfl⟩
  · exact ⟨[.ofRegister register pc], by simp [Operand.ofRegister], rfl, rfl⟩
  · rw [← show _ = t from congrArg Prod.snd hfault, seedFault]
    refine ⟨_, fun o ho => ?_, Tracked.insertAll_fst .., rfl⟩
    obtain ⟨source, hsource, rfl⟩ := List.mem_map.mp (List.mem_filter.mp ho).1
    rw [hook_withSymbol]
    exact hook_of_mem_instructionAt source hsource
  · exact ⟨[], by simp, rfl, rfl⟩

/-! ### The triage -/

/-- A property that `reverseStep` preserves holds wherever a search back ends. -/
theorem rewind_induction {motive : Session β → Prop} (hs : motive s)
    (back : ∀ u : Session β, motive u → motive u.reverseStep.1) (test : String → Bool) : motive (s.rewind test).1 := by
  unfold rewind
  generalize Backend.position s.backend + 1 = fuel
  -- every round steps back once before it can end
  induction fuel generalizing s with
  | zero => exact hs
  | succ fuel ih =>
      have hback := back s hs
      rw [rewindUntil]
      split
      · next heq =>
          rw [heq] at hback
          exact hback
      · next heq =>
          rw [heq] at hback
          exact hback
      · next heq =>
          rw [heq] at hback
          split
          · exact hback
          · split
            · exact hback
            · exact ih hback

/-- Nor does `findCheck` do anything but step back. -/
theorem findCheck_induction {motive : Session β → Prop} (hs : motive s)
    (back : ∀ u : Session β, motive u → motive u.reverseStep.1) : motive s.findCheck.1 := by
  unfold findCheck
  split
  · exact hs
  · split
    · exact hs
    · next corruption _ =>
        -- two rewinds in a row: to the call, then from there to the check
        have hcall := rewind_induction hs back (isCallOf corruption.function)
        split
        · next called heq =>
            rw [heq] at hcall
            have hcheck := rewind_induction hcall back (firstWord · == corruption.trigger)
            split
            · next heq =>
                rw [heq] at hcheck
                exact hcheck
            · next heq =>
                rw [heq] at hcheck
                exact hcheck
        · next heq =>
            rw [heq] at hcall
            exact hcall

/-- The triage finds the failed check and seeds from it (`seedCheck`), or stays where `findCheck` ended. -/
theorem triage_cases (s : Session β) :
    (∃ corruption t, s.findCheck = (t, some corruption) ∧ s.triage = t.seedCheck corruption) ∨
      ∃ t, s.findCheck = (t, none) ∧ s.triage = t := by
  unfold triage
  cases hfind : s.findCheck with
  | mk t corruption =>
      cases corruption with
      | none => exact .inr ⟨t, rfl, rfl⟩
      | some corruption => exact .inl ⟨corruption, t, rfl, rfl⟩

/-- What `seedCheck` makes of a session: nothing if it is not known where the backend stands, and else the check joins
the slice, hooks are attached and the session steps back. -/
theorem seedCheck_cases (s : Session β) (corruption : Corruption) :
    s.seedCheck corruption = s ∨
      ∃ pc, Backend.programCounter s.backend = .ok pc ∧
        s.seedCheck corruption =
          (((s.withPc pc).joined ((s.withPc pc).instructionAt pc)).attachTrace corruption).reverseStep.1 := by
  unfold seedCheck
  obtain ⟨err, -, hadd⟩ | ⟨pc, hpc, hadd⟩ := s.addCurrentInstruction_cases
  · rw [hadd]
    exact .inl rfl
  · rw [hadd]
    exact .inr ⟨pc, hpc, rfl⟩

/-- A property that the steps of `triage` preserve holds after it. -/
theorem triage_induction {motive : Session β → Prop} (hs : motive s)
    (back : ∀ u : Session β, motive u → motive u.reverseStep.1)
    (join : ∀ (u : Session β) pc, Backend.programCounter u.backend = .ok pc → motive u →
      motive ((u.withPc pc).joined ((u.withPc pc).instructionAt pc)))
    (attach : ∀ (u : Session β) corruption, motive u → motive (u.attachTrace corruption)) : motive s.triage := by
  have hfound := findCheck_induction hs back
  obtain ⟨corruption, t, hfind, htriage⟩ | ⟨t, hfind, htriage⟩ := s.triage_cases
  · rw [hfind] at hfound
    obtain hseed | ⟨pc, hpc, hseed⟩ := t.seedCheck_cases corruption
    · rw [htriage, hseed]
      exact hfound
    · rw [htriage, hseed]
      exact back _ (attach _ _ (join t pc hpc hfound))
  · rw [hfind] at hfound
    rw [htriage]
    exact hfound

theorem tracked_start {backend : β} {config : Config} (h : Session.start backend config = .ok s) :
    s.slice.tracked = {} := by
  unfold start at h
  split at h
  · cases h
  · split at h
    · cases h
    · cases h
      rfl

end

/-! ### Over a recording -/

variable {replay : Replay} {config : Config} {s t : Session Replay} {report : SeedReport}

/-- The instruction that a session looks at, as it joins a slice (`locate`). -/
def entry (s : Session Replay) : Instruction := s.locate (s.instructionAt s.slice.pc)

/-- A plain session holds nothing but its backend and configuration. -/
theorem start_eq (h : Session.start replay config = .ok s) :
    ∃ arch, s =
      { backend := replay, arch, config, monitorStack := config.monitorStack,
        slice := { pc := replay.current.pc } } := by
  unfold Session.start at h
  simp only [Backend.programCounter] at h
  split at h
  · cases h
  · next arch _ =>
      cases h
      exact ⟨arch, rfl⟩

theorem aligned_of_start (h : Session.start replay config = .ok s) : s.Aligned := by
  obtain ⟨arch, rfl⟩ := start_eq h
  rfl

/-- `Slicer.crashed` seeds. If the signal says something (`isHandled`), it steps back and runs the start hooks. -/
theorem crashed_of_seed (hooks : Hooks) (hstart : Session.start replay config = .ok s)
    (hseed : s.seed = .ok (report, t)) :
    Slicer.crashed replay hooks config =
      .ok (⟨if report.isHandled then hooks.onStart.foldl runStartHook t.backed else t, hooks⟩, report) := by
  unfold Slicer.crashed
  rw [hstart]
  dsimp only
  rw [hseed]
  dsimp only
  rw [reverseStep_eq]
  cases report.isHandled <;> rfl

theorem crashed_inv {hooks : Hooks} {slicer : Slicer Replay}
    (h : Slicer.crashed replay hooks config = .ok (slicer, report)) :
    ∃ started seeded, Session.start replay config = .ok started ∧ started.seed = .ok (report, seeded) ∧
      slicer = ⟨if report.isHandled then hooks.onStart.foldl runStartHook seeded.backed else seeded, hooks⟩ := by
  cases hstart : Session.start replay config with
  | error err => simp [Slicer.crashed, hstart] at h
  | ok started =>
      cases hseed : started.seed with
      | error err => simp [Slicer.crashed, hstart, hseed] at h
      | ok result =>
          obtain ⟨seen, seeded⟩ := result
          rw [crashed_of_seed hooks hstart hseed] at h
          cases h
          exact ⟨started, seeded, rfl, hseed, rfl⟩

/-- Without hooks, that is all. -/
theorem crashed_eq {slicer : Slicer Replay}
    (h : Slicer.crashed replay {} config = .ok (slicer, report)) :
    ∃ started seeded, Session.start replay config = .ok started ∧
      started.seed = .ok (report, seeded) ∧
      slicer.session = if report.isHandled then seeded.backed else seeded := by
  obtain ⟨started, seeded, hstart, hseed, rfl⟩ := crashed_inv h
  exact ⟨started, seeded, hstart, hseed, rfl⟩

/-- `seed` leaves a session where it is, and puts the instruction there into the slice if the signal blames it
(`blamesInstruction`). -/
theorem seed_kept (ha : s.Aligned) (h : s.seed = .ok (report, t)) :
    t.backend = s.backend ∧ t.Aligned ∧
      t.slice.instructions =
        s.slice.instructions ++ if report.blamesInstruction then [s.entry] else [] := by
  have hpc : s.slice.pc = s.backend.current.pc := ha
  obtain ⟨signal, ⟨-, rfl, rfl⟩ | ⟨pc, hcurrent, hrest⟩⟩ := seed_cases h
  · exact ⟨rfl, ha, by simp [SeedReport.blamesInstruction, told]⟩
  · obtain rfl := Except.ok.inj hcurrent
    obtain ⟨register, rfl, rfl⟩ | hfault | ⟨rfl, rfl⟩ := hrest
    · exact ⟨rfl, rfl, by simp [SeedReport.blamesInstruction, told, addOperands, withPc]⟩
    · obtain ⟨hblames, hbackend, hpc', hinsns⟩ := seedFault_kept hfault
      refine ⟨hbackend, ?_, ?_⟩
      · rw [Aligned, hpc', hbackend]
        rfl
      · rw [hinsns, hblames, entry, hpc]
        rfl
    · exact ⟨rfl, rfl, by simp [SeedReport.blamesInstruction, told, withPc]⟩

/-! ### Fresh sessions -/

/-- A session without hooks that has just been started, plain or from a crash. -/
inductive Fresh : Session Replay → Prop
  | plain {replay : Replay} {config : Config} {s : Session Replay}
      (h : Session.start replay config = .ok s) : Fresh s
  | crashed {replay : Replay} {config : Config} {slicer : Slicer Replay} {report : SeedReport}
      (h : Slicer.crashed replay {} config = .ok (slicer, report)) : Fresh slicer.session

/-- A `Fresh` session tracks what it was seeded with, none of it with a hook, and follows nothing. -/
theorem Fresh.seeded (h : s.Fresh) :
    ∃ operands : List Operand, (∀ o ∈ operands, o.hook = none) ∧
      s.slice.tracked = ({} : Tracked).extend operands ∧ s.slice.followed = none := by
  cases h with
  | plain h =>
      obtain ⟨arch, rfl⟩ := start_eq h
      exact ⟨[], by simp, rfl, rfl⟩
  | crashed h =>
      obtain ⟨started, seeded, hstart, hseed, hsession⟩ := crashed_eq h
      obtain ⟨operands, hhook, htracked, hfollowed⟩ := seed_extends hseed
      obtain ⟨arch, rfl⟩ := start_eq hstart
      rw [hsession]
      split
      · exact ⟨operands, hhook, htracked, hfollowed⟩
      · exact ⟨operands, hhook, htracked, hfollowed⟩

theorem Fresh.hookFree (h : s.Fresh) : s.HookFree := by
  obtain ⟨operands, hhook, htracked, -⟩ := h.seeded
  intro o ho
  rw [htracked] at ho
  rcases Tracked.mem_toList_extend ho with ho | ⟨ho, -⟩
  · exact absurd ho List.not_mem_nil
  · exact hhook o ho

/-- A plain session on the newest step of a recording. -/
def ofRecording? (recording : Recording) (config : Config) : Option (Session Replay) :=
  (Replay.ofRecording recording).toOption.bind fun replay => (start replay config).toOption

theorem fresh_of_ofRecording? {recording : Recording} (h : s ∈ ofRecording? recording config) : s.Fresh := by
  obtain ⟨replay, -, hs⟩ := Option.bind_eq_some_iff.mp h
  exact .plain (Except.eq_ok_of_mem_toOption hs)

end Session

/-- One step that copies the stack pointer, the smallest recording of an instruction that reads a register
that is not tracked. -/
def stackCopy : Recording where
  archName := "i386"
  steps := [{ pc := 0x1000, asm := "mov eax,esp", registers := .ofList [("eax", 1), ("esp", 0x2000)] }]

end TraceSlice
