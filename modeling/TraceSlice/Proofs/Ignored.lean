import TraceSlice.Proofs.Faults
import TraceSlice.Proofs.Interruption

/-!
# Pointers that are tracked although they are ignored

Walks never start to track what they ignore: an ignored operand that is tracked after a walk was tracked before it
(`HookFree.tracked_of_ignored_compute`). So whether a crashed session tracks anything that it ignores is settled when
it is seeded. Seeding (`seedFault`) has rules of its own. It turns monitoring on whenever it tracks a pointer, with
one exception: after an arithmetic fault it tracks the registers that form an address, pointers among them, and leaves
monitoring as it is configured. These pointers are **unmonitored** (`Unmonitored`), and a crashed session tracks
nothing else that it ignores (`crashed_tracks_ignored_iff`).
-/

namespace TraceSlice

namespace Session

/-! ### Walks -/

section

variable {mode : StepMode} {s t : Session Replay} {o : Operand}

/-- An ignored operand that is tracked after a `Turn` was tracked before. -/
theorem HookFree.tracked_of_ignored_turn (hfree : s.HookFree) {outcome : Option Outcome}
    (h : Turn [] mode s t outcome) (ho : o ∈ t.slice.tracked.toList) (hignored : s.isIgnored o = true) :
    o ∈ s.slice.tracked.toList := by
  have hmeet : o ∈ (s.meet []).session.slice.tracked.toList → o ∈ s.slice.tracked.toList := by
    refine hfree.meet_induction
      (motive := fun v => o ∈ v.session.slice.tracked.toList → o ∈ s.slice.tracked.toList) (fun _ => id)
      fun _ hmem => ?_
    rcases Tracked.mem_toList_extend hmem with hkept | ⟨hnew, -⟩
    · exact (List.mem_filter.mp hkept).1
    · -- what comes anew is not ignored
      have hnot : (!s.isIgnored o) = true := (List.mem_filter.mp hnew).2
      rw [hignored] at hnot
      cases hnot
  rcases h.eq_cases with rfl | rfl | rfl
  · exact ho
  · exact hmeet ho
  · exact hmeet ho

theorem HookFree.tracked_of_ignored_compute (hfree : s.HookFree)
    (ho : o ∈ (s.compute [] mode).1.slice.tracked.toList) (hignored : s.isIgnored o = true) :
    o ∈ s.slice.tracked.toList := by
  have hall : (s.compute [] mode).1.HookFree ∧ (s.compute [] mode).1.isIgnored = s.isIgnored ∧
      (o ∈ (s.compute [] mode).1.slice.tracked.toList → o ∈ s.slice.tracked.toList) := by
    refine compute_induction
      (motive := fun t => t.HookFree ∧ t.isIgnored = s.isIgnored ∧
        (o ∈ t.slice.tracked.toList → o ∈ s.slice.tracked.toList)) ⟨hfree, rfl, id⟩ id fun t u outcome ht hturn => ?_
    obtain ⟨hfree', hsame, htracked⟩ := ht
    exact ⟨hfree'.turn hturn, hturn.isIgnored.trans hsame, fun hu =>
      htracked (hfree'.tracked_of_ignored_turn hturn hu (by rw [hsame, hignored]))⟩
  exact hall.2.2 ho

/-- However many walks there are, the ignored operands that are tracked after them were tracked before. -/
theorem HookFree.tracked_of_ignored_computes (hfree : s.HookFree) (modes : List StepMode)
    (ho : o ∈ (s.serveAll (modes.map .compute)).slice.tracked.toList)
    (hignored : (s.serveAll (modes.map .compute)).isIgnored o = true) :
    o ∈ s.slice.tracked.toList ∧ s.isIgnored o = true := by
  induction modes generalizing s with
  | nil => exact ⟨ho, hignored⟩
  | cons mode modes ih =>
      obtain ⟨ho, hignored⟩ := ih hfree.compute ho hignored
      rw [show (s.compute [] mode).1.isIgnored = s.isIgnored from s.isIgnored_serve (.compute mode)] at hignored
      exact ⟨hfree.tracked_of_ignored_compute ho hignored, hignored⟩

/-- An operand that names storage `isIgnored` exactly if it is a pointer that is not monitored. -/
theorem isIgnored_eq_of_placed (h : o.isImmediate = false) : s.isIgnored o = (!s.monitorStack && s.isPointer o) := by
  unfold isIgnored isPointer
  rw [h, Bool.false_or]
  cases o.register? with
  | none => simp
  | some r => rfl

end

/-! ### Seeding -/

section

variable {s : Session Replay} {signal : Signal} {pc : Word} {o : Operand}

/-- What the instruction at `pc` is blamed for (`suspects`). -/
def suspectsAt (s : Session Replay) (signal : Signal) (pc : Word) : List Operand :=
  let insn := s.locate (s.instructionAt pc)
  suspects (!(signal == .floatingPoint) && isStackFault insn.mnemonic) insn

theorem tracked_seedFault :
    (s.seedFault signal pc).2.slice.tracked = s.slice.tracked.extend (s.suspectsAt signal pc) :=
  Tracked.insertAll_fst _ _

theorem monitorStack_seedFault : (s.seedFault signal pc).2.monitorStack =
    (s.monitorStack || !(signal == .floatingPoint) && (s.suspectsAt signal pc).any s.isPointer) := rfl

/-- A suspect that is ignored after `seedFault` is an unmonitored pointer that an arithmetic fault has brought in. -/
theorem isIgnored_seedFault (ho : o ∈ s.suspectsAt signal pc) (hplaced : o.isImmediate = false) :
    (s.seedFault signal pc).2.isIgnored o = true ↔
      signal = .floatingPoint ∧ s.monitorStack = false ∧ s.isPointer o = true := by
  rw [isIgnored_eq_of_placed hplaced, monitorStack_seedFault]
  have hpointer : (s.seedFault signal pc).2.isPointer o = s.isPointer o := rfl
  rw [hpointer]
  cases hp : s.isPointer o with
  | false => simp
  | true =>
      have hany : (s.suspectsAt signal pc).any s.isPointer = true := List.any_eq_true.mpr ⟨o, ho, hp⟩
      simp [hany, and_comm]

end

variable {replay : Replay} {config : Config} {number : Int32}

/-- The operand is a pointer that forms an address of the instruction at which an arithmetic fault ended the program,
and the stack is not to be monitored. -/
structure Unmonitored (replay : Replay) (config : Config) (number : Int32) (o : Operand) : Prop where
  arithmetic : Signal.ofNumber number = .floatingPoint
  executable : replay.isExecutable replay.current.pc = true
  configured : config.monitorStack = false
  address : o ∈ replay.addressOperands
  pointer : ∃ r, o.register? = some r ∧ replay.arch.description.isPointerGroup r.group = true

/-- What a session tracks although it ignores it: `Unmonitored` pointers only, and some of these if there are any. -/
structure Ignores (replay : Replay) (config : Config) (number : Int32) (t : Session Replay) : Prop where
  only : ∀ o ∈ t.slice.tracked.toList, t.isIgnored o = true → Unmonitored replay config number o
  some : (∃ o, Unmonitored replay config number o) → ¬t.Clean

/-- A session that is `Clean`, tracking nothing that it ignores, where there is no unmonitored pointer. -/
theorem Clean.ignores {t : Session Replay} (hclean : t.Clean) (h : ∀ o, ¬Unmonitored replay config number o) :
    Ignores replay config number t where
  only o ho hignored := by
    rw [hclean o ho] at hignored
    cases hignored
  some hsome := by
    obtain ⟨o, ho⟩ := hsome
    exact absurd ho (h o)

theorem mem_suspectsAt_of_arithmetic {o : Operand} :
    o ∈ (opened replay config (some .floatingPoint)).suspectsAt .floatingPoint replay.current.pc ↔
      o ∈ replay.addressOperands :=
  mem_suspects_entry.symm

/-- What `seedFault` leaves tracked although it is ignored. -/
theorem ignores_seedFault (hexec : replay.isExecutable replay.current.pc = true) :
    Ignores replay config number
      ((opened replay config (some (Signal.ofNumber number))).seedFault (Signal.ofNumber number)
        replay.current.pc).2 := by
  generalize hfault : Signal.ofNumber number = fault
  have hstands : ((opened replay config (some fault)).seedFault fault replay.current.pc).2.slice.tracked.StandsFor
      ((opened replay config (some fault)).suspectsAt fault replay.current.pc) := by
    rw [tracked_seedFault]
    exact Tracked.standsFor_extend _
  refine ⟨fun o ho hignored => ?_, fun hsome hclean => ?_⟩
  · obtain ⟨hsuspect, hplaced⟩ := hstands.mem o ho
    obtain ⟨rfl, hconfig, hpointer⟩ := (isIgnored_seedFault hsuspect hplaced).mp hignored
    exact ⟨hfault, hexec, hconfig, mem_suspectsAt_of_arithmetic.mp hsuspect, (Option.any_eq_true _ _).mp hpointer⟩
  · obtain ⟨o, harithmetic, -, hconfig, haddress, hpointer⟩ := hsome
    obtain rfl : fault = .floatingPoint := hfault.symm.trans harithmetic
    -- another operand may have been kept for the pointer's place, but then it is a pointer too
    have hany : ((opened replay config (some .floatingPoint)).suspectsAt .floatingPoint replay.current.pc).any
        (opened replay config (some .floatingPoint)).isPointer = true :=
      List.any_eq_true.mpr ⟨o, mem_suspectsAt_of_arithmetic.mpr haddress, (Option.any_eq_true _ _).mpr hpointer⟩
    obtain ⟨kept, hkept, hpointer⟩ := (any_isPointer_iff hstands
      fun o ho r hr => register_mem_of_entry (List.mem_filter.mp ho).1 hr).mp hany
    obtain ⟨hsuspect, hplaced⟩ := hstands.mem kept hkept
    have hignored := (isIgnored_seedFault hsuspect hplaced).mpr ⟨rfl, hconfig, hpointer⟩
    rw [hclean kept hkept] at hignored
    cases hignored

theorem clean_of_none {t : Session Replay} (h : t.slice.tracked = {}) : t.Clean := by
  intro o ho
  rw [h] at ho
  cases ho

/-- `seedInvalidPc` tracks the instruction pointer, and has it monitored. -/
theorem clean_seedInvalidPc (replay : Replay) (config : Config) (signal : Signal) (pc : Word) :
    ∃ report t, (opened replay config (some signal)).seedInvalidPc pc = .ok (report, t) ∧ t.Clean := by
  have hregister : (replay.arch.description.register? replay.arch.description.instructionPointer).isSome = true := by
    cases replay.arch <;> decide
  obtain ⟨r, hr⟩ := Option.isSome_iff_exists.mp hregister
  have hseed : (opened replay config (some signal)).arch.description.register?
      (opened replay config (some signal)).arch.description.instructionPointer = some r := hr
  unfold seedInvalidPc
  dsimp only
  rw [hseed]
  refine ⟨_, _, rfl, fun o ho => ?_⟩
  have hplaced := ((Tracked.standsFor_extend [.ofRegister r pc]).mem o ho).2
  rw [isIgnored_eq_of_placed hplaced]
  rfl

/-- `seed` succeeds after every signal. -/
theorem seed_opened (config : Config) (hsignal : replay.process.signal = some number) :
    ∃ report t, (opened replay config none).seed = .ok (report, t) ∧ Ignores replay config number t := by
  rw [seed_opened_eq config hsignal]
  split
  · next habort =>
      refine ⟨_, _, rfl, Clean.ignores (clean_of_none rfl) fun o h => ?_⟩
      rw [h.arithmetic] at habort
      cases habort
  · split
    · next hexec =>
        obtain ⟨report, t, hseed, hclean⟩ :=
          clean_seedInvalidPc replay config (Signal.ofNumber number) replay.current.pc
        refine ⟨report, t, hseed, hclean.ignores fun o h => ?_⟩
        rw [h.executable] at hexec
        cases hexec
    · next hexec =>
        split
        · exact ⟨_, _, rfl, ignores_seedFault (by simpa using hexec)⟩
        · next hother =>
            refine ⟨_, _, rfl, Clean.ignores (clean_of_none rfl) fun o h => hother ?_⟩
            exact Or.inr (Or.inr h.arithmetic)

/-- Without hooks, `Slicer.crashed` tracks and ignores what `seed` made it to. -/
theorem exists_crashed_of_seed {recording : Recording} {report : SeedReport} {t : Session Replay}
    (hopen : Replay.ofRecording recording = .ok replay)
    (hseed : (opened replay config none).seed = .ok (report, t)) :
    ∃ s, Slicer.crashed replay {} config = .ok (⟨s, {}⟩, report) ∧ s.slice.tracked = t.slice.tracked ∧
      s.isIgnored = t.isIgnored := by
  refine ⟨_, crashed_of_seed {} (start_of_ofRecording hopen) hseed, ?_⟩
  cases report.isHandled <;> exact ⟨rfl, rfl⟩

/-- **What a crashed session tracks although it ignores it.** Whatever the signal, a crash of a recording that has one
can be sliced. Without hooks, the session tracks something that it ignores exactly if there is an `Unmonitored`
pointer: the signal reports an arithmetic fault in the code, the stack is not to be monitored, and a pointer forms an
address of the faulting instruction. After any walks, whatever is tracked and ignored is such a pointer and has been
tracked from the beginning. -/
theorem crashed_tracks_ignored_iff (recording : Recording) (replay : Replay) (config : Config) (number : Int32)
    (hopen : Replay.ofRecording recording = .ok replay) (hsignal : recording.signal = some number) :
    ∃ s report, Slicer.crashed replay {} config = .ok (⟨s, {}⟩, report) ∧
      (s.Clean ↔ ¬∃ o, Unmonitored replay config number o) ∧
      ∀ modes : List StepMode, ∀ o ∈ (s.serveAll (modes.map .compute)).slice.tracked.toList,
        (s.serveAll (modes.map .compute)).isIgnored o = true →
          o ∈ s.slice.tracked.toList ∧ Unmonitored replay config number o := by
  have hprocess := (Replay.signal_of_ofRecording hopen).trans hsignal
  obtain ⟨report, t, hseed, hignores⟩ := seed_opened config hprocess
  obtain ⟨s, hcrashed, htracked, hignored⟩ := exists_crashed_of_seed hopen hseed
  have hfree : s.HookFree := (Fresh.crashed hcrashed).hookFree
  have honly : ∀ o ∈ s.slice.tracked.toList, s.isIgnored o = true → Unmonitored replay config number o := by
    rw [htracked, hignored]
    exact hignores.only
  refine ⟨s, report, hcrashed, ⟨fun hclean hsome => ?_, fun hnone o ho => ?_⟩, fun modes o ho hmodes => ?_⟩
  · unfold Clean at hclean
    rw [htracked, hignored] at hclean
    exact hignores.some hsome hclean
  · exact Bool.eq_false_iff.mpr fun hpointer => hnone ⟨o, honly o ho hpointer⟩
  · obtain ⟨ho, hpointer⟩ := hfree.tracked_of_ignored_computes modes ho hmodes
    exact ⟨ho, honly o ho hpointer⟩

/-- A division by a number in the stack frame, which is zero. -/
def frameDivision : Recording where
  archName := "i386"
  signal := some 8
  steps := [{ pc := 0x1000, asm := "mov eax,ecx", registers := .ofList [("ebp", 0x2000), ("ecx", 7)] },
    { pc := 0x1002, asm := "idiv DWORD PTR [ebp-0x8]" }]

theorem crashed_tracks_ignored_iff_at_division :
    ∃ replay s report o, Replay.ofRecording frameDivision = .ok replay ∧
      Slicer.crashed replay {} {} = .ok (⟨s, {}⟩, report) ∧
      o ∈ (s.serveAll [.compute .run]).slice.tracked.toList ∧ (s.serveAll [.compute .run]).isIgnored o = true ∧
      o ∈ s.slice.tracked.toList ∧ Unmonitored replay {} 8 o := by
  have hwalk : ∃ replay ∈ (Replay.ofRecording frameDivision).toOption,
      ∃ crash ∈ (Slicer.crashed replay {} {}).toOption,
        ∃ o ∈ (crash.1.session.serveAll [.compute .run]).slice.tracked.toList,
          (crash.1.session.serveAll [.compute .run]).isIgnored o = true := by
    decide +kernel
  obtain ⟨replay, hopen, ⟨slicer, report⟩, hcrash, o, ho, hignored⟩ := hwalk
  have hopen := Except.eq_ok_of_mem_toOption hopen
  have hcrash := Except.eq_ok_of_mem_toOption hcrash
  obtain ⟨s, report', hcrash', -, honly⟩ := crashed_tracks_ignored_iff frameDivision replay {} 8 hopen rfl
  rw [hcrash] at hcrash'
  cases hcrash'
  exact ⟨replay, s, report, o, hopen, hcrash, ho, hignored, honly [.run] o ho hignored⟩

/-- The crash of the division, without hooks. -/
def frameDivided? : Option (Session Replay) := do
  let replay ← (Replay.ofRecording frameDivision).toOption
  let (slicer, _) ← (Slicer.crashed replay {} {}).toOption
  return slicer.session

/-- The frame pointer is tracked, but not monitored. -/
theorem crashed_tracks_ignored_pointer :
    ∃ s ∈ frameDivided?, s.monitorStack = false ∧ ∃ o ∈ s.slice.tracked.toList, s.isIgnored o = true := by
  decide +kernel

end Session

end TraceSlice
