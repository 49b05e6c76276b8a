import Mathlib.Order.Bounds.Basic
import TraceSlice.Proofs.Culprit
import TraceSlice.Proofs.Exhaustion
import TraceSlice.Proofs.Future
import TraceSlice.Proofs.Ignored

/-!
# Finding the check that failed

The triage of an aborted program searches back twice: for the call of the function that reported the corruption, and
from there for the instruction that made the check. A search steps back before it tests, so it never tests the
instruction it starts at; where neighbouring steps have different addresses it finds the greatest position below its
start that passes the test, or ends on the oldest step (`rewindUntil_standing`). The triage therefore seeds from the
last check before the last call (`triage_eq`), and a search never ends for lack of fuel (`rewindUntil_eq_rewind`).
-/

namespace TraceSlice

namespace Replay

variable {replay : Replay} {test : String → Bool} {n p : Nat}

/-! ### Positions and texts -/

theorem back_of_position (h : replay.position = 0) : replay.back = replay := by
  unfold back
  rw [List.length_eq_zero_iff.mp h]

theorem rewoundTo_position (replay : Replay) : replay.rewoundTo replay.position = replay := by
  unfold rewoundTo
  rw [Nat.sub_self]
  rfl

theorem back_rewoundTo (h : p ≤ replay.position) : (replay.rewoundTo p).back = replay.rewoundTo (p - 1) := by
  cases p with
  | zero => exact back_of_position (position_rewoundTo h)
  | succ p =>
      have hcount : replay.position - p = replay.position - (p + 1) + 1 := by omega
      unfold rewoundTo
      rw [Nat.add_sub_cancel, hcount, Function.iterate_succ_apply']

theorem rewoundTo_back (h : p < replay.position) : replay.back.rewoundTo p = replay.rewoundTo p := by
  have hcount : replay.position - p = replay.back.position - p + 1 := by
    rw [position_back]
    omega
  unfold rewoundTo
  rw [hcount, Function.iterate_succ_apply]

theorem rewoundTo_zero_back (replay : Replay) : replay.back.rewoundTo 0 = replay.rewoundTo 0 := by
  rcases Nat.eq_zero_or_pos replay.position with hzero | hpos
  · rw [back_of_position hzero]
  · exact rewoundTo_back hpos

theorem disassemble_current (replay : Replay) :
    Backend.disassemble replay replay.current.pc = .ok replay.currentText := by
  have hfound : (replay.instructionAt? replay.current.pc).isSome = true := by
    rw [instructionAt?, Option.isSome_map, List.find?_isSome]
    exact ⟨replay.current, by simp [steps], by simp⟩
  obtain ⟨text, htext⟩ := Option.isSome_iff_exists.mp hfound
  simp only [currentText, Backend.disassemble, htext]
  rfl

/-- The text of the instruction at position `p` (`rewoundTo`). -/
def textAt (replay : Replay) (p : Nat) : String := (replay.rewoundTo p).currentText

theorem textAt_back (h : p < replay.position) : replay.back.textAt p = replay.textAt p := by
  rw [textAt, rewoundTo_back h, textAt]

/-! ### The newest position below another -/

/-- The greatest position below `n` whose text passes the test. -/
def IsNewest (replay : Replay) (test : String → Bool) (n p : Nat) : Prop :=
  IsGreatest {r | r < n ∧ test (replay.textAt r) = true} p

/-- The position that `IsNewest`, searched for. -/
def newest? (replay : Replay) (test : String → Bool) (n : Nat) : Option Nat :=
  (countdown n).find? fun p => test (replay.textAt p)

theorem newest?_succ : replay.newest? test (n + 1) =
    if test (replay.textAt n) then some n else replay.newest? test n := by
  unfold newest?
  rw [countdown_succ, List.find?_cons]
  cases test (replay.textAt n) <;> rfl

theorem newest?_eq_some_iff : replay.newest? test n = some p ↔ replay.IsNewest test n p := by
  induction n with
  | zero => simp [newest?, IsNewest, IsGreatest]
  | succ n ih =>
      rw [newest?_succ]
      split
      · next hpass =>
          have hgreatest : replay.IsNewest test (n + 1) n :=
            ⟨⟨Nat.lt_succ_self n, hpass⟩, fun r hr => Nat.le_of_lt_succ hr.1⟩
          exact ⟨fun h => Option.some.inj h ▸ hgreatest, fun h => congrArg some (hgreatest.unique h)⟩
      · next hfail =>
          have hsame : {r | r < n + 1 ∧ test (replay.textAt r) = true} =
              {r | r < n ∧ test (replay.textAt r) = true} := by
            ext r
            refine ⟨fun hr => ⟨Nat.lt_of_le_of_ne (Nat.le_of_lt_succ hr.1) fun heq => ?_, hr.2⟩,
              fun hr => ⟨Nat.lt_succ_of_lt hr.1, hr.2⟩⟩
            exact hfail (heq ▸ hr.2)
          rw [ih, IsNewest, IsNewest, hsame]

/-- Where the check that failed stands: the `newest?` one before the newest call of the function that reported it. -/
def failedCheckAt? (replay : Replay) (corruption : Corruption) (n : Nat) : Option Nat :=
  (replay.newest? (Session.isCallOf corruption.function) n).bind fun call =>
    replay.newest? (Session.firstWord · == corruption.trigger) call

theorem failedCheckAt?_eq_some_iff {corruption : Corruption} {q : Nat} :
    replay.failedCheckAt? corruption n = some q ↔
      ∃ call, replay.IsNewest (Session.isCallOf corruption.function) n call ∧
        replay.IsNewest (Session.firstWord · == corruption.trigger) call q := by
  simp only [failedCheckAt?, Option.bind_eq_some_iff, newest?_eq_some_iff]

theorem newest?_back (hn : n ≤ replay.back.position) : replay.back.newest? test n = replay.newest? test n := by
  induction n with
  | zero => rfl
  | succ n ih =>
      have hlt : n < replay.position := by
        rw [position_back] at hn
        omega
      rw [newest?_succ, newest?_succ, textAt_back hlt, ih (Nat.le_of_succ_le hn)]

theorem failedCheckAt?_back (corruption : Corruption) (hn : n ≤ replay.back.position) :
    replay.back.failedCheckAt? corruption n = replay.failedCheckAt? corruption n := by
  unfold failedCheckAt?
  rw [newest?_back hn]
  cases hcall : replay.newest? (Session.isCallOf corruption.function) n with
  | none => rw [Option.bind_none, Option.bind_none]
  | some call =>
      have hlt : call < n := (newest?_eq_some_iff.mp hcall).1.1
      have hle : call ≤ replay.back.position := Nat.le_trans (Nat.le_of_lt hlt) hn
      rw [Option.bind_some, Option.bind_some, newest?_back hle]

end Replay

namespace Session

variable {s : Session Replay} {test : String → Bool} {n p : Nat}

/-! ### Searching back -/

theorem standing_position (ha : s.Aligned) : s.standing s.backend.position = s := by
  have hpc : s.backend.current.pc = s.slice.pc := ha.symm
  unfold standing
  rw [Replay.rewoundTo_position, if_neg (Nat.lt_irrefl _), withPc, hpc]

/-- At an older position, nothing that a session recorded at its own matters. -/
theorem standing_of_lt (hp : p < s.backend.position) :
    s.standing p = ({ s with
      backend := s.backend.rewoundTo p
      lastReturn := (Backend.view (s.backend.rewoundTo (p + 1))).evaluate
        (Decode.registerExpression s.arch.description.returnRegister) } : Session Replay).withPc
          (s.backend.rewoundTo p).current.pc := by
  rw [standing, if_pos hp]

theorem backed_standing (hp : p < s.backend.position) : (s.standing (p + 1)).backed = s.standing p := by
  have hback : (s.standing (p + 1)).backend.back = s.backend.rewoundTo p :=
    Replay.back_rewoundTo (Nat.succ_le_of_lt hp)
  rw [backed, hback, standing_of_lt hp]
  rfl

theorem standing_backed (hp : p < s.backed.backend.position) : s.backed.standing p = s.standing p := by
  have hposition : s.backed.backend.position = s.backend.position - 1 := s.backend.position_back
  have hlt : p < s.backend.position := by omega
  have hhere : s.backed.backend.rewoundTo p = s.backend.rewoundTo p := Replay.rewoundTo_back hlt
  have hnext : s.backed.backend.rewoundTo (p + 1) = s.backend.rewoundTo (p + 1) := Replay.rewoundTo_back (by omega)
  rw [standing_of_lt hp, standing_of_lt hlt, hhere, hnext]
  rfl

/-- Where neighbouring steps have different addresses, only from the oldest one is the step back no progress
(`moves`). -/
theorem moves_standing (hchain : s.backend.steps.IsChain fun older newer => older.pc ≠ newer.pc)
    (hp : p ≤ s.backend.position) : (s.standing p).moves = true ↔ p ≠ 0 := by
  have hposition : (s.standing p).backend.position = p := Replay.position_rewoundTo hp
  have haligned : (s.standing p).Aligned := rfl
  rw [haligned.moves_iff, hposition]
  refine and_iff_left_of_imp fun hne => Or.inl (Replay.pc_back_ne ?_ (by rwa [hposition]))
  rw [show (s.standing p).backend.steps = _ from Replay.steps_rewoundTo s.backend p]
  exact hchain

/-- `rewindUntil` finds the `newest?` position below its start that passes the test, or ends on the oldest step. -/
theorem rewindUntil_standing (hchain : s.backend.steps.IsChain fun older newer => older.pc ≠ newer.pc)
    (hn : n ≤ s.backend.position) {fuel : Nat} (hfuel : n < fuel) :
    rewindUntil test fuel (s.standing n) =
      (s.backend.newest? test n).elim ((s.standing 0).backed, .ok false) fun p => (s.standing p, .ok true) := by
  induction fuel generalizing n with
  | zero => omega
  | succ fuel ih =>
      -- the step comes before the test, so the position at hand is not tested itself
      rw [rewindUntil, reverseStep_eq]
      cases n with
      | zero =>
          have hstay : (s.standing 0).moves = false := by simpa using (moves_standing hchain hn).not
          rw [hstay]
          rfl
      | succ n =>
          have hmoves : (s.standing (n + 1)).moves = true := (moves_standing hchain hn).mpr (Nat.succ_ne_zero n)
          have htext : Backend.disassemble (s.standing n).backend (s.standing n).slice.pc = .ok (s.backend.textAt n) :=
            Replay.disassemble_current (s.backend.rewoundTo n)
          rw [hmoves, backed_standing hn, Replay.newest?_succ]
          dsimp only
          rw [htext]
          dsimp only
          split
          · rfl
          · exact ih (Nat.le_of_succ_le hn) (Nat.lt_of_succ_lt_succ hfuel)

theorem rewind_standing (hchain : s.backend.steps.IsChain fun older newer => older.pc ≠ newer.pc)
    (hn : n ≤ s.backend.position) (test : String → Bool) : (s.standing n).rewind test =
      (s.backend.newest? test n).elim ((s.standing 0).backed, .ok false) fun p => (s.standing p, .ok true) := by
  have hposition : Backend.position (s.standing n).backend = n := Replay.position_rewoundTo hn
  rw [rewind, hposition]
  exact rewindUntil_standing hchain hn (Nat.lt_succ_self n)

theorem rewindUntil_congr (ha : s.Aligned) (test : String → Bool) {fuel more : Nat}
    (h : s.backend.position < fuel) (h' : s.backend.position < more) :
    rewindUntil test fuel s = rewindUntil test more s := by
  induction fuel generalizing s more with
  | zero => omega
  | succ fuel ih =>
      obtain ⟨more, rfl⟩ := Nat.exists_eq_succ_of_ne_zero (Nat.ne_zero_of_lt h')
      rw [rewindUntil, rewindUntil, reverseStep_eq]
      cases hmoves : s.moves with
      | false => rfl
      | true =>
          have hposition := position_of_moves ha hmoves
          have hless : s.backed.backend.position < more := by omega
          dsimp only
          rw [ih s.aligned_backed (by omega) hless]

/-- `rewindUntil` ends by itself: more fuel changes nothing. -/
theorem rewindUntil_eq_rewind (ha : s.Aligned) (test : String → Bool) {fuel : Nat} (h : s.backend.position < fuel) :
    rewindUntil test fuel s = s.rewind test :=
  rewindUntil_congr ha test h (Nat.lt_succ_self _)

/-! ### The triage -/

/-- `findCheck` ends on the check that failed (`failedCheckAt?`), or on the oldest step. -/
theorem findCheck_eq (ha : s.Aligned) (hchain : s.backend.steps.IsChain fun older newer => older.pc ≠ newer.pc)
    (hsignal : s.slice.signal = some .abort) {corruption : Corruption} (hreported : s.corruption? = some corruption) :
    s.findCheck = (s.backend.failedCheckAt? corruption s.backend.position).elim ((s.standing 0).backed, none) fun q =>
      (s.standing q, some corruption) := by
  have hcall := rewind_standing hchain (Nat.le_refl _) (isCallOf corruption.function)
  rw [standing_position ha] at hcall
  unfold findCheck Replay.failedCheckAt?
  rw [if_neg (not_not.mpr hsignal), hreported]
  dsimp only
  rw [hcall]
  cases hfound : s.backend.newest? (isCallOf corruption.function) s.backend.position with
  | none => rfl
  | some call =>
      have hlt : call < s.backend.position := (Replay.newest?_eq_some_iff.mp hfound).1.1
      dsimp only [Option.elim, Option.bind]
      rw [rewind_standing hchain (Nat.le_of_lt hlt)]
      cases s.backend.newest? (firstWord · == corruption.trigger) call <;> rfl

/-- `triage` seeds from the check that failed (`failedCheckAt?`), or ends on the oldest step with nothing seeded. -/
theorem triage_eq (ha : s.Aligned) (hchain : s.backend.steps.IsChain fun older newer => older.pc ≠ newer.pc)
    (hsignal : s.slice.signal = some .abort) {corruption : Corruption} (hreported : s.corruption? = some corruption) :
    s.triage = (s.backend.failedCheckAt? corruption s.backend.position).elim (s.standing 0).backed fun q =>
      (s.standing q).seedCheck corruption := by
  rw [triage, findCheck_eq ha hchain hsignal hreported]
  cases s.backend.failedCheckAt? corruption s.backend.position <;> rfl

/-- What `seedCheck` at a position leaves behind. -/
theorem seedCheck_standing (corruption : Corruption) (hp : p ≤ s.backend.position) :
    ((s.standing p).seedCheck corruption).slice.instructions = s.slice.instructions ++ [s.locatedAt p] ∧
      ((s.standing p).seedCheck corruption).slice.tracked =
        (s.slice.tracked.extend (s.trackableSources (s.locatedAt p))).map corruption.relabeling ∧
      ((s.standing p).seedCheck corruption).backend = s.backend.rewoundTo (p - 1) := by
  have hseed : (s.standing p).addCurrentInstruction = ((s.standing p).joined (s.insnAt p), .ok ()) := rfl
  have hlocated : (s.standing p).locate (s.insnAt p) = s.locatedAt p := rfl
  rw [seedCheck, hseed]
  dsimp only
  rw [reverseStep_eq, joined, hlocated]
  generalize s.locatedAt p = insn
  exact ⟨rfl, rfl, Replay.back_rewoundTo hp⟩

/-- The session of an aborted program that was seeded from the check at a position: the slice is the instruction
there, tracked is what it reads and does not ignore, each place once and with the hook of its kind, and the backend is
one step further back. -/
structure SeededAt (replay : Replay) (config : Config) (corruption : Corruption) (q : Nat) (s : Session Replay) :
    Prop where
  instructions : s.slice.instructions = [(opened replay config (some .abort)).locatedAt q]
  tracked : ∃ seeds : Tracked,
    seeds.StandsFor (((opened replay config (some .abort)).locatedAt q).sources.filter fun o =>
      !(opened replay config (some .abort)).isIgnored o) ∧
    s.slice.tracked = seeds.map corruption.relabeling
  carries : s.Carries corruption
  backend : s.backend = replay.rewoundTo (q - 1)

theorem seededAt_seedCheck {replay : Replay} {q : Nat} (config : Config) (corruption : Corruption)
    (hq : q < replay.back.position) :
    SeededAt replay config corruption q
      (((opened replay config (some .abort)).backed.standing q).seedCheck corruption) := by
  have hposition := replay.position_back
  have hstanding := standing_backed (s := opened replay config (some .abort)) hq
  have hlocated : (opened replay config (some .abort)).backed.locatedAt q =
      (opened replay config (some .abort)).locatedAt q := by
    unfold locatedAt insnAt
    rw [hstanding]
  obtain ⟨hinsns, htracked, hbackend⟩ :=
    seedCheck_standing (s := (opened replay config (some .abort)).backed) corruption (Nat.le_of_lt hq)
  rw [hlocated] at hinsns htracked
  refine ⟨hinsns, ⟨_, Tracked.standsFor_extend _, htracked⟩, fun o ho => ?_, ?_⟩
  · rw [htracked] at ho
    obtain ⟨source, -, rfl⟩ := List.mem_map.mp ho
    exact corruption.carriedBy_attach source
  · have hold : replay.back.rewoundTo (q - 1) = replay.rewoundTo (q - 1) := Replay.rewoundTo_back (by omega)
    exact hbackend.trans hold

/-- `Slicer.crashed` on an aborted program seeds by the triage alone. -/
theorem crashed_of_abort {recording : Recording} {replay : Replay} (config : Config)
    (hopen : Replay.ofRecording recording = .ok replay) (hsignal : recording.signal = some 6) :
    Slicer.crashed replay .bundled config =
      .ok (⟨(opened replay config (some .abort)).backed.triage, .bundled⟩, .abort) := by
  have hprocess := (Replay.signal_of_ofRecording hopen).trans hsignal
  have hseed : (opened replay config none).seed = .ok (.abort, opened replay config (some .abort)) := by
    rw [seed_opened_eq config hprocess]
    rfl
  exact crashed_of_seed .bundled (start_of_ofRecording hopen) hseed

theorem triage_opened {replay : Replay} (config : Config) {corruption : Corruption}
    (hchain : replay.steps.IsChain fun older newer => older.pc ≠ newer.pc)
    (hreported : [Corruption.heap, .stack].find? (fun c => replay.back.isInsideFunction c.function) = some corruption) :
    (opened replay config (some .abort)).backed.triage =
      (replay.failedCheckAt? corruption replay.back.position).elim
        ((opened replay config (some .abort)).backed.standing 0).backed fun q =>
          ((opened replay config (some .abort)).backed.standing q).seedCheck corruption := by
  have hsteps : (opened replay config (some .abort)).backed.backend.steps = replay.steps := replay.steps_back
  have haborted : (opened replay config (some .abort)).backed.corruption? = some corruption := hreported
  rw [triage_eq (aligned_backed _) (by rwa [hsteps]) rfl haborted,
    ← Replay.failedCheckAt?_back corruption (Nat.le_refl replay.back.position)]
  rfl

end Session

/-- **The triage seeds from the right check.** Let a program be aborted by the function that reports a corruption, in a
recording whose neighbouring steps have different addresses. If a call of that function lies before the position after
the first step back, and a check before the newest such call, then the newest such check is what the slice starts with,
and all that it reads is tracked with the hook of its kind. Otherwise nothing is found or tracked, and the backend is on
the oldest step. No search ends for lack of fuel. -/
theorem Slicer.crashed_seeds_failed_check (recording : Recording) (replay : Replay) (config : Config)
    (corruption : Corruption) (hopen : Replay.ofRecording recording = .ok replay) (hsignal : recording.signal = some 6)
    (hchain : recording.steps.IsChain fun older newer => older.pc ≠ newer.pc)
    (hreported : [Corruption.heap, .stack].find? (fun c => replay.back.isInsideFunction c.function) = some corruption) :
    ∃ s : Session Replay, Slicer.crashed replay .bundled config = .ok (⟨s, .bundled⟩, .abort) ∧
      (∀ call q, replay.IsNewest (Session.isCallOf corruption.function) replay.back.position call →
        replay.IsNewest (Session.firstWord · == corruption.trigger) call q →
        Session.SeededAt replay config corruption q s) ∧
      ((¬∃ call q, replay.IsNewest (Session.isCallOf corruption.function) replay.back.position call ∧
          replay.IsNewest (Session.firstWord · == corruption.trigger) call q) →
        s.slice.instructions = [] ∧ s.slice.tracked.toList = [] ∧ s.backend = replay.rewoundTo 0) ∧
      ∀ (t : Session Replay) (test : String → Bool) (fuel : Nat), t.Aligned → t.backend.position < fuel →
        Session.rewindUntil test fuel t = t.rewind test := by
  rw [← Replay.steps_of_ofRecording hopen] at hchain
  have htriage := Session.triage_opened config hchain hreported
  refine ⟨_, Session.crashed_of_abort config hopen hsignal, ?_, ?_, fun t test fuel ha hfuel =>
    Session.rewindUntil_eq_rewind ha test hfuel⟩
  · intro call q hcall hq
    have hlt : q < replay.back.position := hq.1.1.trans hcall.1.1
    rw [htriage, Replay.failedCheckAt?_eq_some_iff.mpr ⟨call, hcall, hq⟩]
    exact Session.seededAt_seedCheck config corruption hlt
  · intro hnone
    have hlost : replay.failedCheckAt? corruption replay.back.position = none := by
      refine Option.eq_none_iff_forall_ne_some.mpr fun q hfound => hnone ?_
      obtain ⟨call, hcall, hq⟩ := Replay.failedCheckAt?_eq_some_iff.mp hfound
      exact ⟨call, q, hcall, hq⟩
    rw [htriage, hlost]
    refine ⟨rfl, rfl, ?_⟩
    exact (Replay.back_rewoundTo (Nat.zero_le _)).trans replay.rewoundTo_zero_back

/-- What is tracked is at the places that the check reads, those that `isIgnored` aside. -/
theorem Session.SeededAt.mem_places {replay : Replay} {config : Config} {corruption : Corruption} {q : Nat}
    {s : Session Replay} (h : SeededAt replay config corruption q s) {x : Place} :
    x ∈ s.slice.tracked.places ↔
      x ∈ placesOf (((opened replay config (some .abort)).locatedAt q).sources.filter fun o =>
        !(opened replay config (some .abort)).isIgnored o) := by
  obtain ⟨seeds, hstands, htracked⟩ := h.tracked
  have hplaces : (seeds.map corruption.relabeling).places = seeds.places :=
    Operand.placesOf_map corruption.relabeling.place?_apply _
  rw [htracked, hplaces, hstands.places]

/-- The guard is checked two steps before the report, and the session starts one step before the check. What it tracks
is the register that the check compares, and the four bytes that it compares it with. -/
theorem Slicer.crashed_seeds_failed_check_at_smashedGuard :
    ∃ replay s, Replay.ofRecording smashedGuard = .ok replay ∧
      Slicer.crashed replay .bundled {} = .ok (⟨s, .bundled⟩, .abort) ∧
      replay.IsNewest (Session.isCallOf "__stack_chk_fail") replay.back.position 3 ∧
      replay.IsNewest (Session.firstWord · == "xor") 3 2 ∧ Session.SeededAt replay {} .stack 2 s ∧
      ∀ x, x ∈ s.slice.tracked.places ↔
        x ∈ [.group "eax", .byte 0x2ff4, .byte 0x2ff5, .byte 0x2ff6, .byte 0x2ff7] := by
  have hopen : ∃ replay ∈ (Replay.ofRecording smashedGuard).toOption,
      [Corruption.heap, .stack].find? (fun c => replay.back.isInsideFunction c.function) = some .stack ∧
      replay.newest? (Session.isCallOf "__stack_chk_fail") replay.back.position = some 3 ∧
      replay.newest? (Session.firstWord · == "xor") 3 = some 2 ∧
      placesOf (((Session.opened replay {} (some .abort)).locatedAt 2).sources.filter fun o =>
          !(Session.opened replay {} (some .abort)).isIgnored o) =
        [.group "eax", .byte 0x2ff4, .byte 0x2ff5, .byte 0x2ff6, .byte 0x2ff7] := by
    decide +kernel
  obtain ⟨replay, hopen, hreported, hcall, hcheck, hplaces⟩ := hopen
  rw [Replay.newest?_eq_some_iff] at hcall hcheck
  have hopen := Except.eq_ok_of_mem_toOption hopen
  obtain ⟨s, hcrash, hseeded, -⟩ := Slicer.crashed_seeds_failed_check smashedGuard replay {} .stack hopen rfl
    (by decide) hreported
  have hseeded := hseeded 3 2 hcall hcheck
  exact ⟨replay, s, hopen, hcrash, hcall, hcheck, hseeded, fun x => hplaces ▸ hseeded.mem_places⟩

end TraceSlice
