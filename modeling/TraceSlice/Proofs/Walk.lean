import Mathlib.Logic.Relation
import TraceSlice.Proofs.Visit
import TraceSlice.Recording.Replay

/-!
# Walking back, turn by turn

A walk over a recording is a sequence of **turns**. Each looks at one instruction and either ends the walk
or stands one step earlier. `Turn` says everything that one turn can do, and every fact about walks is
derived from it: a property of a walk is one that its turns preserve. No turn fails, and a turn that goes on
lowers the position, so the fuel of `walk` never runs out and every walk ends by a turn (`compute_ends`).
-/

namespace TraceSlice

namespace Session

/-- `meet` leaves the session where it is, apart from remembering the instruction. -/
theorem meet_sameStand {β : Type} [Backend β] (s : Session β) (hooks : List Hook) :
    (s.remember (s.instructionAt s.slice.pc)).SameStand (s.meet hooks).session :=
  visit_sameStand _ hooks _

theorem meet_of_not_written {β : Type} [Backend β] {s : Session β} (hooks : List Hook)
    (h : s.written (s.instructionAt s.slice.pc) = []) :
    s.meet hooks = ⟨s.remember (s.instructionAt s.slice.pc), false, false⟩ :=
  visit_of_not_written h

/-- An instruction is `relevant` exactly if it writes a tracked operand. -/
theorem meet_relevant_iff {β : Type} [Backend β] {s : Session β} (hooks : List Hook) :
    (s.meet hooks).relevant = true ↔ s.written (s.instructionAt s.slice.pc) ≠ [] := by
  by_cases h : s.written (s.instructionAt s.slice.pc) = []
  · rw [meet_of_not_written hooks h]
    simp [h]
  · refine ⟨fun _ => h, fun _ => ?_⟩
    unfold meet
    rw [visit_of_written (s := s.remember _) h]

/-- What is `relevant` joins the slice, with the notes that hooks put on it. -/
theorem meet_instructions {β : Type} [Backend β] {s : Session β} (hooks : List Hook)
    (h : s.written (s.instructionAt s.slice.pc) ≠ []) :
    ∃ comment, (s.meet hooks).session.slice.instructions =
      s.slice.instructions ++ [{ s.locate (s.instructionAt s.slice.pc) with comment }] :=
  visit_instructions (s := s.remember (s.instructionAt s.slice.pc)) hooks h

theorem meet_followed {β : Type} [Backend β] (s : Session β) (hooks : List Hook) :
    ∀ f ∈ (s.meet hooks).session.slice.followed, f ∈ s.slice.followed :=
  visit_followed (s.remember (s.instructionAt s.slice.pc)) hooks (s.instructionAt s.slice.pc)

theorem meet_hookFree {β : Type} [Backend β] {s : Session β} (hfree : s.HookFree)
    (h : s.written (s.instructionAt s.slice.pc) ≠ []) :
    s.meet [] = ⟨(s.remember (s.instructionAt s.slice.pc)).absorbed (s.instructionAt s.slice.pc),
      true, (s.written (s.instructionAt s.slice.pc)).any s.slice.isFollowed⟩ :=
  visit_hookFree (s := s.remember (s.instructionAt s.slice.pc)) hfree h

/-- Without hooks, there are two ways to `meet` an instruction: pass it by or absorb it (`absorbed`). -/
theorem HookFree.meet_induction {β : Type} [Backend β] {s : Session β} (hfree : s.HookFree)
    {motive : Visit β → Prop}
    (pass : s.written (s.instructionAt s.slice.pc) = [] →
      motive ⟨s.remember (s.instructionAt s.slice.pc), false, false⟩)
    (absorb : s.written (s.instructionAt s.slice.pc) ≠ [] →
      motive ⟨(s.remember (s.instructionAt s.slice.pc)).absorbed (s.instructionAt s.slice.pc), true,
        (s.written (s.instructionAt s.slice.pc)).any s.slice.isFollowed⟩) :
    motive (s.meet []) := by
  by_cases h : s.written (s.instructionAt s.slice.pc) = []
  · rw [meet_of_not_written [] h]
    exact pass h
  · rw [meet_hookFree hfree h]
    exact absorb h

section

variable {β : Type} [Backend β] {s : Session β}

theorem HookFree.meet (hfree : s.HookFree) : (s.meet []).session.HookFree :=
  hfree.meet_induction (motive := fun v => v.session.HookFree) (fun _ => hfree) fun _ =>
    HookFree.absorbed (s := s.remember _) hfree hook_of_mem_instructionAt

theorem Clean.meet (hfree : s.HookFree) (hclean : s.Clean) : (s.meet []).session.Clean :=
  hfree.meet_induction (motive := fun v => v.session.Clean) (fun _ => hclean) fun _ =>
    Clean.absorbed (s := s.remember _) hclean _

/-- Without hooks, nobody asks to stop. -/
theorem HookFree.running_meet (hfree : s.HookFree) :
    (s.meet []).session.slice.running = s.slice.running :=
  hfree.meet_induction (motive := fun v => v.session.slice.running = s.slice.running)
    (fun _ => rfl) fun _ => rfl

/-- Without hooks, only a write of the followed operand ends the following. -/
theorem HookFree.followed_meet (hfree : s.HookFree) :
    (s.meet []).session.slice.followed =
      if (s.meet []).followed then none else s.slice.followed :=
  hfree.meet_induction
    (motive := fun v => v.session.slice.followed = if v.followed then none else s.slice.followed)
    (fun _ => rfl) fun _ => rfl

/-- `meet` notices exactly the writes of the followed operand while that is tracked. -/
theorem HookFree.meet_followed_iff (hfree : s.HookFree) :
    (s.meet []).followed = true ↔
      ∃ f x, s.slice.followed = some f ∧ f.place? = some x ∧ x ∈ s.slice.tracked.places ∧
        x ∈ placesOf (s.instructionAt s.slice.pc).destinations := by
  rw [← any_isFollowed_iff]
  refine hfree.meet_induction
    (motive := fun v => v.followed = true ↔
      (s.written (s.instructionAt s.slice.pc)).any s.slice.isFollowed = true)
    (fun hnil => ?_) fun _ => Iff.rfl
  rw [hnil]
  rfl

end

/-! ### Stepping back in a recording -/

/-- A session one step earlier: what `reverseStep` makes of it. -/
def backed (s : Session Replay) : Session Replay :=
  { s.recordReturn with backend := s.backend.back }.withPc s.backend.back.current.pc

/-- Does a step back count as progress? This is what `reverseStep` answers. -/
def moves (s : Session Replay) : Bool :=
  s.backed.slice.pc != s.slice.pc ||
    (s.backed.repeatsAt s.slice.pc && s.counter?.isSome && s.backed.counter? != s.counter?)

/-- `reverseStep` over a recording always succeeds. -/
theorem reverseStep_eq (s : Session Replay) : s.reverseStep = (s.backed, .ok s.moves) := by
  unfold moves
  by_cases hpc : s.backend.back.current.pc = s.slice.pc
  · have hbeq : (s.backed.slice.pc != s.slice.pc) = false := bne_eq_false_iff_eq.mpr hpc
    rw [hbeq, Bool.false_or]
    unfold reverseStep
    simp only [Backend.stepBackward, Backend.programCounter, hpc, ne_eq, not_true_eq_false, if_false]
    rw [backed, hpc]
  · have hbne : (s.backed.slice.pc != s.slice.pc) = true := bne_iff_ne.mpr hpc
    rw [hbne, Bool.true_or]
    unfold reverseStep
    simp only [Backend.stepBackward, Backend.programCounter, ne_eq, hpc, not_false_eq_true, if_true]
    rfl

/-- Sessions that stand at the same point (`SameStand`) step back alike. -/
theorem SameStand.moves {s t : Session Replay} (h : s.SameStand t) : t.moves = s.moves := by
  have hcounter : t.counter? = s.counter? := by
    unfold counter?
    rw [h.backend, h.arch]
  have hcounter' : t.backed.counter? = s.backed.counter? := by
    simp only [counter?, backed, recordReturn, withPc, h.backend, h.arch]
  have hrepeats : t.backed.repeatsAt s.slice.pc = s.backed.repeatsAt s.slice.pc := by
    simp only [repeatsAt, backed, recordReturn, withPc, h.backend, h.decoded]
  have hpc : t.backed.slice.pc = s.backed.slice.pc := by
    simp only [backed, recordReturn, withPc, h.backend]
  unfold Session.moves
  rw [hpc, h.pc, hrepeats, hcounter, hcounter']

/-- The session looks at the instruction that its backend stands at. -/
def Aligned (s : Session Replay) : Prop := s.slice.pc = s.backend.current.pc

theorem aligned_backed (s : Session Replay) : s.backed.Aligned := rfl

/-- At the oldest step, stepping back is no progress. -/
theorem moves_eq_false_of_position {s : Session Replay} (ha : s.Aligned)
    (h : s.backend.position = 0) : s.moves = false := by
  have hpast : s.backend.past = [] := List.length_eq_zero_iff.mp h
  have hback : s.backend.back = s.backend := by
    unfold Replay.back
    rw [hpast]
  have hpc : s.backed.slice.pc = s.slice.pc := by
    rw [show s.backed.slice.pc = s.backend.back.current.pc from rfl, hback]
    exact ha.symm
  have hcounter : s.backed.counter? = s.counter? := by
    simp only [counter?, backed, recordReturn, withPc, hback]
  unfold moves
  rw [hpc, hcounter]
  simp

/-- A step back that is progress lowers the position by one. -/
theorem position_of_moves {s : Session Replay} (ha : s.Aligned) (h : s.moves = true) :
    s.backend.position = s.backed.backend.position + 1 := by
  have hne : s.backend.position ≠ 0 := by
    intro hzero
    rw [moves_eq_false_of_position ha hzero] at h
    exact absurd h (by simp)
  have hback : s.backed.backend.position = s.backend.position - 1 := s.backend.position_back
  omega

/-! ### Turns -/

/-- One `turn` of a walk over a recording: the session after it, and why the walk ends with it, if it does. -/
inductive Turn (hooks : List Hook) (mode : StepMode) (s : Session Replay) :
    Session Replay → Option Outcome → Prop
  /-- Somebody asked to stop before. -/
  | stopped (hstop : s.slice.running = false) : Turn hooks mode s s (some .stopped)
  /-- Nothing is left to track. -/
  | complete (hrun : s.slice.running = true)
      (hempty : (s.meet hooks).session.slice.tracked.isEmpty = true) :
      Turn hooks mode s (s.meet hooks).session (some .operandExhausted)
  /-- The step back is no progress. -/
  | exhausted (hrun : s.slice.running = true)
      (hleft : (s.meet hooks).session.slice.tracked.isEmpty = false)
      (hstay : (s.meet hooks).session.moves = false) :
      Turn hooks mode s (s.meet hooks).session.backed (some .historyExhausted)
  /-- The followed operand was written. -/
  | followed (hrun : s.slice.running = true)
      (hleft : (s.meet hooks).session.slice.tracked.isEmpty = false)
      (hmoves : (s.meet hooks).session.moves = true) (hfollowed : (s.meet hooks).followed = true) :
      Turn hooks mode s (s.meet hooks).session.backed (some .followedMatched)
  /-- The instruction joined the slice, which ends a walk in `step` mode. -/
  | found (hrun : s.slice.running = true)
      (hleft : (s.meet hooks).session.slice.tracked.isEmpty = false)
      (hmoves : (s.meet hooks).session.moves = true) (hfollowed : (s.meet hooks).followed = false)
      (hrelevant : (s.meet hooks).relevant = true) (hmode : mode = .step) :
      Turn hooks mode s (s.meet hooks).session.backed (some .instructionFound)
  /-- The walk goes on. -/
  | onward (hrun : s.slice.running = true)
      (hleft : (s.meet hooks).session.slice.tracked.isEmpty = false)
      (hmoves : (s.meet hooks).session.moves = true) (hfollowed : (s.meet hooks).followed = false)
      (hmode : (s.meet hooks).relevant = false ∨ mode = .run) :
      Turn hooks mode s (s.meet hooks).session.backed none

/-- A `Turn` with which a walk goes on. -/
def Onward (hooks : List Hook) (mode : StepMode) (s t : Session Replay) : Prop :=
  Turn hooks mode s t none

variable {hooks : List Hook} {mode : StepMode}

/-- Every session can take a `Turn`. -/
theorem exists_turn (hooks : List Hook) (mode : StepMode) (s : Session Replay) :
    ∃ t outcome, Turn hooks mode s t outcome := by
  cases hrun : s.slice.running with
  | false => exact ⟨_, _, .stopped hrun⟩
  | true =>
      cases hleft : (s.meet hooks).session.slice.tracked.isEmpty with
      | true => exact ⟨_, _, .complete hrun hleft⟩
      | false =>
          cases hmoves : (s.meet hooks).session.moves with
          | false => exact ⟨_, _, .exhausted hrun hleft hmoves⟩
          | true =>
              cases hfollowed : (s.meet hooks).followed with
              | true => exact ⟨_, _, .followed hrun hleft hmoves hfollowed⟩
              | false =>
                  cases hrelevant : (s.meet hooks).relevant with
                  | false => exact ⟨_, _, .onward hrun hleft hmoves hfollowed (Or.inl hrelevant)⟩
                  | true =>
                      cases mode with
                      | run => exact ⟨_, _, .onward hrun hleft hmoves hfollowed (Or.inr rfl)⟩
                      | step => exact ⟨_, _, .found hrun hleft hmoves hfollowed hrelevant rfl⟩

/-- The rules of `Turn` say what `turn` computes. -/
theorem turn_of_turn {s t : Session Replay} {outcome : Option Outcome} (h : Turn hooks mode s t outcome) :
    s.turn hooks mode = (t, outcome.map .ok) := by
  unfold turn
  cases h with
  | stopped hstop => simp [hstop]
  | complete hrun hempty => simp [hrun, hempty]
  | exhausted hrun hleft hstay => simp [hrun, hleft, reverseStep_eq, hstay]
  | followed hrun hleft hmoves hfollowed => simp [hrun, hleft, reverseStep_eq, hmoves, hfollowed]
  | found hrun hleft hmoves hfollowed hrelevant hmode =>
      simp [hrun, hleft, reverseStep_eq, hmoves, hfollowed, hrelevant, hmode]
  | onward hrun hleft hmoves hfollowed hmode =>
      have hgo : ((s.meet hooks).relevant && mode == .step) = false := by
        rcases hmode with hmode | hmode
        · simp [hmode]
        · simp [hmode]
      simp [hrun, hleft, reverseStep_eq, hmoves, hfollowed, hgo]

/-- `walk` takes one turn and then, if that did not end it, walks on. -/
theorem walk_of_turn {s t : Session Replay} {outcome : Option Outcome}
    (h : Turn hooks mode s t outcome) (fuel : Nat) :
    s.walk hooks mode (fuel + 1) =
      match outcome with
      | some outcome => (t, .ok outcome)
      | none => t.walk hooks mode fuel := by
  rw [walk, turn_of_turn h]
  cases outcome <;> rfl

/-- A turn with which a walk goes on ends one step earlier (`backed`). -/
theorem Onward.eq_backed {s t : Session Replay} (h : Onward hooks mode s t) :
    t = (s.meet hooks).session.backed := by
  cases h
  rfl

theorem Onward.running {s t : Session Replay} (h : Onward hooks mode s t) : s.slice.running = true := by
  cases h
  assumption

theorem Onward.aligned {s t : Session Replay} (h : Onward hooks mode s t) : t.Aligned := by
  rw [h.eq_backed]
  exact aligned_backed _

theorem Aligned.meet {s : Session Replay} (ha : s.Aligned) (hooks : List Hook) :
    (s.meet hooks).session.Aligned := by
  have hstand := s.meet_sameStand hooks
  unfold Aligned
  rw [hstand.pc, hstand.backend]
  exact ha

theorem Onward.position {s t : Session Replay} (ha : s.Aligned) (h : Onward hooks mode s t) :
    s.backend.position = t.backend.position + 1 := by
  have hstand := (s.meet_sameStand hooks).backend
  cases h with
  | onward hrun hleft hmoves hfollowed hmode =>
      have hposition := position_of_moves (ha.meet hooks) hmoves
      rw [hstand] at hposition
      exact hposition

/-! ### Whole walks -/

/-- However far a walk has gone (`Onward`), it goes on as a walk from there does. -/
theorem walk_eq_of_onward {s t : Session Replay} (ha : s.Aligned)
    (h : Relation.ReflTransGen (Onward hooks mode) s t) :
    t.Aligned ∧ s.walk hooks mode (s.backend.position + 1) =
      t.walk hooks mode (t.backend.position + 1) := by
  induction h with
  | refl => exact ⟨ha, rfl⟩
  | tail _ hturn ih =>
      refine ⟨hturn.aligned, ?_⟩
      rw [ih.2, walk_of_turn hturn, hturn.position ih.1]

/-- A walk is a sequence of turns, the last of which ends it. -/
theorem exists_last_turn (hooks : List Hook) (mode : StepMode) {s : Session Replay}
    (ha : s.Aligned) :
    ∃ t u outcome, Relation.ReflTransGen (Onward hooks mode) s t ∧
      Turn hooks mode t u (some outcome) := by
  -- by induction on the position, which every turn that goes on lowers
  induction hn : s.backend.position generalizing s with
  | zero =>
      obtain ⟨t, outcome, hturn⟩ := exists_turn hooks mode s
      cases outcome with
      | some outcome => exact ⟨s, t, outcome, .refl, hturn⟩
      | none =>
          have hposition := Onward.position ha hturn
          omega
  | succ n ih =>
      obtain ⟨t, outcome, hturn⟩ := exists_turn hooks mode s
      cases outcome with
      | some outcome => exact ⟨s, t, outcome, .refl, hturn⟩
      | none =>
          have hposition := Onward.position ha hturn
          obtain ⟨u, v, outcome, hsteps, hlast⟩ := ih (Onward.aligned hturn) (by omega)
          exact ⟨u, v, outcome, .head hturn hsteps, hlast⟩

/-- The session as a walk starts (`ready`): running, and looking at the instruction that the backend stands at. -/
def readied (s : Session Replay) : Session Replay :=
  { s with slice := { s.slice with running := true, pc := s.backend.current.pc } }

/-- Recordings always let a walk start. -/
theorem ready_eq (s : Session Replay) : s.ready = (s.readied, .ok ()) := rfl

theorem aligned_readied (s : Session Replay) : s.readied.Aligned := rfl

theorem compute_of_empty {s : Session Replay} (h : s.slice.tracked.isEmpty = true) :
    s.compute hooks mode = (s, .ok .noOperands) := by
  unfold compute
  rw [h]
  rfl

theorem compute_of_tracked {s : Session Replay} (h : s.slice.tracked.isEmpty = false) :
    s.compute hooks mode = s.readied.walk hooks mode (s.readied.backend.position + 1) := by
  unfold compute
  rw [h, ready_eq]
  rfl

/-- Where a walk has gone decides how it ends. -/
theorem compute_eq_of_turn {s t u : Session Replay} {outcome : Outcome}
    (h : s.slice.tracked.isEmpty = false)
    (hsteps : Relation.ReflTransGen (Onward hooks mode) s.readied t)
    (hturn : Turn hooks mode t u (some outcome)) : s.compute hooks mode = (u, .ok outcome) := by
  rw [compute_of_tracked h, (walk_eq_of_onward s.aligned_readied hsteps).2, walk_of_turn hturn]

/-- **Walks end.** `compute` over a recording never fails: its turns go on until one of them ends it. -/
theorem compute_ends (hooks : List Hook) (mode : StepMode) {s : Session Replay}
    (h : s.slice.tracked.isEmpty = false) :
    ∃ t u outcome, Relation.ReflTransGen (Onward hooks mode) s.readied t ∧
      Turn hooks mode t u (some outcome) ∧ s.compute hooks mode = (u, .ok outcome) := by
  obtain ⟨t, u, outcome, hsteps, hturn⟩ := exists_last_turn hooks mode s.aligned_readied
  exact ⟨t, u, outcome, hsteps, hturn, compute_eq_of_turn h hsteps hturn⟩

/-- A property of sessions that every `Turn` preserves holds at the end of a walk. -/
theorem compute_induction {motive : Session Replay → Prop} {s : Session Replay} (hs : motive s)
    (hready : motive s → motive s.readied)
    (step : ∀ t u outcome, motive t → Turn hooks mode t u outcome → motive u) :
    motive (s.compute hooks mode).1 := by
  cases h : s.slice.tracked.isEmpty with
  | true =>
      rw [compute_of_empty h]
      exact hs
  | false =>
      obtain ⟨t, u, outcome, hsteps, hturn, hcompute⟩ := compute_ends hooks mode h
      have ht : motive t := by
        clear hturn hcompute
        induction hsteps with
        | refl => exact hready hs
        | tail _ hturn ih => exact step _ _ none ih hturn
      rw [hcompute]
      exact step t u _ ht hturn

/-- A turn that ends a walk with an instruction found is the only turn there is. -/
theorem Turn.eq_of_found {s t u : Session Replay} {outcome : Option Outcome}
    (hfound : Turn hooks mode s t (some .instructionFound)) (h : Turn hooks mode s u outcome) :
    outcome = some .instructionFound ∧ u = t := by
  cases hfound with
  | found hrun hleft hmoves hfollowed hrelevant hmode =>
      cases h with
      | stopped hstop => simp [hrun] at hstop
      | complete _ hempty => simp [hleft] at hempty
      | exhausted _ _ hstay => simp [hmoves] at hstay
      | followed _ _ _ hwritten => simp [hfollowed] at hwritten
      | found => exact ⟨rfl, rfl⟩
      | onward _ _ _ _ hgoes => simp [hrelevant, hmode] at hgoes

/-- A turn changes the slice as `meet` does. -/
theorem Turn.slice {s t : Session Replay} {outcome : Option Outcome}
    (h : Turn hooks mode s t outcome) (hrun : s.slice.running = true) :
    t.slice = { (s.meet hooks).session.slice with pc := t.slice.pc } := by
  cases h with
  | stopped hstop =>
      rw [hrun] at hstop
      cases hstop
  | complete => rfl
  | exhausted => rfl
  | followed => rfl
  | found => rfl
  | onward => rfl

theorem Turn.eq_of_stopped {s t : Session Replay} {outcome : Option Outcome}
    (h : Turn hooks mode s t outcome) (hstop : s.slice.running = false) : t = s := by
  have hnot : s.slice.running ≠ true := by simp [hstop]
  cases h with
  | stopped => rfl
  | complete hrun => exact absurd hrun hnot
  | exhausted hrun => exact absurd hrun hnot
  | followed hrun => exact absurd hrun hnot
  | found hrun => exact absurd hrun hnot
  | onward hrun => exact absurd hrun hnot

/-- After a turn, the session stands where it stood or one step earlier. -/
theorem Turn.eq_cases {s t : Session Replay} {outcome : Option Outcome}
    (h : Turn hooks mode s t outcome) :
    t = s ∨ t = (s.meet hooks).session ∨ t = (s.meet hooks).session.backed := by
  cases h with
  | stopped => exact Or.inl rfl
  | complete => exact Or.inr (Or.inl rfl)
  | exhausted => exact Or.inr (Or.inr rfl)
  | followed => exact Or.inr (Or.inr rfl)
  | found => exact Or.inr (Or.inr rfl)
  | onward => exact Or.inr (Or.inr rfl)

theorem Turn.isIgnored {s t : Session Replay} {outcome : Option Outcome}
    (h : Turn hooks mode s t outcome) : t.isIgnored = s.isIgnored := by
  have hstand := s.meet_sameStand hooks
  have hmet : (s.meet hooks).session.isIgnored = s.isIgnored :=
    isIgnored_eq hstand.arch hstand.monitorStack
  rcases h.eq_cases with rfl | rfl | rfl
  · rfl
  · exact hmet
  · exact hmet

/-- A turn follows nothing that was not followed before. -/
theorem Turn.followed_mem {s t : Session Replay} {outcome : Option Outcome} (h : Turn hooks mode s t outcome) :
    ∀ f ∈ t.slice.followed, f ∈ s.slice.followed := by
  rcases h.eq_cases with rfl | rfl | rfl
  · exact fun _ => id
  · exact s.meet_followed hooks
  · exact s.meet_followed hooks

theorem HookFree.turn {s t : Session Replay} {outcome : Option Outcome} (hfree : s.HookFree)
    (h : Turn [] mode s t outcome) : t.HookFree := by
  rcases h.eq_cases with rfl | rfl | rfl
  · exact hfree
  · exact hfree.meet
  · exact hfree.meet

theorem HookFree.compute {s : Session Replay} (hfree : s.HookFree) : (s.compute [] mode).1.HookFree :=
  compute_induction (motive := HookFree) hfree id fun _ _ _ ht hturn => ht.turn hturn

/-- On the way of a walk without hooks (`Onward`), nothing is hooked and nobody asks to stop. -/
theorem HookFree.onward {s t : Session Replay} (hfree : s.HookFree)
    (h : Relation.ReflTransGen (Onward [] mode) s.readied t) :
    t.HookFree ∧ t.slice.running = true := by
  induction h with
  | refl => exact ⟨hfree, rfl⟩
  | tail _ hturn ih =>
      refine ⟨ih.1.turn hturn, ?_⟩
      rw [hturn.eq_backed]
      exact ih.1.running_meet.trans ih.2

end Session

end TraceSlice
