import TraceSlice.Proofs.DefUse
import TraceSlice.Proofs.Drive

/-!
# The course of a walk

What a walk looks at, in order. A `Course` lists the sessions at which a walk decodes an instruction, from
the first to the one that ends the walk. A turn that goes on stands one step earlier, and on the oldest step
no step back is progress. So the positions along a course count down from the current one, without a gap and
without a repetition (`Course.counts_down`), and a walk is over after at most as many instructions as there
are steps up to the current one, whatever addresses, prefixes and counters the recording holds
(`compute_terminates`). The bound that `compute` sets on a walk plays no part in this: any larger one gives
the same answer (`Course.walk_eq`).
-/

namespace TraceSlice

/-- The positions below a bound, newest first. -/
def countdown (n : Nat) : List Nat := (List.range n).reverse

@[simp] theorem countdown_zero : countdown 0 = [] := rfl

@[simp] theorem countdown_succ (n : Nat) : countdown (n + 1) = n :: countdown n := by
  simp [countdown, List.range_succ]

@[simp] theorem mem_countdown {n p : Nat} : p ∈ countdown n ↔ p < n := by simp [countdown]

@[simp] theorem length_countdown (n : Nat) : (countdown n).length = n := by simp [countdown]

theorem countdown_pairwise (n : Nat) : (countdown n).Pairwise (· > ·) := by
  rw [countdown, List.pairwise_reverse]
  exact List.pairwise_lt_range

/-- What a countdown has left behind lies above what it has left to do (`left`). -/
theorem le_of_append_countdown {ps : List Nat} {left n p : Nat} (h : ps ++ countdown left = countdown n)
    (hp : p ∈ ps) : left ≤ p := by
  cases left with
  | zero => exact Nat.zero_le p
  | succ k =>
      have hsorted := countdown_pairwise n
      rw [← h] at hsorted
      exact (List.pairwise_append.mp hsorted).2.2 p hp k (by simp)

theorem Replay.position_lt (replay : Replay) : replay.position < replay.steps.length := by
  simp [position, steps]

theorem Replay.take_position (replay : Replay) : replay.steps.take replay.position = replay.past.reverse := by
  rw [steps, position, ← List.length_reverse, List.take_left]

theorem Replay.take_position_succ (replay : Replay) :
    replay.steps.take (replay.position + 1) = (replay.current :: replay.past).reverse := by
  have hsplit : replay.steps = (replay.current :: replay.past).reverse ++ replay.future := by simp [steps]
  have hlength : replay.position + 1 = (replay.current :: replay.past).reverse.length := by simp [position]
  rw [hsplit, hlength, List.take_left]

namespace Session

variable {hooks : List Hook} {mode : StepMode} {s t : Session Replay} {outcome : Outcome}
  {visited : List (Session Replay)}

/-- The course of a walk from a session: the sessions at which it looks at an instruction, then the session
and the outcome with which it ends. -/
inductive Course (hooks : List Hook) (mode : StepMode) :
    Session Replay → List (Session Replay) → Session Replay → Outcome → Prop
  /-- Somebody asked to stop, so the instruction is not looked at. -/
  | stopped {s : Session Replay} (hstop : s.slice.running = false) : Course hooks mode s [] s .stopped
  /-- The walk ends with this instruction. -/
  | last {s t : Session Replay} {outcome : Outcome} (hrun : s.slice.running = true)
      (hturn : Turn hooks mode s t (some outcome)) : Course hooks mode s [s] t outcome
  /-- The walk goes on to the instruction before. -/
  | onward {s t u : Session Replay} {visited : List (Session Replay)} {outcome : Outcome}
      (hturn : Onward hooks mode s t) (hrest : Course hooks mode t visited u outcome) :
      Course hooks mode s (s :: visited) u outcome

theorem exists_course_of_turn (hturn : Turn hooks mode s t (some outcome)) :
    ∃ visited, Course hooks mode s visited t outcome := by
  cases hrun : s.slice.running with
  | true => exact ⟨_, .last hrun hturn⟩
  | false =>
      have hnot : s.slice.running ≠ true := by simp [hrun]
      cases hturn with
      | stopped hstop => exact ⟨_, .stopped hstop⟩
      | complete hrun => exact absurd hrun hnot
      | exhausted hrun => exact absurd hrun hnot
      | followed hrun => exact absurd hrun hnot
      | found hrun => exact absurd hrun hnot

/-- Every walk has a `Course`. -/
theorem exists_course (hooks : List Hook) (mode : StepMode) (ha : s.Aligned) :
    ∃ visited t outcome, Course hooks mode s visited t outcome := by
  obtain ⟨u, t, outcome, hsteps, hturn⟩ := exists_last_turn hooks mode ha
  induction hsteps using Relation.ReflTransGen.head_induction_on with
  | refl =>
      obtain ⟨visited, hcourse⟩ := exists_course_of_turn hturn
      exact ⟨visited, t, outcome, hcourse⟩
  | head hstep _ ih =>
      obtain ⟨visited, v, last, hcourse⟩ := ih hstep.aligned
      exact ⟨_, v, last, .onward hstep hcourse⟩

/-- A walk ends as its course does, whatever `fuel` above the position is set on it. -/
theorem Course.walk_eq (ha : s.Aligned) (h : Course hooks mode s visited t outcome) {fuel : Nat}
    (hfuel : s.backend.position < fuel) : s.walk hooks mode fuel = (t, .ok outcome) := by
  -- a turn that goes on lowers the position, and with it what the bound has to exceed
  induction h generalizing fuel with
  | stopped hstop =>
      obtain ⟨fuel, rfl⟩ := Nat.exists_eq_add_of_lt hfuel
      exact walk_of_turn (.stopped hstop) _
  | last _ hturn =>
      obtain ⟨fuel, rfl⟩ := Nat.exists_eq_add_of_lt hfuel
      exact walk_of_turn hturn _
  | onward hturn _ ih =>
      have hposition := hturn.position ha
      obtain ⟨fuel, rfl⟩ := Nat.exists_eq_add_of_lt hfuel
      rw [walk_of_turn hturn]
      exact ih hturn.aligned (by omega)

/-! ### Positions along a course -/

/-- `meet` moves nothing: the session stands where the session before does. -/
@[simp] theorem backend_meet (s : Session Replay) (hooks : List Hook) :
    (s.meet hooks).session.backend = s.backend :=
  (s.meet_sameStand hooks).backend

@[simp] theorem backend_backed (s : Session Replay) : s.backed.backend = s.backend.back := rfl

/-- **A course counts down.** The positions along a course are the newest of those up to the current one,
each once. The walk ends just below the last of them, unless it ends there because nothing is tracked any
more. -/
theorem Course.counts_down (ha : s.Aligned) (h : Course hooks mode s visited t outcome) :
    ∃ left, visited.map (fun v => v.backend.position) ++ countdown left = countdown (s.backend.position + 1) ∧
      (t.backend.position = left - 1 ∨
        t.backend.position = left ∧ t.slice.tracked.isEmpty = true) := by
  induction h with
  | @stopped s _ => exact ⟨s.backend.position + 1, rfl, Or.inl rfl⟩
  | @last s _ _ hrun hturn =>
      refine ⟨s.backend.position, by simp, ?_⟩
      cases hturn with
      | stopped hstop => simp [hrun] at hstop
      | complete _ hempty => exact Or.inr ⟨by simp, hempty⟩
      | exhausted => exact Or.inl (by simp)
      | followed => exact Or.inl (by simp)
      | found => exact Or.inl (by simp)
  | onward hturn _ ih =>
      obtain ⟨left, hpositions, hend⟩ := ih hturn.aligned
      refine ⟨left, ?_, hend⟩
      rw [List.map_cons, List.cons_append, hpositions, hturn.position ha, countdown_succ (_ + 1)]

theorem Course.length_le (ha : s.Aligned) (h : Course hooks mode s visited t outcome) :
    visited.length ≤ s.backend.position + 1 := by
  obtain ⟨left, hpositions, -⟩ := h.counts_down ha
  have hlength := congrArg List.length hpositions
  simp only [List.length_append, List.length_map, length_countdown] at hlength
  omega

/-- What every `Turn` preserves holds all along a course and at its end. -/
theorem Course.preserves {motive : Session Replay → Prop} (h : Course hooks mode s visited t outcome)
    (hs : motive s) (step : ∀ u v outcome, motive u → Turn hooks mode u v outcome → motive v) :
    ∀ v ∈ visited ++ [t], motive v := by
  induction h with
  | stopped => simpa using hs
  | last _ hturn => simpa using ⟨hs, step _ _ _ hs hturn⟩
  | onward hturn _ ih =>
      simp only [List.cons_append, List.forall_mem_cons]
      exact ⟨hs, ih (step _ _ _ hs hturn)⟩

/-- What every turn with which a walk goes on (`Onward`) hands down, from position to position, holds at all positions
that the walk looks at. If nobody asks to stop, one of them is the last, and the others lie above it. -/
theorem Course.ending {motive : Nat → Session Replay → Prop} {p : Nat} (ha : s.Aligned)
    (h : Course hooks mode s visited t outcome) (hs : motive p s)
    (stands : ∀ p u, motive p u → u.backend.position = p)
    (runs : ∀ p u, motive p u → u.slice.running = true)
    (step : ∀ p u v, motive p u → Onward hooks mode u v → ∃ q, motive q v) :
    (∀ v ∈ visited, motive v.backend.position v) ∧ ∃ v ∈ visited, Turn hooks mode v t (some outcome) ∧
      visited.map (fun v => v.backend.position) ++ countdown v.backend.position =
        countdown (s.backend.position + 1) := by
  induction h generalizing p with
  | @stopped s hstop =>
      rw [runs p s hs] at hstop
      cases hstop
  | @last s _ _ _ hturn =>
      obtain rfl := stands p s hs
      exact ⟨by simpa using hs, s, List.mem_cons_self, hturn, by simp⟩
  | @onward s u _ _ _ hturn _ ih =>
      obtain ⟨q, hu⟩ := step p s u hs hturn
      obtain ⟨hall, v, hv, hlast, hpositions⟩ := ih hturn.aligned hu
      obtain rfl := stands p s hs
      refine ⟨List.forall_mem_cons.mpr ⟨hs, hall⟩, v, List.mem_cons_of_mem _ hv, hlast, ?_⟩
      rw [List.map_cons, List.cons_append, hpositions, hturn.position ha, countdown_succ (_ + 1)]

theorem Turn.position_le {outcome : Option Outcome} (h : Turn hooks mode s t outcome) :
    t.backend.position ≤ s.backend.position := by
  rcases h.eq_cases with rfl | rfl | rfl <;> simp

theorem Turn.steps_eq {outcome : Option Outcome} (h : Turn hooks mode s t outcome) :
    t.backend.steps = s.backend.steps := by
  rcases h.eq_cases with rfl | rfl | rfl <;> simp

theorem Aligned.turn (ha : s.Aligned) {outcome : Option Outcome} (h : Turn hooks mode s t outcome) :
    t.Aligned := by
  rcases h.eq_cases with rfl | rfl | rfl
  · exact ha
  · exact ha.meet hooks
  · exact aligned_backed _

/-- A walk never goes forth, neither between two instructions nor at its end. -/
theorem Course.position_antitone (h : Course hooks mode s visited t outcome) :
    ((s :: visited ++ [t]).map fun v => v.backend.position).Pairwise (· ≥ ·) := by
  induction h with
  | stopped => simp
  | last _ hturn => simp [hturn.position_le]
  | @onward s u t visited _ hturn _ ih =>
      -- all that follows lies below `u`, and `u` below `s`
      have hu := hturn.position_le
      simp only [List.cons_append, List.map_cons, List.pairwise_cons, List.forall_mem_cons] at ih ⊢
      have hlow : ∀ p ∈ (visited ++ [t]).map (fun v => v.backend.position), s.backend.position ≥ p :=
        fun p hp => Nat.le_trans (ih.1 p hp) hu
      exact ⟨⟨Nat.le_refl _, hlow⟩, hlow, ih.2⟩

/-! ### Whole walks -/

/-- What `compute` from a session comes to: the sessions at which it looks at an instruction, the session afterwards
and the outcome. With nothing tracked there is nothing to look at. -/
inductive Computes (hooks : List Hook) (mode : StepMode) (s : Session Replay) :
    List (Session Replay) → Session Replay → Outcome → Prop
  | idle (hempty : s.slice.tracked.isEmpty = true) : Computes hooks mode s [] s .noOperands
  | walks {visited : List (Session Replay)} {t : Session Replay} {outcome : Outcome}
      (hsome : s.slice.tracked.isEmpty = false)
      (hcourse : Course hooks mode s.readied visited t outcome) : Computes hooks mode s visited t outcome

theorem Computes.compute_eq (h : s.Computes hooks mode visited t outcome) :
    s.compute hooks mode = (t, .ok outcome) := by
  cases h with
  | idle hempty => exact compute_of_empty hempty
  | walks hsome hcourse =>
      rw [compute_of_tracked hsome]
      exact hcourse.walk_eq s.aligned_readied (Nat.lt_succ_self _)

theorem exists_computes (hooks : List Hook) (mode : StepMode) (s : Session Replay) :
    ∃ visited t outcome, s.Computes hooks mode visited t outcome := by
  cases hempty : s.slice.tracked.isEmpty with
  | true => exact ⟨_, _, _, .idle hempty⟩
  | false =>
      obtain ⟨visited, t, outcome, hcourse⟩ := exists_course hooks mode s.aligned_readied
      exact ⟨visited, t, outcome, .walks hempty hcourse⟩

end Session

/-- **Walks terminate.** Whatever the recording holds and whichever hooks run, `compute` returns an outcome, never an
error. It looks at one instruction at each of the newest positions up to the current one, so at no more of them than
there are, and that is not the doing of the bound set on it (`fuel`). The position never increases and stays that of a
step of the recording. -/
theorem Slicer.compute_terminates (slicer : Slicer Replay) (mode : StepMode) :
    ∃ visited t outcome,
      slicer.compute mode = ({ slicer with session := t }, .ok outcome) ∧
      slicer.session.Computes slicer.hooks.onMatch mode visited t outcome ∧
      (slicer.session.slice.tracked.isEmpty = false → ∀ fuel, slicer.session.backend.position < fuel →
        slicer.session.readied.walk slicer.hooks.onMatch mode fuel = (t, .ok outcome)) ∧
      visited.map (fun v => v.backend.position) <+: countdown (slicer.session.backend.position + 1) ∧
      visited.length ≤ slicer.session.backend.position + 1 ∧
      ((slicer.session :: visited ++ [t]).map fun v => v.backend.position).Pairwise (· ≥ ·) ∧
      ∀ v ∈ visited ++ [t], v.backend.steps = slicer.session.backend.steps ∧
        v.backend.position < slicer.session.backend.steps.length := by
  obtain ⟨visited, t, outcome, hcomputes⟩ :=
    Session.exists_computes slicer.hooks.onMatch mode slicer.session
  refine ⟨visited, t, outcome, compute_eq hcomputes.compute_eq, hcomputes, ?_⟩
  have hindex : ∀ v : Session Replay, v.backend.steps = slicer.session.backend.steps →
      v.backend.steps = slicer.session.backend.steps ∧
        v.backend.position < slicer.session.backend.steps.length :=
    fun v hsteps => ⟨hsteps, hsteps ▸ v.backend.position_lt⟩
  cases hcomputes with
  | idle hempty => simpa [hempty] using Replay.position_lt _
  | walks hsome hcourse =>
      have haligned := slicer.session.aligned_readied
      obtain ⟨left, hpositions, -⟩ := hcourse.counts_down haligned
      have hlength := hcourse.length_le haligned
      refine ⟨fun _ fuel hfuel => hcourse.walk_eq haligned hfuel, ⟨_, hpositions⟩, hlength,
        hcourse.position_antitone, fun v hv => hindex v ?_⟩
      exact hcourse.preserves (motive := fun v => v.backend.steps = slicer.session.backend.steps) rfl
        (fun _ _ _ hu hturn => hturn.steps_eq.trans hu) v hv

end TraceSlice
