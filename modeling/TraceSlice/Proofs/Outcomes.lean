import TraceSlice.Proofs.Contribution
import TraceSlice.Proofs.Exactness
import TraceSlice.Proofs.Operation

/-!
# What an outcome tells

A walk tests why it should end after it has matched an instruction and, unless nothing is tracked any more, has stepped
back. So several reasons may hold at once, and only the first is reported. `Tells` says what may still be concluded
from the report about the session afterwards. The followed operand can be written only by the instruction with which a
walk ends, whichever reason is reported (`Tells.written`): a turn that goes on neither writes it nor changes what is
followed (`HookFree.unwritten_onward`). Apart from that, what an outcome tells is read off the last turn
(`HookFree.tells_last`), and the turns before do not spoil it (`Tells.cons`).
-/

namespace TraceSlice

namespace Session

variable {mode : StepMode} {s t u : Session Replay} {outcome : Outcome} {visited : List (Session Replay)}

/-! ### Writing the followed operand -/

/-- The instruction that the session looks at writes the followed operand, which is tracked. -/
def WritesFollowed (s : Session Replay) : Prop :=
  ∃ f, s.slice.followed = some f ∧ s.slice.tracked.contains f = true ∧ f.isIn s.entry.destinations = true

@[simp] theorem placesOf_destinations_locate (s : Session Replay) (insn : Instruction) :
    placesOf (s.locate insn).destinations = placesOf insn.destinations :=
  Operand.placesOf_map s.place?_withSymbol _

theorem HookFree.meet_followed_iff_writesFollowed (hfree : s.HookFree) :
    (s.meet []).followed = true ↔ s.WritesFollowed := by
  rw [hfree.meet_followed_iff]
  unfold WritesFollowed entry
  constructor
  · intro hwrites
    obtain ⟨f, x, hf, hx, htracked, hdef⟩ := hwrites
    refine ⟨f, hf, (Tracked.contains_iff_of_place hx).mpr htracked, (Operand.isIn_iff_of_place hx).mpr ?_⟩
    rwa [placesOf_destinations_locate]
  · intro hwrites
    obtain ⟨f, hf, hcontains, hdef⟩ := hwrites
    obtain ⟨x, hx, htracked⟩ := Tracked.contains_iff.mp hcontains
    rw [Operand.isIn_iff_of_place hx, placesOf_destinations_locate] at hdef
    exact ⟨f, x, hf, hx, htracked, hdef⟩

/-- What writes the followed operand joins the slice (`matters`). -/
theorem WritesFollowed.matters (hfree : s.HookFree) (h : s.WritesFollowed) : s.matters = true := by
  have hfollowed := hfree.meet_followed_iff_writesFollowed.mpr h
  refine hfree.meet_induction (motive := fun v => v.followed = true → v.relevant = true) (fun _ => id)
    (fun _ _ => rfl) hfollowed

/-- Nothing is followed after a `Turn` that writes the followed operand. -/
theorem HookFree.unfollowed_turn (hfree : s.HookFree) (hrun : s.slice.running = true) {outcome : Option Outcome}
    (h : Turn [] mode s t outcome) (hfollowed : (s.meet []).followed = true) : t.slice.followed = none := by
  rw [h.slice hrun]
  exact hfree.followed_meet.trans (if_pos hfollowed)

/-- A turn that goes on (`Onward`) does not write the followed operand and changes nothing of what is followed. In
`step` mode it lets nothing join the slice. -/
theorem HookFree.unwritten_onward (hfree : s.HookFree) (h : Onward [] mode s t) :
    ¬s.WritesFollowed ∧ t.slice.followed = s.slice.followed ∧
      (mode = .step → t.slice.instructions = s.slice.instructions) := by
  cases h with
  | onward hrun hleft hmoves hfollowed hmode =>
      have hnot : (s.meet []).followed ≠ true := Bool.eq_false_iff.mp hfollowed
      refine ⟨fun hwrites => hnot (hfree.meet_followed_iff_writesFollowed.mpr hwrites),
        hfree.followed_meet.trans (if_neg hnot), fun hstep => ?_⟩
      have hrelevant : s.matters = false := hmode.resolve_right (by simp [hstep])
      have hinsns := hfree.instructions_meet
      rw [hrelevant] at hinsns
      exact hinsns.trans (List.append_nil _)

/-! ### What is told -/

/-- What the outcome of a walk without hooks tells about the session `s` before it, the sessions at which it looks at
an instruction, and the session `t` after it. -/
structure Tells (mode : StepMode) (s : Session Replay) (visited : List (Session Replay)) (t : Session Replay)
    (outcome : Outcome) : Prop where
  /-- Operands are exhausted exactly if nothing is tracked any more. -/
  exhausted : outcome = .operandExhausted ↔ t.slice.tracked.isEmpty = true
  /-- An instruction is found in `step` mode only. It is the last one that the walk looks at, and the only one that
  joins the slice. -/
  found : outcome = .instructionFound → mode = .step ∧ ∃ before last, visited = before ++ [last] ∧
    t.slice.instructions = s.slice.instructions ++ [last.entry]
  /-- A followed operand is matched only if one was followed to begin with. The last instruction that the walk looks at
  writes it and is the last of the slice, and nothing is followed any more. -/
  matched : outcome = .followedMatched → ∃ f before last, s.slice.followed = some f ∧ visited = before ++ [last] ∧
    t.slice.instructions.getLast? = some last.entry ∧ f.isIn last.entry.destinations = true ∧ t.slice.followed = none
  /-- Whatever the outcome, an instruction that writes the followed operand is the last one that the walk looks at. -/
  written : ∀ before v after, visited = before ++ v :: after → v.WritesFollowed → after = [] ∧ t.slice.followed = none
  /-- There was something to track, and nobody asked to stop. -/
  proper : outcome ≠ .noOperands ∧ outcome ≠ .stopped

@[simp] theorem tracked_backed (s : Session Replay) : s.backed.slice.tracked = s.slice.tracked := rfl

/-- What is told (`Tells`) by a walk of a single turn. -/
theorem HookFree.tells_last (hfree : s.HookFree) (hrun : s.slice.running = true)
    (h : Turn [] mode s t (some outcome)) : Tells mode s [s] t outcome := by
  have hinsns := hfree.instructions_turn hrun h
  refine ⟨?_, ?_, ?_, ?_, ?_⟩
  · cases h with
    | stopped hstop => simp [hrun] at hstop
    | complete _ hempty => simp [hempty]
    | exhausted _ hleft => simpa using hleft
    | followed _ hleft => simpa using hleft
    | found _ hleft => simpa using hleft
  · intro hfound
    subst hfound
    cases h with
    | found _ _ _ _ hrelevant hmode =>
        have hmatters : s.matters = true := hrelevant
        rw [hmatters] at hinsns
        exact ⟨hmode, [], s, rfl, hinsns⟩
  · intro hmatched
    subst hmatched
    have hnone := hfree.unfollowed_turn hrun h
    cases h with
    | followed _ _ _ hfollowed =>
        have hwrites := hfree.meet_followed_iff_writesFollowed.mp hfollowed
        rw [hwrites.matters hfree] at hinsns
        obtain ⟨f, hf, -, hdef⟩ := hwrites
        exact ⟨f, [], s, hf, rfl, by simp [hinsns], hdef, hnone hfollowed⟩
  · -- a walk of one visit has no other place for the writer
    intro before v after hsplit hwrites
    cases before with
    | nil =>
        obtain ⟨rfl, hafter⟩ := List.cons.inj hsplit
        exact ⟨hafter.symm, hfree.unfollowed_turn hrun h (hfree.meet_followed_iff_writesFollowed.mpr hwrites)⟩
    | cons _ before => simp at hsplit
  · cases h with
    | stopped hstop => simp [hrun] at hstop
    | _ => simp

/-- A turn before that goes on changes nothing of what is told. -/
theorem Tells.cons (hfree : s.HookFree) (hturn : Onward [] mode s u) (h : Tells mode u visited t outcome) :
    Tells mode s (s :: visited) t outcome := by
  obtain ⟨hnot, hsame, hstep⟩ := hfree.unwritten_onward hturn
  refine ⟨h.exhausted, ?_, ?_, ?_, h.proper⟩
  · intro hfound
    obtain ⟨hmode, before, last, rfl, hinsns⟩ := h.found hfound
    rw [hstep hmode] at hinsns
    exact ⟨hmode, s :: before, last, rfl, hinsns⟩
  · intro hmatched
    obtain ⟨f, before, last, hf, rfl, hlast⟩ := h.matched hmatched
    exact ⟨f, s :: before, last, hsame.symm.trans hf, rfl, hlast⟩
  · intro before v after hsplit hwrites
    cases before with
    | nil =>
        obtain ⟨rfl, -⟩ := List.cons.inj hsplit
        exact absurd hwrites hnot
    | cons _ before => exact h.written before v after (List.cons.inj hsplit).2 hwrites

theorem Course.tells (h : Course [] mode s visited t outcome) (hfree : s.HookFree) (hrun : s.slice.running = true) :
    Tells mode s visited t outcome := by
  induction h with
  | stopped hstop => simp [hrun] at hstop
  | last _ hturn => exact hfree.tells_last hrun hturn
  | onward hturn _ ih =>
      exact (ih (hfree.turn hturn) (hfree.running_turn hrun hturn)).cons hfree hturn

/-! ### Nothing becomes followed -/

theorem followed_compute (hnone : s.slice.followed = none) (hooks : List Hook) (mode : StepMode) :
    (s.compute hooks mode).1.slice.followed = none :=
  compute_induction (motive := fun t => t.slice.followed = none) hnone id fun _ _ _ hu hturn =>
    Option.eq_none_iff_forall_not_mem.mpr fun f hf => by
      have hbefore := hturn.followed_mem f hf
      rw [hu] at hbefore
      cases hbefore

theorem followed_addExpression (s : Session Replay) (expression : String) :
    (s.addExpression expression).1.slice.followed = s.slice.followed := by
  obtain ⟨err, -, hadd⟩ | ⟨operands, -, hadd⟩ := s.addExpression_cases expression <;> rw [hadd]
  rfl

theorem followed_runStartHook (hnone : s.slice.followed = none) (hook : StartHook) :
    (s.runStartHook hook).slice.followed = none := by
  cases hook with
  | triage =>
      refine triage_induction (motive := fun t => t.slice.followed = none) hnone (fun u hu => ?_)
        (fun _ _ _ hu => hu) fun _ _ hu => hu
      rw [reverseStep_eq]
      exact hu
  | track expression =>
      have hfollowed := s.followed_addExpression expression
      rw [runStartHook, trackAndNote]
      generalize s.addExpression expression = added at hfollowed
      obtain ⟨t, _ | _⟩ := added <;> exact hfollowed.trans hnone
  | nothing => exact hnone
  | log => exact hnone
  | current => exact hnone
  | stop => exact hnone

/-- What is not followed stays so until something is chosen to be followed (`FollowsNothing`). -/
theorem followed_operate {op : Operation Replay} (hop : op.FollowsNothing) (hnone : s.slice.followed = none) :
    (s.operate op).slice.followed = none := by
  cases op with
  | request hooks request =>
      cases request with
      | track expression => exact (s.followed_addExpression expression).trans hnone
      | current => exact hnone
      | removeOperand index =>
          simp only [operate, perform, Slice.removeOperand]
          cases s.slice.tracked.get? index with
          | none => exact hnone
          | some o => simp [hnone]
      -- the one request that sets the followed operand, and here it may only clear it
      | follow index =>
          cases index with
          | none => rfl
          | some index => exact hop.elim
      | removeInstruction index =>
          simp only [operate, perform, Slice.removeInstruction]
          cases s.slice.instructions[index]? <;> exact hnone
      | stop => exact hnone
      | back =>
          rw [operate, perform, reverseStep_eq]
          exact hnone
      | compute mode => exact followed_compute hnone hooks mode
  | seed =>
      obtain hsame | ⟨report, hseed⟩ := s.operate_seed_cases
      · rw [hsame]
        exact hnone
      · obtain ⟨-, -, -, hfollowed⟩ := seed_extends hseed
        exact hfollowed.trans hnone
  | startHook hook => exact followed_runStartHook hnone hook
  | other f hf => exact (hop s).trans hnone
  | decode pc => exact hnone
  | monitor on => exact hnone
  | move f => exact hnone
  | change c => exact hnone

/-- One session comes from another by operations none of which chooses what to follow (`FollowsNothing`). -/
def Proceeds (s t : Session Replay) : Prop :=
  ∃ operations : List (Operation Replay), (∀ op ∈ operations, op.FollowsNothing) ∧ s.operateAll operations = t

theorem Proceeds.followed (h : s.Proceeds t) (hnone : s.slice.followed = none) : t.slice.followed = none := by
  obtain ⟨operations, hops, rfl⟩ := h
  exact operateAll_induction (motive := fun t => t.slice.followed = none)
    (fun _ _ hop ht => followed_operate hop ht) hnone hops

/-! ### Whole walks -/

/-- **The outcome of a walk tells the truth.** `compute` without hooks from a session that tracks something returns an
outcome, from which may be concluded what `Tells` lists, and the session then looks at the instruction that its
backend stands at. If nothing is followed before or after the walk, this stays so until an operand is chosen to be
followed. -/
theorem compute_tells_truth (s : Session Replay) (hfree : s.HookFree) (hsome : s.slice.tracked.isEmpty = false)
    (mode : StepMode) :
    ∃ visited t outcome, s.compute [] mode = (t, .ok outcome) ∧ s.Computes [] mode visited t outcome ∧
      Tells mode s visited t outcome ∧
      (∀ u ∈ [s, t], u.slice.followed = none → ∀ v, u.Proceeds v → v.slice.followed = none) ∧
      t.slice.pc = t.backend.current.pc := by
  obtain ⟨visited, t, outcome, hcourse⟩ := exists_course [] mode s.aligned_readied
  have hcomputes : s.Computes [] mode visited t outcome := .walks hsome hcourse
  have htells : Tells mode s.readied visited t outcome := hcourse.tells hfree rfl
  refine ⟨visited, t, outcome, hcomputes.compute_eq, hcomputes,
    ⟨htells.exhausted, htells.found, htells.matched, htells.written, htells.proper⟩, ?_, ?_⟩
  · exact fun u _ hnone v hv => hv.followed hnone
  · exact hcourse.preserves (motive := Aligned) s.aligned_readied (fun _ _ _ ha hturn => ha.turn hturn) t (by simp)

theorem compute_tells_truth_at_moves :
    ∃ s ∈ newestFollowed?, s.HookFree ∧ s.slice.tracked.isEmpty = false ∧ ∃ visited t,
      s.compute [] .run = (t, .ok .followedMatched) ∧ Tells .run s visited t .followedMatched ∧
      ∀ v, t.Proceeds v → v.slice.followed = none := by
  have hready : ∃ s ∈ newestFollowed?, s.HookFree ∧ s.slice.tracked.isEmpty = false ∧
      (s.compute [] .run).2 = .ok .followedMatched := by
    decide +kernel
  obtain ⟨s, hs, hfree, hsome, houtcome⟩ := hready
  obtain ⟨visited, t, outcome, hcompute, -, htells, hstays, -⟩ := compute_tells_truth s hfree hsome .run
  rw [hcompute] at houtcome
  cases houtcome
  obtain ⟨-, -, -, -, -, -, -, hnone⟩ := htells.matched rfl
  exact ⟨s, hs, hfree, hsome, visited, t, hcompute, htells, hstays t (by simp) hnone⟩

end Session

end TraceSlice
