import TraceSlice.Proofs.Walk
import TraceSlice.Session.Drive

/-!
# Drives

A drive (`Slicer.drive`) walks back again and again as long as walks only end because they found an instruction. Walks
over a recording never fail, and each of these ends at a lower position, so the fuel of a drive never runs out: a
drive ends as the drive from any of its walks on does (`drive_of_agains`). The slice only grows on the way
(`drive_grows`).
-/

namespace TraceSlice

namespace Session

variable {hooks : List Hook} {mode : StepMode} {s t : Session Replay}

/-! ### The slice only grows -/

theorem meet_grows (s : Session Replay) (hooks : List Hook) :
    s.slice.instructions <+: (s.meet hooks).session.slice.instructions := by
  by_cases h : s.written (s.instructionAt s.slice.pc) = []
  · rw [meet_of_not_written hooks h]
    exact List.prefix_rfl
  · obtain ⟨comment, hinsns⟩ := meet_instructions hooks h
    exact ⟨_, hinsns.symm⟩

theorem Turn.grows {outcome : Option Outcome} (h : Turn hooks mode s t outcome) :
    s.slice.instructions <+: t.slice.instructions := by
  rcases h.eq_cases with rfl | rfl | rfl
  · exact List.prefix_rfl
  · exact s.meet_grows hooks
  · exact s.meet_grows hooks

theorem compute_grows (s : Session Replay) (hooks : List Hook) (mode : StepMode) :
    s.slice.instructions <+: (s.compute hooks mode).1.slice.instructions :=
  compute_induction (motive := fun t => s.slice.instructions <+: t.slice.instructions)
    List.prefix_rfl id fun _ _ _ ht hturn => ht.trans hturn.grows

/-! ### Walks that find an instruction go back -/

theorem position_le_of_onward (h : Relation.ReflTransGen (Onward hooks mode) s.readied t) :
    t.backend.position ≤ s.backend.position := by
  induction h with
  | refl => exact Nat.le_refl _
  | tail hsteps hturn ih =>
      have hposition := hturn.position (walk_eq_of_onward s.aligned_readied hsteps).1
      omega

theorem position_lt_of_found (h : s.compute hooks mode = (t, .ok .instructionFound)) :
    t.backend.position < s.backend.position := by
  cases hempty : s.slice.tracked.isEmpty with
  | true =>
      rw [compute_of_empty hempty] at h
      cases h
  | false =>
      obtain ⟨u, v, outcome, hsteps, hturn, hcompute⟩ := compute_ends hooks mode hempty
      rw [hcompute] at h
      cases h
      have haligned := (walk_eq_of_onward s.aligned_readied hsteps).1
      have hle := position_le_of_onward hsteps
      cases hturn with
      | found hrun hleft hmoves hfollowed hrelevant hmode =>
          have hposition := position_of_moves (haligned.meet hooks) hmoves
          rw [(u.meet_sameStand hooks).backend] at hposition
          have hu : (u.remember (u.instructionAt u.slice.pc)).backend = u.backend := rfl
          rw [hu] at hposition
          omega

end Session

namespace Slicer

variable {mode : StepMode} {a b : Slicer Replay}

/-! ### Walk after walk -/

/-- One walk of a drive that finds an instruction, so that the drive goes on. -/
def Again (mode : StepMode) (a b : Slicer Replay) : Prop := a.compute mode = (b, .ok .instructionFound)

theorem compute_eq {u : Session Replay} {outcome : Outcome}
    (h : a.session.compute a.hooks.onMatch mode = (u, .ok outcome)) :
    a.compute mode = ({ a with session := u }, .ok outcome) := by
  unfold compute
  rw [h]

/-- `compute` over a recording does not fail. -/
theorem exists_compute (a : Slicer Replay) (mode : StepMode) :
    ∃ t outcome, a.session.compute a.hooks.onMatch mode = (t, .ok outcome) ∧
      a.compute mode = ({ a with session := t }, .ok outcome) := by
  have hok : ∃ t outcome, a.session.compute a.hooks.onMatch mode = (t, .ok outcome) := by
    cases hempty : a.session.slice.tracked.isEmpty with
    | true => exact ⟨_, _, Session.compute_of_empty hempty⟩
    | false =>
        obtain ⟨-, u, outcome, -, -, hcompute⟩ := Session.compute_ends a.hooks.onMatch mode hempty
        exact ⟨u, outcome, hcompute⟩
  obtain ⟨t, outcome, hcompute⟩ := hok
  exact ⟨t, outcome, hcompute, compute_eq hcompute⟩

theorem Again.hooks (h : Again mode a b) : b.hooks = a.hooks := by
  obtain ⟨t, outcome, -, hcompute⟩ := a.exists_compute mode
  unfold Again at h
  rw [hcompute] at h
  cases h
  rfl

theorem Again.position_lt (h : Again mode a b) :
    b.session.backend.position < a.session.backend.position := by
  obtain ⟨t, outcome, hsession, hcompute⟩ := a.exists_compute mode
  unfold Again at h
  rw [hcompute] at h
  cases h
  exact Session.position_lt_of_found hsession

theorem driveFor_of_again (h : Again mode a b) (fuel : Nat) :
    (a.driveFor mode (fuel + 1)).slicer = (b.driveFor mode fuel).slicer := by
  rw [driveFor, h]

theorem driveFor_of_ended {outcome : Outcome} (h : a.compute mode = (b, .ok outcome))
    (hne : outcome ≠ .instructionFound) (fuel : Nat) :
    (a.driveFor mode (fuel + 1)).slicer = b := by
  rw [driveFor, h]
  cases outcome with
  | instructionFound => exact absurd rfl hne
  | _ => rfl

/-- `driveFor` with more fuel than the position ends the same, however much there is. -/
theorem driveFor_eq {n m : Nat} (hn : a.session.backend.position < n)
    (hm : a.session.backend.position < m) :
    (a.driveFor mode n).slicer = (a.driveFor mode m).slicer := by
  -- a walk after which the drive goes on lowers the position, and so the fuel that is enough
  induction n generalizing a m with
  | zero => omega
  | succ n ih =>
      obtain ⟨m, rfl⟩ := Nat.exists_eq_add_one_of_ne_zero (Nat.ne_of_gt (Nat.zero_lt_of_lt hm))
      obtain ⟨t, outcome, -, hcompute⟩ := a.exists_compute mode
      by_cases hfound : outcome = .instructionFound
      · subst hfound
        have hlt := Again.position_lt hcompute
        rw [driveFor_of_again hcompute, driveFor_of_again hcompute]
        exact ih (by omega) (by omega)
      · rw [driveFor_of_ended hcompute hfound, driveFor_of_ended hcompute hfound]

/-- A drive ends as the drive from its second walk on does (`Again`). -/
theorem drive_of_again (h : Again mode a b) : (a.drive mode).slicer = (b.drive mode).slicer := by
  have hlt := h.position_lt
  unfold drive
  rw [driveFor_of_again h]
  exact driveFor_eq hlt (Nat.lt_succ_self _)

theorem drive_of_agains (h : Relation.ReflTransGen (Again mode) a b) :
    (a.drive mode).slicer = (b.drive mode).slicer := by
  induction h with
  | refl => rfl
  | tail _ hagain ih => exact ih.trans (drive_of_again hagain)

theorem hooks_of_agains (h : Relation.ReflTransGen (Again mode) a b) : b.hooks = a.hooks := by
  induction h with
  | refl => rfl
  | tail _ hagain ih => exact hagain.hooks.trans ih

theorem driveFor_grows (a : Slicer Replay) (fuel : Nat) :
    a.session.slice.instructions <+: (a.driveFor mode fuel).slicer.session.slice.instructions := by
  induction fuel generalizing a with
  | zero => exact List.prefix_rfl
  | succ fuel ih =>
      obtain ⟨t, outcome, hsession, hcompute⟩ := a.exists_compute mode
      have hwalk := a.session.compute_grows a.hooks.onMatch mode
      rw [hsession] at hwalk
      by_cases hfound : outcome = .instructionFound
      · subst hfound
        rw [driveFor_of_again hcompute]
        exact hwalk.trans (ih { a with session := t })
      · rw [driveFor_of_ended hcompute hfound]
        exact hwalk

theorem drive_of_ended {outcome : Outcome} (h : a.compute mode = (b, .ok outcome))
    (hne : outcome ≠ .instructionFound) : (a.drive mode).slicer = b :=
  driveFor_of_ended h hne _

/-- What the first walk of a drive finds stays. -/
theorem drive_grows {outcome : Outcome} (h : a.compute mode = (b, .ok outcome)) :
    b.session.slice.instructions <+: (a.drive mode).slicer.session.slice.instructions := by
  by_cases hfound : outcome = .instructionFound
  · subst hfound
    rw [drive_of_again h]
    exact b.driveFor_grows _
  · have hend := drive_of_ended h hfound
    exact ⟨[], by rw [hend, List.append_nil]⟩

end Slicer

end TraceSlice
