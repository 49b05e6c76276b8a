import Mathlib.Data.List.Basic
import TraceSlice.Proofs.Request
import TraceSlice.Proofs.Stop

/-!
# Interrupted walks

A walk that ends with an instruction found, or because the followed operand was written, has only been **interrupted**
(`Outcome.isInterruption`): it stands at the next instruction to be looked at, and the next walk takes up there. What
is followed decides where walks are interrupted and nothing else. So however a user splits the way back into walks,
and whatever is followed meanwhile, the walks together do what a single one does that runs on and follows nothing
(`compute_run_eq_serveAll`).

The argument is a simulation. Without hooks, a turn of any walk is, once what is followed is forgotten, a turn of a
walk that runs on, in which an interruption becomes a turn that goes on (`HookFree.turn_unfollow`).
-/

namespace TraceSlice

/-- Has a walk that ends so only been interrupted? -/
def Outcome.isInterruption : Outcome → Bool
  | .instructionFound | .followedMatched => true
  | _ => false

namespace Session

variable {mode : StepMode} {s t : Session Replay} {outcome : Outcome}

/-! ### Forgetting what is followed -/

theorem unfollow_sameStand (s : Session Replay) : s.SameStand s.unfollow :=
  ⟨rfl, rfl, rfl, rfl, rfl, rfl, rfl⟩

@[simp] theorem backed_unfollow (s : Session Replay) : s.unfollow.backed = s.backed.unfollow := rfl

@[simp] theorem moves_unfollow (s : Session Replay) : s.unfollow.moves = s.moves :=
  s.unfollow_sameStand.moves

@[simp] theorem absorbed_unfollow (s : Session Replay) (insn : Instruction) :
    s.unfollow.absorbed insn = (s.absorbed insn).unfollow := by
  -- only the followed operand depends on what is followed, and it is forgotten on both sides
  have hnone : (if (s.unfollow.written insn).any s.unfollow.slice.isFollowed then none
      else s.unfollow.slice.followed) = none := ite_self none
  unfold absorbed
  rw [hnone]
  rfl

/-- Whatever is followed, `meet` does the same. -/
theorem HookFree.meet_unfollow (hfree : s.HookFree) :
    s.unfollow.meet [] = ⟨(s.meet []).session.unfollow, (s.meet []).relevant, false⟩ := by
  by_cases h : s.written (s.instructionAt s.slice.pc) = []
  · rw [meet_of_not_written [] h, meet_of_not_written (s := s.unfollow) [] h]
    rfl
  · have hnot : (s.written (s.instructionAt s.slice.pc)).any s.unfollow.slice.isFollowed = false :=
      List.any_eq_false.mpr fun _ _ => Bool.false_ne_true
    rw [meet_hookFree hfree h, meet_hookFree (s := s.unfollow) hfree h, ← absorbed_unfollow]
    exact congrArg (Visit.mk _ true) hnot

/-! ### Turns -/

theorem HookFree.running_turn (hfree : s.HookFree) (hrun : s.slice.running = true)
    {outcome : Option Outcome} (h : Turn [] mode s t outcome) : t.slice.running = true := by
  rw [h.slice hrun]
  exact hfree.running_meet.trans hrun

/-- **Simulation.** Once what is followed is forgotten (`unfollow`), a turn of any walk is a turn of one that runs on,
and interruptions are turns that go on. -/
theorem HookFree.turn_unfollow (hfree : s.HookFree) (hrun : s.slice.running = true)
    {outcome : Option Outcome} (h : Turn [] mode s t outcome) :
    Turn [] .run s.unfollow t.unfollow (outcome.filter fun o => !o.isInterruption) := by
  have hmeet := hfree.meet_unfollow
  have hsession : (s.unfollow.meet []).session = (s.meet []).session.unfollow := by rw [hmeet]
  have hfollowed : (s.unfollow.meet []).followed = false := by rw [hmeet]
  -- the session that a turn of the other walk ends with, by what the turn does
  have honward (hleft : (s.meet []).session.slice.tracked.isEmpty = false)
      (hmoves : (s.meet []).session.moves = true) :
      Turn [] .run s.unfollow (s.meet []).session.backed.unfollow none := by
    rw [← backed_unfollow, ← hsession]
    refine .onward hrun ?_ ?_ hfollowed (Or.inr rfl)
    · rw [hsession]
      exact hleft
    · rw [hsession, moves_unfollow]
      exact hmoves
  cases h with
  | stopped hstop => simp [hrun] at hstop
  | complete _ hempty =>
      rw [← hsession]
      refine .complete hrun ?_
      rw [hsession]
      exact hempty
  | exhausted _ hleft hstay =>
      rw [← backed_unfollow, ← hsession]
      refine .exhausted hrun ?_ ?_
      · rw [hsession]
        exact hleft
      · rw [hsession, moves_unfollow]
        exact hstay
  | followed _ hleft hmoves => exact honward hleft hmoves
  | found _ hleft hmoves => exact honward hleft hmoves
  | onward _ hleft hmoves => exact honward hleft hmoves

/-! ### Walks -/

/-- The walk that runs on and follows nothing goes the same way, `Onward` by `Onward`. -/
theorem HookFree.onward_unfollow (hfree : s.HookFree)
    (h : Relation.ReflTransGen (Onward [] mode) s.readied t) :
    Relation.ReflTransGen (Onward [] .run) s.unfollow.readied t.unfollow := by
  induction h with
  | refl => exact .refl
  | tail hsteps hturn ih =>
      obtain ⟨hfree', hrun⟩ := hfree.onward hsteps
      exact ih.tail (hfree'.turn_unfollow hrun hturn)

theorem Onward.tracked {hooks : List Hook} (h : Onward hooks mode s t) :
    t.slice.tracked.isEmpty = false := by
  cases h with
  | onward _ hleft => exact hleft

/-- A walk that goes on to a session (`Onward`) ends as the walk from there does. -/
theorem compute_eq_of_onward {hooks : List Hook} (hsome : s.slice.tracked.isEmpty = false)
    (hsteps : Relation.ReflTransGen (Onward hooks mode) s.readied t)
    (hleft : t.slice.tracked.isEmpty = false) (hready : t.readied = t) :
    s.compute hooks mode = t.compute hooks mode := by
  rw [compute_of_tracked hsome, compute_of_tracked hleft, hready]
  exact (walk_eq_of_onward s.aligned_readied hsteps).2

/-- A session that runs and is `Aligned` with its backend is ready for a walk. -/
theorem readied_eq (ha : s.Aligned) (hrun : s.slice.running = true) : s.readied = s := by
  have hslice : { s.slice with running := true, pc := s.backend.current.pc } = s.slice := by
    rw [← hrun, ← show s.slice.pc = s.backend.current.pc from ha]
  exact congrArg (fun slice => { s with slice }) hslice

/-- After an interruption (`isInterruption`), the walk that runs on goes on as from the start. -/
theorem HookFree.compute_of_interrupted (hfree : s.HookFree)
    (h : s.compute [] mode = (t, .ok outcome)) (hinterrupted : outcome.isInterruption = true) :
    s.unfollow.compute [] .run = t.unfollow.compute [] .run := by
  cases hempty : s.slice.tracked.isEmpty with
  | true =>
      rw [compute_of_empty hempty] at h
      cases h
      cases hinterrupted
  | false =>
      obtain ⟨u, v, outcome, hsteps, hturn, hcompute⟩ := compute_ends [] mode hempty
      rw [hcompute] at h
      cases h
      obtain ⟨hfree', hrun⟩ := hfree.onward hsteps
      have hsteps' := hfree.onward_unfollow hsteps
      have hturn' := hfree'.turn_unfollow hrun hturn
      simp only [Option.filter, hinterrupted] at hturn'
      have hrun' : t.slice.running = true := hfree'.running_turn hrun hturn
      have hready : t.unfollow.readied = t.unfollow := readied_eq (Onward.aligned hturn') hrun'
      exact compute_eq_of_onward hempty (hsteps'.tail hturn') (Onward.tracked hturn') hready

/-- A walk that is not interrupted ends as the one that runs on does. -/
theorem HookFree.compute_of_ended (hfree : s.HookFree) (h : s.compute [] mode = (t, .ok outcome))
    (hended : outcome.isInterruption = false) :
    s.unfollow.compute [] .run = (t.unfollow, .ok outcome) := by
  cases hempty : s.slice.tracked.isEmpty with
  | true =>
      rw [compute_of_empty hempty] at h
      cases h
      exact compute_of_empty hempty
  | false =>
      obtain ⟨u, v, outcome, hsteps, hturn, hcompute⟩ := compute_ends [] mode hempty
      rw [hcompute] at h
      cases h
      obtain ⟨hfree', hrun⟩ := hfree.onward hsteps
      have hsteps' := hfree.onward_unfollow hsteps
      have hturn' := hfree'.turn_unfollow hrun hturn
      simp only [Option.filter, hended] at hturn'
      exact compute_eq_of_turn hempty hsteps' hturn'

/-- A walk that ends with `instructionFound` adds one instruction to the slice. -/
theorem instructions_of_found {hooks : List Hook}
    (h : s.compute hooks mode = (t, .ok .instructionFound)) :
    ∃ insn, t.slice.instructions = s.slice.instructions ++ [insn] := by
  cases hempty : s.slice.tracked.isEmpty with
  | true =>
      rw [compute_of_empty hempty] at h
      cases h
  | false =>
      have hmode : mode = .step := by
        obtain ⟨v, u, outcome, -, hturn, hcompute⟩ := compute_ends hooks mode hempty
        rw [hcompute] at h
        cases h
        cases hturn with
        | found _ _ _ _ _ hmode => exact hmode
      subst hmode
      obtain ⟨u, outcome, hcompute, hcases⟩ := compute_step_cases hooks hempty
      rw [hcompute] at h
      cases h
      rcases hcases with ⟨-, hfound⟩ | ⟨-, -, hexhausted⟩
      · exact hfound
      · cases hexhausted

end Session

/-! ### Dialogues -/

/-- Does the request ask for a walk, or choose what is followed? -/
def Request.isWalkOrFollow : Request → Bool
  | .compute _ | .follow _ => true
  | _ => false

namespace Session

variable {s : Session Replay}

/-- How the walks end that a list of requests asks for, in order. -/
def outcomes (s : Session Replay) : List Request → List (Except SliceError Outcome)
  | [] => []
  | .compute mode :: requests => (s.compute [] mode).2 :: (s.serve (.compute mode)).outcomes requests
  | request :: requests => (s.serve request).outcomes requests

theorem unfollow_serve_follow (s : Session Replay) (index : Option Nat) :
    (s.serve (.follow index)).unfollow = s.unfollow := by
  obtain ⟨followed, hserve⟩ := s.serve_follow index
  rw [hserve]
  rfl

/-- Requests that ask for no walk only choose what is followed, which `unfollow` forgets. -/
theorem unfollow_serveAll_of_no_outcomes {requests : List Request}
    (hkind : ∀ request ∈ requests, request.isWalkOrFollow = true) (h : s.outcomes requests = []) :
    (s.serveAll requests).unfollow = s.unfollow := by
  induction requests generalizing s with
  | nil => rfl
  | cons request requests ih =>
      obtain ⟨hhead, hrest⟩ := List.forall_mem_cons.mp hkind
      cases request with
      | compute mode => cases h
      | follow index => exact (ih hrest h).trans (s.unfollow_serve_follow index)
      | _ => cases hhead

/-- Walks that are interrupted again and again end as one that runs on. -/
theorem HookFree.compute_eq_serveAll {requests : List Request} {earlier : List Outcome} {final : Outcome}
    (hfree : s.HookFree) (hkind : ∀ request ∈ requests, request.isWalkOrFollow = true)
    (houtcomes : s.outcomes requests = (earlier ++ [final]).map .ok)
    (hearlier : ∀ outcome ∈ earlier, outcome.isInterruption = true)
    (hfinal : final.isInterruption = false) :
    s.unfollow.compute [] .run = ((s.serveAll requests).unfollow, .ok final) := by
  induction requests generalizing s earlier with
  | nil => simp [outcomes] at houtcomes
  | cons request requests ih =>
      obtain ⟨hhead, hrest⟩ := List.forall_mem_cons.mp hkind
      cases request with
      | follow index =>
          rw [← s.unfollow_serve_follow index]
          exact ih (hfree.serve (.follow index)) hrest houtcomes hearlier
      | compute mode =>
          have hfree' : (s.compute [] mode).1.HookFree := hfree.compute
          cases earlier with
          | nil =>
              -- this walk is the last one
              obtain ⟨hhere, hnone⟩ := List.cons.inj houtcomes
              rw [hfree.compute_of_ended (Prod.ext rfl hhere) hfinal]
              exact congrArg (Prod.mk · _) (unfollow_serveAll_of_no_outcomes hrest hnone).symm
          | cons outcome earlier =>
              obtain ⟨hhere, hafter⟩ := List.cons.inj houtcomes
              obtain ⟨hfirst, hearlier⟩ := List.forall_mem_cons.mp hearlier
              rw [hfree.compute_of_interrupted (Prod.ext rfl hhere) hfirst]
              exact ih hfree' hrest hafter hearlier
      | _ => cases hhead

/-- **Interruptions do not matter.** Take any walks without hooks, with any choices of what is followed before,
between and after them, of which all but the last are interrupted and the last exhausts what is tracked or
history. One walk that runs on from the same session, with nothing followed, has the last outcome and leads to
the same session, but for what is followed. Each walk that finds an instruction adds one to the slice. -/
theorem compute_run_eq_serveAll (s : Session Replay) (hfree : s.HookFree) (requests : List Request)
    (hkind : ∀ request ∈ requests, request.isWalkOrFollow = true) (earlier : List Outcome)
    (final : Outcome) (houtcomes : s.outcomes requests = (earlier ++ [final]).map .ok)
    (hearlier : ∀ outcome ∈ earlier, outcome = .instructionFound ∨ outcome = .followedMatched)
    (hfinal : final = .operandExhausted ∨ final = .historyExhausted) :
    s.unfollow.compute [] .run = ((s.serveAll requests).unfollow, .ok final) ∧
    ∀ before mode after t, requests = before ++ .compute mode :: after →
      (s.serveAll before).compute [] mode = (t, .ok .instructionFound) →
      ∃ insn, t.slice.instructions = (s.serveAll before).slice.instructions ++ [insn] := by
  refine ⟨hfree.compute_eq_serveAll hkind houtcomes (fun outcome houtcome => ?_) ?_,
    fun _ _ _ _ _ hfound => instructions_of_found hfound⟩
  · rcases hearlier outcome houtcome with rfl | rfl <;> rfl
  · rcases hfinal with rfl | rfl <;> rfl

end Session

/-- Three steps that write registers that have nothing to do with each other. -/
def threeMoves : Recording where
  archName := "i386"
  steps :=
    [{ pc := 0x1000, asm := "mov ecx,edx",
       registers := .ofList [("eax", 1), ("ebx", 2), ("ecx", 3), ("edx", 4), ("esi", 5), ("edi", 6)] },
      { pc := 0x1002, asm := "mov ebx,esi" },
      { pc := 0x1004, asm := "mov eax,edi" }]

namespace Session

/-- All three written registers are tracked. -/
def allTracked? : Option (Session Replay) :=
  (ofRecording? threeMoves {}).map (·.serveAll [.track "$eax", .track "$ebx", .track "$ecx"])

/-- Walks to the newest write, from there to that of the operand followed then, and to the end. The second
choice of what to follow fails. -/
def threeWalks : List Request :=
  [.compute .step, .follow (some 0), .follow (some 9), .compute .run, .compute .step]

theorem compute_run_eq_serveAll_at_moves :
    ∃ s ∈ allTracked?, s.HookFree ∧
      s.outcomes threeWalks = [.ok .instructionFound, .ok .followedMatched, .ok .historyExhausted] ∧
      s.unfollow.compute [] .run = ((s.serveAll threeWalks).unfollow, .ok .historyExhausted) := by
  have hready : ∃ s ∈ allTracked?, s.HookFree ∧
      s.outcomes threeWalks = [.ok .instructionFound, .ok .followedMatched, .ok .historyExhausted] := by
    decide +kernel
  obtain ⟨s, hs, hfree, houtcomes⟩ := hready
  have hrun := compute_run_eq_serveAll s hfree threeWalks (by decide)
    [.instructionFound, .followedMatched] .historyExhausted houtcomes (by decide) (by decide)
  exact ⟨s, hs, hfree, houtcomes, hrun.1⟩

end Session

end TraceSlice
