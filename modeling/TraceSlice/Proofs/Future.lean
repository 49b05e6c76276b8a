import TraceSlice.Proofs.Exhaustion
import TraceSlice.Proofs.Interruption

/-!
# The future does not matter

A session that stands in the middle of a recording answers as if the recording ended there. Registers, memory, frames
and symbols are looked up in the past and in what is known of the process, so the only way to the future is
disassembly (`instructionAt?`), which searches *all* steps for an address. It is asked for the address of the current
step alone, or, when a step back has been taken, for that of the step it comes from; and it searches from the oldest
step on, so that it stops there at the latest (`instructionAt?_withFuture`).

Sessions that differ in the future only are kept so by every request, and reply alike (`serve_withFuture`). A session
whose backend has been moved on its own still remembers the address it stood at before. That address is shown to the
user, but until it is replaced (`realigns`) it is used only to judge whether a step back is progress, so it is carried
along as a second difference.
-/

namespace TraceSlice

namespace Replay

def withFuture (replay : Replay) (future : List Step) : Replay := { replay with future }

/-- `instructionAt?` the current address ends at the current step at the latest. -/
theorem instructionAt?_withFuture (replay : Replay) (future : List Step) :
    (replay.withFuture future).instructionAt? replay.current.pc =
      replay.instructionAt? replay.current.pc := by
  simp [instructionAt?, steps, withFuture, List.find?_append]

theorem disassemble_congr {replay other : Replay} (h : other.steps = replay.steps) (pc : Word) :
    Backend.disassemble other pc = Backend.disassemble replay pc := by
  simp only [Backend.disassemble, instructionAt?, h]

theorem disassemble_withFuture (replay : Replay) (future : List Step) :
    Backend.disassemble (replay.withFuture future) replay.current.pc =
      Backend.disassemble replay replay.current.pc := by
  simp only [Backend.disassemble, instructionAt?_withFuture]

theorem back_withFuture (replay : Replay) (future : List Step) :
    ∃ future', (replay.withFuture future).back = replay.back.withFuture future' := by
  cases hpast : replay.past with
  | nil => exact ⟨future, by simp [back, withFuture, hpast]⟩
  | cons step older => exact ⟨replay.current :: future, by simp [back, withFuture, hpast]⟩

end Replay

namespace Session

variable {s t : Session Replay} {future : List Step} {mode : StepMode}

/-- The session with another future ahead of its backend. -/
def withFuture (s : Session Replay) (future : List Step) : Session Replay :=
  { s with backend := s.backend.withFuture future }

/-! ### Looking at an instruction -/

theorem instructionAt_withFuture (ha : s.Aligned) :
    (s.withFuture future).instructionAt s.slice.pc = s.instructionAt s.slice.pc := by
  have hpc : s.slice.pc = s.backend.current.pc := ha
  have htext : Backend.disassemble (s.backend.withFuture future) s.slice.pc =
      Backend.disassemble s.backend s.slice.pc := by
    rw [hpc, Replay.disassemble_withFuture]
  show Decode.decode _ _ _ _ ((Backend.disassemble (s.backend.withFuture future) s.slice.pc).toOption.getD "") = _
  rw [htext]
  rfl

theorem meet_withFuture (hfree : s.HookFree) (ha : s.Aligned) :
    (s.withFuture future).meet [] =
      ⟨(s.meet []).session.withFuture future, (s.meet []).relevant, (s.meet []).followed⟩ := by
  have hinsn : (s.withFuture future).instructionAt (s.withFuture future).slice.pc =
      s.instructionAt s.slice.pc := instructionAt_withFuture ha
  by_cases h : s.written (s.instructionAt s.slice.pc) = []
  · rw [meet_of_not_written [] h, meet_of_not_written [] (s := s.withFuture future) (by rw [hinsn]; exact h), hinsn]
    rfl
  · rw [meet_hookFree hfree h, meet_hookFree (s := s.withFuture future) hfree (by rw [hinsn]; exact h), hinsn]
    rfl

theorem backed_withFuture (s : Session Replay) (future : List Step) :
    ∃ future', (s.withFuture future).backed = s.backed.withFuture future' := by
  obtain ⟨future', hback⟩ := s.backend.back_withFuture future
  refine ⟨future', ?_⟩
  simp only [backed, withFuture, hback]
  rfl

/-- Whether the instruction at hand repeats (`repeatsAt`) does not depend on the future, not even after the step back
from it. -/
theorem repeatsAt_backed_withFuture (ha : s.Aligned) :
    (s.withFuture future).backed.repeatsAt s.slice.pc = s.backed.repeatsAt s.slice.pc := by
  have hpc : s.slice.pc = s.backend.current.pc := ha
  have htext : Backend.disassemble (s.backend.withFuture future).back s.slice.pc =
      Backend.disassemble s.backend.back s.slice.pc := by
    rw [hpc, Replay.disassemble_congr (Replay.steps_back _), Replay.disassemble_congr s.backend.steps_back,
      Replay.disassemble_withFuture]
  unfold repeatsAt
  rw [show (s.withFuture future).backed.backend = (s.backend.withFuture future).back from rfl, htext]
  rfl

/-- Whether the step back is progress (`moves`) does not depend on the future. -/
theorem moves_withFuture (ha : s.Aligned) : (s.withFuture future).moves = s.moves := by
  obtain ⟨future', hback⟩ := s.backed_withFuture future
  have hrepeats := @repeatsAt_backed_withFuture s future ha
  rw [hback] at hrepeats
  unfold moves
  rw [hback]
  show (s.backed.slice.pc != s.slice.pc || ((s.backed.withFuture future').repeatsAt s.slice.pc && _ && _)) = _
  rw [hrepeats]
  rfl

theorem moves_meet_withFuture (hfree : s.HookFree) (ha : s.Aligned) :
    ((s.withFuture future).meet []).session.moves = (s.meet []).session.moves := by
  rw [meet_withFuture hfree ha]
  exact moves_withFuture (ha.meet [])

/-! ### Walking -/

theorem HookFree.turn_withFuture (hfree : s.HookFree) (ha : s.Aligned) {outcome : Option Outcome}
    (h : Turn [] mode s t outcome) (future : List Step) :
    ∃ future', Turn [] mode (s.withFuture future) (t.withFuture future') outcome := by
  have hmeet := @meet_withFuture s future hfree ha
  have hsession : ((s.withFuture future).meet []).session = (s.meet []).session.withFuture future := by rw [hmeet]
  have hrelevant : ((s.withFuture future).meet []).relevant = (s.meet []).relevant := by rw [hmeet]
  have hfollowed : ((s.withFuture future).meet []).followed = (s.meet []).followed := by rw [hmeet]
  have htracked : ((s.withFuture future).meet []).session.slice.tracked.isEmpty =
      (s.meet []).session.slice.tracked.isEmpty := by
    rw [hsession]
    rfl
  have hmoves := @moves_meet_withFuture s future hfree ha
  -- all turns but the first two end one step earlier
  obtain ⟨future', hback⟩ := (s.meet []).session.backed_withFuture future
  rw [← hsession] at hback
  cases h with
  | stopped hstop => exact ⟨future, .stopped hstop⟩
  | complete hrun hempty =>
      refine ⟨future, ?_⟩
      rw [← hsession]
      exact .complete hrun (htracked.trans hempty)
  | exhausted hrun hleft hstay =>
      refine ⟨future', ?_⟩
      rw [← hback]
      exact .exhausted hrun (htracked.trans hleft) (hmoves.trans hstay)
  | followed hrun hleft hgo hwritten =>
      refine ⟨future', ?_⟩
      rw [← hback]
      exact .followed hrun (htracked.trans hleft) (hmoves.trans hgo) (hfollowed.trans hwritten)
  | found hrun hleft hgo hwritten hjoins hmode =>
      refine ⟨future', ?_⟩
      rw [← hback]
      exact .found hrun (htracked.trans hleft) (hmoves.trans hgo) (hfollowed.trans hwritten)
        (hrelevant.trans hjoins) hmode
  | onward hrun hleft hgo hwritten hmode =>
      refine ⟨future', ?_⟩
      rw [← hback]
      exact .onward hrun (htracked.trans hleft) (hmoves.trans hgo) (hfollowed.trans hwritten)
        (hmode.imp_left hrelevant.trans)

theorem HookFree.onward_withFuture (hfree : s.HookFree) (ha : s.Aligned)
    (h : Relation.ReflTransGen (Onward [] mode) s t) (future : List Step) :
    t.HookFree ∧ t.Aligned ∧
      ∃ future', Relation.ReflTransGen (Onward [] mode) (s.withFuture future) (t.withFuture future') := by
  induction h with
  | refl => exact ⟨hfree, ha, future, .refl⟩
  | tail _ hturn ih =>
      obtain ⟨hfree', ha', future', hsteps⟩ := ih
      obtain ⟨future'', hturn'⟩ := hfree'.turn_withFuture ha' hturn future'
      exact ⟨hfree'.turn hturn, hturn.aligned, future'', hsteps.tail hturn'⟩

/-- `compute` ends alike whatever the future is, and whichever address the session looked at before. -/
theorem HookFree.compute_withFuture (hfree : s.HookFree) (hsome : s.slice.tracked.isEmpty = false)
    (mode : StepMode) (future : List Step) (pc : Word) :
    ∃ future', ((s.withFuture future).withPc pc).compute [] mode =
      ((s.compute [] mode).1.withFuture future', (s.compute [] mode).2) := by
  obtain ⟨t, u, outcome, hsteps, hturn, hcompute⟩ := compute_ends [] mode hsome
  obtain ⟨hfree', ha, future', hsteps'⟩ :=
    HookFree.onward_withFuture (s := s.readied) hfree s.aligned_readied hsteps future
  obtain ⟨future'', hturn'⟩ := hfree'.turn_withFuture ha hturn future'
  refine ⟨future'', ?_⟩
  rw [hcompute]
  -- a walk begins by looking where its backend stands
  exact compute_eq_of_turn (s := (s.withFuture future).withPc pc) hsome hsteps' hturn'

end Session

/-! ### Requests and their replies -/

namespace Session

variable {s : Session Replay} {future : List Step}

/-- Does the request make the session look where its backend stands? A walk does if it has something to track. -/
def realigns (s : Session Replay) : Request → Bool
  | .current | .back => true
  | .compute _ => !s.slice.tracked.isEmpty
  | _ => false

theorem addExpression_withFuture (s : Session Replay) (future : List Step) (pc : Word) (expression : String) :
    ((s.withFuture future).withPc pc).addExpression expression =
      (((s.addExpression expression).1.withFuture future).withPc pc, (s.addExpression expression).2) := by
  have hresolve : ((s.withFuture future).withPc pc).resolve expression = s.resolve expression := rfl
  unfold addExpression
  rw [hresolve]
  cases s.resolve expression <;> rfl

theorem addCurrentInstruction_withFuture (s : Session Replay) (future : List Step) (pc : Word) :
    ((s.withFuture future).withPc pc).addCurrentInstruction =
      (s.addCurrentInstruction.1.withFuture future, .ok ()) := by
  have hpc : ((s.withFuture future).withPc pc).withPc s.backend.current.pc =
      (s.withPc s.backend.current.pc).withFuture future := rfl
  have hinsn : ((s.withPc s.backend.current.pc).withFuture future).instructionAt s.backend.current.pc =
      (s.withPc s.backend.current.pc).instructionAt s.backend.current.pc := instructionAt_withFuture rfl
  rw [addCurrentInstruction_eq, addCurrentInstruction_eq]
  show (joined (((s.withFuture future).withPc pc).withPc s.backend.current.pc)
    ((((s.withFuture future).withPc pc).withPc s.backend.current.pc).instructionAt s.backend.current.pc), _) = _
  rw [hpc, hinsn]
  rfl

/-- **Other futures, same replies.** A request does the same whatever the future is, but for the future. The address
that the session looks at is its own until a request realigns it. The request is replied to alike, too; of a step back
this takes that the session looks where its backend stands. -/
theorem serve_withFuture (hfree : s.HookFree) (future : List Step) (pc : Word) (request : Request) :
    ((request = .back → s.Aligned ∧ pc = s.slice.pc) →
        ((s.withFuture future).withPc pc).reply request = s.reply request) ∧
      ∃ future', ((s.withFuture future).withPc pc).serve request =
        ((s.serve request).withFuture future').withPc
          (if s.realigns request then (s.serve request).slice.pc else pc) := by
  have htracked : ((s.withFuture future).withPc pc).slice.tracked = s.slice.tracked := rfl
  have hinsns : ((s.withFuture future).withPc pc).slice.instructions = s.slice.instructions := rfl
  unfold reply serve
  cases request with
  | track expression =>
      rw [perform, perform, addExpression_withFuture]
      exact ⟨fun _ => rfl, future, rfl⟩
  | current =>
      rw [perform, perform, addCurrentInstruction_withFuture]
      exact ⟨fun _ => rfl, future, rfl⟩
  | removeOperand index =>
      rw [perform, perform, Slice.removeOperand, Slice.removeOperand, htracked]
      cases s.slice.tracked.get? index <;> exact ⟨fun _ => rfl, future, rfl⟩
  | follow index =>
      cases index with
      | none => exact ⟨fun _ => rfl, future, rfl⟩
      | some index =>
          rw [perform, perform, Slice.setFollowed, Slice.setFollowed, htracked]
          cases s.slice.tracked.get? index <;> exact ⟨fun _ => rfl, future, rfl⟩
  | removeInstruction index =>
      rw [perform, perform, Slice.removeInstruction, Slice.removeInstruction, hinsns]
      cases s.slice.instructions[index]? <;> exact ⟨fun _ => rfl, future, rfl⟩
  | stop => exact ⟨fun _ => rfl, future, rfl⟩
  -- the one answer that looks at the counter: it tells whether the step moved
  | back =>
      obtain ⟨future', hback⟩ := s.backed_withFuture future
      have hback' : ((s.withFuture future).withPc pc).backed = s.backed.withFuture future' := hback
      rw [perform, perform, reverseStep_eq, reverseStep_eq, hback']
      refine ⟨fun hlooks => ?_, future', rfl⟩
      obtain ⟨ha, rfl⟩ := hlooks rfl
      have hmoves : ((s.withFuture future).withPc s.slice.pc).moves = s.moves := moves_withFuture ha
      rw [hmoves]
  | compute mode =>
      cases hempty : s.slice.tracked.isEmpty with
      | true =>
          rw [perform, perform, compute_of_empty hempty,
            compute_of_empty (s := (s.withFuture future).withPc pc) hempty]
          refine ⟨fun _ => rfl, future, ?_⟩
          simp [realigns, hempty]
      | false =>
          obtain ⟨future', hcompute⟩ := hfree.compute_withFuture hempty mode future pc
          have hrealigns : s.realigns (.compute mode) = true := by simp [realigns, hempty]
          rw [perform, perform, hcompute, hrealigns]
          exact ⟨fun _ => rfl, future', rfl⟩

theorem pc_serve {request : Request} (h : s.realigns request = false) :
    (s.serve request).slice.pc = s.slice.pc := by
  unfold serve
  cases request with
  | track expression =>
      obtain ⟨err, -, hadd⟩ | ⟨operands, -, hadd⟩ := s.addExpression_cases expression <;> rw [perform, hadd]
      rfl
  | current => cases h
  | back => cases h
  | removeOperand index =>
      rw [perform, Slice.removeOperand]
      cases s.slice.tracked.get? index <;> rfl
  | follow index =>
      obtain ⟨followed, hserve⟩ := s.serve_follow index
      rw [serve] at hserve
      rw [hserve]
  | removeInstruction index =>
      rw [perform, Slice.removeInstruction]
      cases s.slice.instructions[index]? <;> rfl
  | stop => rfl
  | compute mode =>
      have hempty : s.slice.tracked.isEmpty = true := by simpa [realigns] using h
      rw [perform, compute_of_empty hempty]

/-- Does one of the requests, served one after the other, realign the session (`realigns`)? -/
def realignedBy (s : Session Replay) : List Request → Bool
  | [] => false
  | request :: requests => s.realigns request || (s.serve request).realignedBy requests

/-- A session that is realigned looks where its backend stands: it is `Aligned`. -/
theorem aligned_serve_of_realigns {request : Request} (h : s.realigns request = true) : (s.serve request).Aligned := by
  cases request with
  | current => rfl
  | back =>
      rw [serve, perform, reverseStep_eq]
      exact aligned_backed s
  | compute mode =>
      have hsome : s.slice.tracked.isEmpty = false := by simpa [realigns] using h
      have hready : s.compute [] mode = s.readied.compute [] mode := by
        rw [compute_of_tracked hsome, compute_of_tracked (s := s.readied) hsome]
        rfl
      rw [serve, perform, hready]
      exact s.aligned_readied.compute [] mode
  | _ => cases h

theorem aligned_serveAll_of_realignedBy {requests : List Request} (h : s.realignedBy requests = true) :
    (s.serveAll requests).Aligned := by
  induction requests generalizing s with
  | nil => cases h
  | cons request requests ih =>
      cases hrealigns : s.realigns request with
      | true =>
          exact serveAll_induction (fun t request (ht : t.Aligned) => ht.serve request)
            (aligned_serve_of_realigns hrealigns) requests
      | false => exact ih (by simpa [realignedBy, hrealigns] using h)

theorem serveAll_withFuture (hfree : s.HookFree) (future : List Step) (pc : Word) (requests : List Request) :
    ∃ future' pc', ((s.withFuture future).withPc pc).serveAll requests =
        ((s.serveAll requests).withFuture future').withPc pc' ∧
      (pc = s.slice.pc ∨ s.realignedBy requests = true → pc' = (s.serveAll requests).slice.pc) := by
  induction requests generalizing s future pc with
  | nil =>
      refine ⟨future, pc, rfl, fun h => ?_⟩
      show pc = s.slice.pc
      simpa [realignedBy] using h
  | cons request requests ih =>
      obtain ⟨-, future', hserve⟩ := serve_withFuture hfree future pc request
      obtain ⟨future'', pc'', hall, hpc⟩ := ih (hfree.serve request) future' _
      refine ⟨future'', pc'', ?_, fun h => hpc ?_⟩
      · show (((s.withFuture future).withPc pc).serve request).serveAll requests = _
        rw [hserve]
        exact hall
      · -- once the two look at the same address they keep doing so
        cases hrealigns : s.realigns request with
        | true => exact Or.inl rfl
        | false =>
            rw [pc_serve hrealigns]
            simpa [realignedBy, hrealigns] using h

end Session

/-! ### Cutting a recording short -/

/-- The recording of the first `count` steps. -/
def Recording.cut (recording : Recording) (count : Nat) : Recording :=
  { recording with steps := recording.steps.take count }

namespace Replay

theorem kept_rewoundTo (replay : Replay) (p : Nat) :
    (replay.rewoundTo p).process = replay.process ∧ (replay.rewoundTo p).arch = replay.arch := by
  unfold rewoundTo
  induction replay.position - p with
  | zero => exact ⟨rfl, rfl⟩
  | succ n ih => simp [Function.iterate_succ_apply', ih]

/-- To open a recording that was `cut` short is to go back in the whole one and to forget the rest. -/
theorem ofRecording_cut {recording : Recording} {replay : Replay} {p : Nat}
    (h : ofRecording recording = .ok replay) (hp : p < recording.steps.length) :
    (replay.rewoundTo p).position = p ∧
      ofRecording (recording.cut (p + 1)) = .ok ((replay.rewoundTo p).withFuture []) := by
  have hsteps : (replay.rewoundTo p).steps = recording.steps := by
    rw [steps_rewoundTo, steps_of_ofRecording h]
  obtain ⟨hprocess, harch⟩ := replay.kept_rewoundTo p
  obtain ⟨arch, newest, older, hname, hreverse, rfl⟩ := ofRecording_inv h
  have hposition : ((Replay.mk recording.toProcess arch older newest []).rewoundTo p).position = p := by
    have hlength := congrArg List.length hreverse
    rw [List.length_reverse, List.length_cons] at hlength
    refine position_rewoundTo ?_
    show p ≤ older.length
    omega
  refine ⟨hposition, ?_⟩
  generalize (Replay.mk recording.toProcess arch older newest []).rewoundTo p = here at *
  have hcut : (recording.cut (p + 1)).steps.reverse = here.current :: here.past := by
    have htake := here.take_position_succ
    rw [hposition, hsteps] at htake
    rw [Recording.cut, htake, List.reverse_reverse]
  have hname' : Arch.ofName? (recording.cut (p + 1)).archName = some arch := hname
  simp only [ofRecording, hcut, hname', withFuture, hprocess, harch]
  rfl

end Replay

namespace Session

theorem start_of_process {replay other : Replay} {config : Config} {s : Session Replay}
    (hprocess : other.process = replay.process) (h : start replay config = .ok s) :
    start other config = .ok ({ s with backend := other }.withPc other.current.pc) := by
  have hname : Backend.architectureName other = Backend.architectureName replay :=
    congrArg Process.archName hprocess
  unfold start at h ⊢
  rw [hname]
  split at h
  · cases h
  · cases h
    rfl

/-- The session with its backend moved back on its own (`rewoundTo`). -/
def movedTo (s : Session Replay) (p : Nat) : Session Replay := { s with backend := s.backend.rewoundTo p }

/-- **The past does not depend on the future.** Cut a recording off after the step at position `p`. A plain session on
the whole recording, whose backend has been moved back to that position, and a plain session on the recording that
was cut take the same requests in the same way. After each of them the tracked operands, the slice, the followed
operand, the last return value and the position are the same, and so is the address that the sessions look at, once a
request has realigned them. Each request is replied to alike; whether a step back was progress is judged by that
address, so it is told alike once a request has realigned the sessions. -/
theorem past_independent_of_future (recording : Recording) (config : Config) (p : Nat)
    (hp : p < recording.steps.length) (s : Session Replay) (hs : s ∈ ofRecording? recording config) :
    (s.movedTo p).backend.position = p ∧
    ∃ t ∈ ofRecording? (recording.cut (p + 1)) config, ∀ requests here there,
      here = (s.movedTo p).serveAll requests → there = t.serveAll requests →
      (∀ request, (request = .back → (s.movedTo p).realignedBy requests = true) →
        there.reply request = here.reply request) ∧
      there.slice.tracked = here.slice.tracked ∧
      there.slice.instructions = here.slice.instructions ∧
      there.slice.followed = here.slice.followed ∧
      there.lastReturn = here.lastReturn ∧
      there.backend.position = here.backend.position ∧
      ((s.movedTo p).realignedBy requests = true → there.slice.pc = here.slice.pc) := by
  have hfree : (s.movedTo p).HookFree := (fresh_of_ofRecording? hs).hookFree
  obtain ⟨replay, hreplay, hstarted⟩ := Option.bind_eq_some_iff.mp hs
  have hstart := Except.eq_ok_of_mem_toOption hstarted
  have hbackend : s.backend = replay := by
    obtain ⟨arch, rfl⟩ := start_eq hstart
    rfl
  -- the session on the recording that was cut is the moved one, with nothing ahead of it
  obtain ⟨hposition, hcut⟩ := Replay.ofRecording_cut (Except.eq_ok_of_mem_toOption hreplay) hp
  have hprocess : ((replay.rewoundTo p).withFuture []).process = replay.process := (replay.kept_rewoundTo p).1
  have hstart' := start_of_process hprocess hstart
  refine ⟨?_, ((s.movedTo p).withFuture []).withPc (replay.rewoundTo p).current.pc, ?_, ?_⟩
  · rw [movedTo, hbackend]
    exact hposition
  · refine Option.bind_eq_some_iff.mpr ⟨_, congrArg Except.toOption hcut, ?_⟩
    rw [hstart', movedTo, hbackend]
    rfl
  · rintro requests here there rfl rfl
    obtain ⟨future, pc, hall, hpc⟩ := serveAll_withFuture hfree [] (replay.rewoundTo p).current.pc requests
    have hfree' : ((s.movedTo p).serveAll requests).HookFree :=
      serveAll_induction (fun _ request ht => ht.serve request) hfree requests
    rw [hall]
    refine ⟨fun request hback => ?_, rfl, rfl, rfl, rfl, rfl, fun hrealigned => hpc (Or.inr hrealigned)⟩
    refine (serve_withFuture hfree' future pc request).1 fun heq => ?_
    exact ⟨aligned_serveAll_of_realignedBy (hback heq), hpc (Or.inr (hback heq))⟩

end Session

/-- A jump back to an instruction that has been patched meanwhile: its address has another text later on, and the
register that it reads another value. -/
def patchedLoop : Recording where
  archName := "i386"
  steps :=
    [{ pc := 0x1000, asm := "mov eax,ebx", registers := .ofList [("eax", 1), ("ebx", 2), ("ecx", 3)] },
      { pc := 0x1002, asm := "jmp 0x1000", registers := .ofList [("eax", 2)] },
      { pc := 0x1000, asm := "mov eax,ecx", registers := .ofList [("ebx", 4)] },
      { pc := 0x1002, asm := "jmp 0x1000", registers := .ofList [("eax", 3)] }]

namespace Session

theorem past_independent_of_future_at_patched_loop :
    ∃ s ∈ ofRecording? patchedLoop {}, (s.movedTo 0).backend.position = 0 ∧ s.slice.pc = 0x1002 ∧
      ∃ t ∈ ofRecording? (patchedLoop.cut 1) {}, ∃ here there : Session Replay,
        here = (s.movedTo 0).serveAll [.track "$eax", .compute .run] ∧
        there = t.serveAll [.track "$eax", .compute .run] ∧
        there.slice.instructions = here.slice.instructions ∧
        there.slice.tracked = here.slice.tracked ∧ there.slice.pc = here.slice.pc ∧
        here.slice.instructions.map (·.text) = ["mov eax,ebx"] ∧
        there.reply (.removeOperand 0) = here.reply (.removeOperand 0) := by
  have hready : ∃ s ∈ ofRecording? patchedLoop {}, s.slice.pc = 0x1002 ∧
      (s.movedTo 0).realignedBy [.track "$eax", .compute .run] = true ∧
      ((s.movedTo 0).serveAll [.track "$eax", .compute .run]).slice.instructions.map (·.text) =
        ["mov eax,ebx"] := by
    decide +kernel
  obtain ⟨s, hs, hpc, hrealigned, htexts⟩ := hready
  obtain ⟨hposition, t, ht, hsame⟩ :=
    past_independent_of_future patchedLoop {} 0 (by decide) s hs
  obtain ⟨hreply, htracked, hinsns, -, -, -, hlooks⟩ := hsame [.track "$eax", .compute .run] _ _ rfl rfl
  exact ⟨s, hs, hposition, hpc, t, ht, _, _, rfl, rfl, hinsns, htracked, hlooks hrealigned, htexts,
    hreply _ (by simp)⟩

end Session

end TraceSlice
