import TraceSlice.Proofs.Opening
import TraceSlice.Session.Request

/-!
# What requests do

A dialogue is a list of requests (`serveAll`, `trail`), each of which `Session.perform` performs. Walks aside, all that
a request can do to a session is said once, by the rules of `Served`; what requests preserve is derived from these. So
sessions without hooks never come by one (`HookFree.serve`), and no request changes what is ignored
(`isIgnored_serve`).
-/

namespace TraceSlice

namespace Session

section

variable {β : Type} [Backend β]

/-- The session after a request, performed without hooks. -/
def serve (s : Session β) (request : Request) : Session β := (s.perform [] request).1

/-- What a session replies to a request. -/
def reply (s : Session β) (request : Request) : Except SliceError Reply := (s.perform [] request).2

/-- The session after a list of requests: `serve` one after the other. -/
def serveAll (s : Session β) (requests : List Request) : Session β := requests.foldl serve s

/-- The sessions that a list of requests leads through, from the first one on. -/
def trail (s : Session β) : List Request → List (Session β)
  | [] => [s]
  | request :: requests => s :: (s.serve request).trail requests

/-- A property that every request preserves (`serve`) holds all along the trail. -/
theorem trail_induction {motive : Session β → Prop}
    (step : ∀ s request, motive s → motive (s.serve request)) {s : Session β} (hs : motive s)
    (requests : List Request) : ∀ t ∈ s.trail requests, motive t := by
  induction requests generalizing s with
  | nil =>
      intro t ht
      rw [List.mem_singleton.mp ht]
      exact hs
  | cons request requests ih =>
      intro t ht
      rcases List.mem_cons.mp ht with rfl | ht
      · exact hs
      · exact ih (step s request hs) t ht

/-- A property that every request preserves holds after a list of them. -/
theorem serveAll_induction {motive : Session β → Prop}
    (step : ∀ s request, motive s → motive (s.serve request)) {s : Session β} (hs : motive s)
    (requests : List Request) : motive (s.serveAll requests) := by
  induction requests generalizing s with
  | nil => exact hs
  | cons request requests ih => exact ih (step s request hs)

/-! ### What is tracked carries no hooks -/

/-- The bytes that a memory operand names carry no hooks. -/
theorem hook_of_mem_memoryBytes {s : Session β} {text : List Char} :
    ∀ o ∈ s.memoryBytes text, o.hook = none := by
  intro o ho
  obtain ⟨use, huse, rfl⟩ := List.mem_map.mp (List.mem_filter.mp ho).1
  exact (Decode.Context.argument_faithful _ _ _ use (List.mem_filter.mp huse).1).hook

/-- What an expression names (`resolve`) carries no hooks. -/
theorem hook_of_resolve {s : Session β} {expression : String} {operands : List Operand}
    (h : s.resolve expression = .ok operands) : ∀ o ∈ operands, o.hook = none := by
  have hsingle : ∀ o : Operand, o.hook = none → ∀ other ∈ [o], other.hook = none := by
    intro o ho other hother
    rw [List.mem_singleton.mp hother]
    exact ho
  -- the three forms in turn: a register, bytes of memory, an address
  unfold resolve at h
  dsimp only at h
  split at h
  · split at h
    · cases h
    · split at h
      · cases h
      · rw [← Except.ok.inj h]
        exact hsingle _ rfl
  · split at h
    · split at h
      · cases h
      · rw [← Except.ok.inj h]
        exact hook_of_mem_memoryBytes
    · split at h
      · cases h
      · split at h
        · cases h
        · rw [← Except.ok.inj h]
          exact hsingle _ rfl

/-! ### What requests do -/

/-- What a request that is no walk can make of a session: one rule for each kind of change. -/
inductive Served (s : Session β) : Session β → Prop
  /-- It fails. -/
  | fails : Served s s
  /-- It tracks operands that carry no hooks. -/
  | tracks {operands : List Operand} (hhook : ∀ o ∈ operands, o.hook = none) : Served s (s.addOperands operands)
  /-- It lets the instruction that the backend stands at join the slice, and tracks what that reads. -/
  | joins {pc : Word} (hpc : Backend.programCounter s.backend = .ok pc) :
      Served s ((s.withPc pc).joined ((s.withPc pc).instructionAt pc))
  /-- It stops tracking one operand, and following it. -/
  | drops {index : Nat} {o : Operand} (hget : s.slice.tracked.get? index = some o) :
      Served s
        { s with
          slice :=
            { s.slice with
              tracked := s.slice.tracked.eraseIdx index
              followed := if s.slice.isFollowed o then none else s.slice.followed } }
  /-- It follows a tracked operand, or none. -/
  | follows {followed : Option Operand} (hmem : ∀ f ∈ followed, f ∈ s.slice.tracked.toList) :
      Served s { s with slice := { s.slice with followed } }
  /-- It takes an instruction out of the slice. -/
  | cuts {index : Nat} :
      Served s { s with slice := { s.slice with instructions := s.slice.instructions.eraseIdx index } }
  /-- It stops. -/
  | stops : Served s s.stop
  /-- It steps back. -/
  | steps : Served s s.reverseStep.1

theorem served_addExpression (s : Session β) (expression : String) : s.Served (s.addExpression expression).1 := by
  obtain ⟨err, -, hadd⟩ | ⟨operands, hresolve, hadd⟩ := s.addExpression_cases expression
  · rw [hadd]
    exact .fails
  · rw [hadd]
    refine .tracks fun o ho => ?_
    obtain ⟨named, hnamed, rfl⟩ := List.mem_map.mp ho
    rw [hook_withSymbol]
    exact hook_of_resolve hresolve named hnamed

theorem served_addCurrentInstruction (s : Session β) : s.Served s.addCurrentInstruction.1 := by
  obtain ⟨err, -, hadd⟩ | ⟨pc, hpc, hadd⟩ := s.addCurrentInstruction_cases
  · rw [hadd]
    exact .fails
  · rw [hadd]
    exact .joins hpc

/-- Requests other than walks follow the rules of `Served`. -/
theorem served_perform (s : Session β) (hooks : List Hook) {request : Request} (h : ∀ mode, request ≠ .compute mode) :
    s.Served (s.perform hooks request).1 := by
  cases request with
  | track expression => exact s.served_addExpression expression
  | current => exact s.served_addCurrentInstruction
  | removeOperand index =>
      simp only [perform, Slice.removeOperand]
      cases hget : s.slice.tracked.get? index with
      | none => exact .fails
      | some o => exact .drops hget
  | follow index =>
      cases index with
      | none => exact .follows (by simp)
      | some index =>
          simp only [perform, Slice.setFollowed]
          cases hget : s.slice.tracked.get? index with
          | none => exact .fails
          | some o =>
              refine .follows fun f hf => ?_
              cases hf
              exact List.mem_of_getElem? hget
  | removeInstruction index =>
      simp only [perform, Slice.removeInstruction]
      cases s.slice.instructions[index]? with
      | none => exact .fails
      | some insn => exact .cuts
  | stop => exact .stops
  | back => exact .steps
  | compute mode => exact absurd rfl (h mode)

theorem served_serve (s : Session β) {request : Request} (h : ∀ mode, request ≠ .compute mode) :
    s.Served (s.serve request) :=
  s.served_perform [] h

/-- Choosing what is followed changes nothing else, whether or not the index is one of a tracked operand. -/
theorem serve_follow (s : Session β) (index : Option Nat) :
    ∃ followed, s.serve (.follow index) = { s with slice := { s.slice with followed } } := by
  cases index with
  | none => exact ⟨none, rfl⟩
  | some index =>
      simp only [serve, perform, Slice.setFollowed]
      cases s.slice.tracked.get? index with
      | none => exact ⟨s.slice.followed, rfl⟩
      | some o => exact ⟨some o, rfl⟩

/-! ### What requests preserve -/

theorem HookFree.served {s t : Session β} (hfree : s.HookFree) (h : s.Served t) : t.HookFree := by
  cases h with
  | tracks hhook =>
      intro o ho
      rcases Tracked.mem_toList_extend ho with ho | ⟨ho, -⟩
      · exact hfree o ho
      · exact hhook o ho
  | joins hpc =>
      intro o ho
      rcases Tracked.mem_toList_extend ho with ho | ⟨ho, -⟩
      · exact hfree o ho
      · exact hook_of_mem_trackableSources hook_of_mem_instructionAt o ho
  | drops hget => exact fun o ho => hfree o (List.mem_of_mem_eraseIdx ho)
  | steps =>
      intro o ho
      rw [tracked_reverseStep] at ho
      exact hfree o ho
  | fails => exact hfree
  | follows => exact hfree
  | cuts => exact hfree
  | stops => exact hfree

end

variable {s t : Session Replay}

/-- Over a recording, the instruction at hand is always known, so `addCurrentInstruction` never fails. -/
theorem addCurrentInstruction_eq (s : Session Replay) :
    s.addCurrentInstruction =
      ((s.withPc s.backend.current.pc).joined
        ((s.withPc s.backend.current.pc).instructionAt s.backend.current.pc), .ok ()) := rfl

theorem HookFree.serve (hfree : s.HookFree) (request : Request) : (s.serve request).HookFree := by
  by_cases h : ∃ mode, request = .compute mode
  · obtain ⟨mode, rfl⟩ := h
    exact hfree.compute
  · exact hfree.served (s.served_serve fun mode heq => h ⟨mode, heq⟩)

theorem isIgnored_served (h : s.Served t) : t.isIgnored = s.isIgnored := by
  cases h with
  | steps => rw [reverseStep_eq]; rfl
  | _ => rfl

/-- No request changes what is ignored (`isIgnored`). -/
theorem isIgnored_serve (s : Session Replay) (request : Request) :
    (s.serve request).isIgnored = s.isIgnored := by
  by_cases h : ∃ mode, request = .compute mode
  · obtain ⟨mode, rfl⟩ := h
    exact compute_induction (motive := fun t => t.isIgnored = s.isIgnored) rfl id
      fun t u outcome ht hturn => hturn.isIgnored.trans ht
  · exact isIgnored_served (s.served_serve fun mode heq => h ⟨mode, heq⟩)

end Session

end TraceSlice
