import TraceSlice.Proofs.Request

/-!
# What can be done to a session

An `Operation` is anything that can happen to a session after `Session.start`: a request with hooks, the seeding and the
start hooks of a crash, decoding an instruction, switching the monitoring of the stack, moves of the backend alone,
direct changes of the tracked operands, and whatever else leaves these alone. Which operations a result is about is said
by a predicate on them (`Operation.InStep`, `Operation.WithinRecording`, `Operation.FollowsNothing`), and what a session
goes through is a list of them (`operateAll`). An invariant then takes one lemma about `operate`, for which it is enough
to look at the parts of operations (`operate_induction`), and holds of all that arises by such operations
(`operateAll_induction`, `ArisesBy.induction`).

Crashed sessions arise so too: a crash is a seed, a step back and start hooks (`arisesBy_of_crashed`).
-/

namespace TraceSlice

/-- What can be done to the `Tracked` operands by their own operations. -/
inductive Tracked.Change where
  | insert (operand : Operand)
  | extend (operands : List Operand)
  | remove (index : Nat)
  | retain (keep : Operand → Bool)
  | relabel (index : Nat) (label : Relabeling)
  | relabelAll (label : Relabeling)

def Tracked.change (tracked : Tracked) : Tracked.Change → Tracked
  | .insert operand => (tracked.insert operand).1
  | .extend operands => tracked.extend operands
  | .remove index => tracked.eraseIdx index
  | .retain keep => tracked.retain keep
  | .relabel index label => tracked.modify index label
  | .relabelAll label => tracked.map label

/-- What can be done to a session. -/
inductive Operation (β : Type) where
  /-- A request is performed, with hooks that run while walking. -/
  | request (hooks : List Hook) (request : Request)
  /-- The session is seeded from the way the program ended. -/
  | seed
  /-- A start hook runs. -/
  | startHook (hook : StartHook)
  /-- The instruction at an address is decoded. -/
  | decode (pc : Word)
  /-- The monitoring of the stack is switched. -/
  | monitor (on : Bool)
  /-- The backend is moved, and the session is not told. -/
  | move (f : β → β)
  /-- The tracked operands are changed. -/
  | change (c : Tracked.Change)
  /-- Anything else that leaves the tracked operands alone. -/
  | other (f : Session β → Session β) (h : ∀ s, (f s).slice.tracked = s.slice.tracked)

namespace Operation

variable {β : Type}

/-- Does the session know where its backend stands afterwards? Not if the backend was moved alone (`move`). -/
def InStep : Operation β → Prop
  | .move _ | .other .. => False
  | _ => True

/-- Does the backend stay within its recording? -/
def WithinRecording : Operation Replay → Prop
  | .move f => ∀ replay, (f replay).steps = replay.steps
  | .other .. => False
  | _ => True

/-- Is no operand chosen to be followed? -/
def FollowsNothing : Operation β → Prop
  | .request _ (.follow (some _)) => False
  | .other f _ => ∀ s, (f s).slice.followed = s.slice.followed
  | _ => True

end Operation

namespace Session

section

variable {β : Type} [Backend β]

/-- The session after an operation. A `seed` that fails leaves it as it was. -/
def operate (s : Session β) : Operation β → Session β
  | .request hooks request => (s.perform hooks request).1
  | .seed =>
    match s.seed with
    | .ok (_, t) => t
    | .error _ => s
  | .startHook hook => s.runStartHook hook
  | .decode pc => s.remember (s.instructionAt pc)
  | .monitor on => { s with monitorStack := on }
  | .move f => { s with backend := f s.backend }
  | .change c => { s with slice := { s.slice with tracked := s.slice.tracked.change c } }
  | .other f _ => f s

def operateAll (s : Session β) (operations : List (Operation β)) : Session β := operations.foldl operate s

/-- What every operation that is `allowed` preserves, a list of them does. -/
theorem operateAll_induction {motive : Session β → Prop} {allowed : Operation β → Prop}
    (step : ∀ s op, allowed op → motive s → motive (s.operate op)) {s : Session β} (hs : motive s)
    {operations : List (Operation β)} (h : ∀ op ∈ operations, allowed op) : motive (s.operateAll operations) := by
  induction operations generalizing s with
  | nil => exact hs
  | cons op operations ih =>
      obtain ⟨hop, hrest⟩ := List.forall_mem_cons.mp h
      exact ih (step s op hop hs) hrest

theorem operate_seed_cases (s : Session β) :
    s.operate .seed = s ∨ ∃ report, s.seed = .ok (report, s.operate .seed) := by
  cases hseed : s.seed with
  | error err => exact .inl (by simp [operate, hseed])
  | ok result => exact .inr ⟨result.1, by simp [operate, hseed]⟩

/-- Apart from the triage, a start hook does what a request may do (`Served`), and writes into the journal. -/
theorem runStartHook_cases (s : Session β) {hook : StartHook} (h : hook ≠ .triage) :
    ∃ t journal, s.Served t ∧ s.runStartHook hook = { t with journal } := by
  cases hook with
  | nothing => exact ⟨s, s.journal, .fails, rfl⟩
  | triage => exact absurd rfl h
  | log => exact ⟨s, _, .fails, rfl⟩
  -- the journal tells how the request went; the rest is the request's own doing
  | track expression =>
      have hserved := s.served_addExpression expression
      rw [runStartHook, trackAndNote]
      cases hadd : s.addExpression expression with
      | mk t answer =>
          rw [hadd] at hserved
          cases answer <;> exact ⟨t, _, hserved, rfl⟩
  | current =>
      have hserved := s.served_addCurrentInstruction
      rw [runStartHook]
      cases hadd : s.addCurrentInstruction with
      | mk t answer =>
          rw [hadd] at hserved
          cases answer with
          | ok => exact ⟨t, t.journal, hserved, rfl⟩
          | error err => exact ⟨t, _, hserved, rfl⟩
  | stop => exact ⟨s.stop, s.stop.journal, .stops, rfl⟩

/-- A property that the parts of operations preserve is preserved by every operation that is made of them: `motive`
has one case for each part. -/
theorem operate_induction {motive : Session β → Prop} {s : Session β} {op : Operation β} (hop : op.InStep)
    (hs : motive s) (served : ∀ u v : Session β, u.Served v → motive u → motive v)
    (walk : ∀ (u : Session β) hooks mode, motive u → motive (u.compute hooks mode).1)
    (seed : ∀ (u v : Session β) report, u.seed = .ok (report, v) → motive u → motive v)
    (decode : ∀ (u : Session β) pc, motive u → motive (u.remember (u.instructionAt pc)))
    (aside : ∀ (u : Session β) tracked journal monitorStack, motive u →
      motive { u with slice := { u.slice with tracked }, journal, monitorStack }) : motive (s.operate op) := by
  cases op with
  | request hooks request =>
      by_cases hwalk : ∃ mode, request = .compute mode
      · obtain ⟨mode, rfl⟩ := hwalk
        exact walk s hooks mode hs
      · exact served _ _ (s.served_perform hooks fun mode heq => hwalk ⟨mode, heq⟩) hs
  | seed =>
      obtain hsame | ⟨report, hseed⟩ := s.operate_seed_cases
      · rw [hsame]
        exact hs
      · exact seed _ _ report hseed hs
  | startHook hook =>
      by_cases htriage : hook = .triage
      · subst htriage
        -- triage is steps back, one instruction joining, and the hooks put on the operands
        exact triage_induction hs (fun u => served _ _ .steps) (fun u pc hpc => served _ _ (.joins hpc))
          fun u corruption => aside u _ u.journal u.monitorStack
      · obtain ⟨t, journal, hserved, hrun⟩ := s.runStartHook_cases htriage
        rw [operate, hrun]
        exact aside t t.slice.tracked journal t.monitorStack (served _ _ hserved hs)
  | decode pc => exact decode s pc hs
  | monitor on => exact aside s s.slice.tracked s.journal on hs
  | change c => exact aside s _ s.journal s.monitorStack hs
  | move f => exact hop.elim
  | other f h => exact hop.elim

end

/-! ### Over a recording -/

/-- The session has come from `Session.start` by operations that are `allowed`. -/
def ArisesBy (allowed : Operation Replay → Prop) (s : Session Replay) : Prop :=
  ∃ replay config started operations, Session.start replay config = .ok started ∧
    (∀ op ∈ operations, allowed op) ∧ started.operateAll operations = s

variable {allowed : Operation Replay → Prop} {s : Session Replay}

/-- What a start establishes and every operation that is `allowed` preserves holds of all that arises by them. -/
theorem ArisesBy.induction {motive : Session Replay → Prop} (h : s.ArisesBy allowed)
    (start : ∀ replay config started, Session.start replay config = .ok started → motive started)
    (step : ∀ t op, allowed op → motive t → motive (t.operate op)) : motive s := by
  obtain ⟨replay, config, started, operations, hstart, hops, rfl⟩ := h
  exact operateAll_induction step (start replay config started hstart) hops

theorem arisesBy_of_start {replay : Replay} {config : Config} (h : Session.start replay config = .ok s) :
    s.ArisesBy allowed :=
  ⟨replay, config, s, [], h, by simp, rfl⟩

theorem ArisesBy.operateAll (h : s.ArisesBy allowed) {operations : List (Operation Replay)}
    (hops : ∀ op ∈ operations, allowed op) : (s.operateAll operations).ArisesBy allowed := by
  obtain ⟨replay, config, started, earlier, hstart, hearlier, rfl⟩ := h
  refine ⟨replay, config, started, earlier ++ operations, hstart, ?_, List.foldl_append⟩
  exact List.forall_mem_append.mpr ⟨hearlier, hops⟩

/-- `Slicer.crashed` is a seed, a step back and start hooks. -/
theorem arisesBy_of_crashed {replay : Replay} {hooks : Hooks} {config : Config} {slicer : Slicer Replay}
    {report : SeedReport} (h : Slicer.crashed replay hooks config = .ok (slicer, report))
    (hseed : allowed .seed) (hback : allowed (.request [] .back)) (hhook : ∀ hook, allowed (.startHook hook)) :
    slicer.session.ArisesBy allowed := by
  obtain ⟨started, seeded, hstart, hseeded, rfl⟩ := crashed_inv h
  have hoperate : started.operate .seed = seeded := by rw [operate, hseeded]
  dsimp only
  split
  · have hhooks : ∀ op ∈ hooks.onStart.map Operation.startHook, allowed op := by
      simpa using fun hook _ => hhook hook
    have hops : ∀ op ∈ [Operation.seed, .request [] .back], allowed op := by simp [hseed, hback]
    have harises := ((arisesBy_of_start hstart).operateAll hops).operateAll hhooks
    have hbacked : started.operateAll [.seed, .request [] .back] = seeded.backed := by
      show (started.operate .seed).reverseStep.1 = seeded.backed
      rw [hoperate, reverseStep_eq]
    rwa [hbacked, Session.operateAll, List.foldl_map] at harises
  · have harises := (arisesBy_of_start hstart).operateAll (List.forall_mem_singleton.mpr hseed)
    rwa [show started.operateAll [.seed] = seeded from hoperate] at harises

theorem Fresh.arisesBy (h : s.Fresh) (hseed : allowed .seed) (hback : allowed (.request [] .back))
    (hhook : ∀ hook, allowed (.startHook hook)) : s.ArisesBy allowed := by
  cases h with
  | plain h => exact arisesBy_of_start h
  | crashed h => exact arisesBy_of_crashed h hseed hback hhook

end Session

end TraceSlice
