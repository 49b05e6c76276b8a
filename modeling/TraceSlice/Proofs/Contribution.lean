import Mathlib.Data.List.Nodup
import TraceSlice.Proofs.Course
import TraceSlice.Proofs.Interruption
import TraceSlice.Proofs.Opening

/-!
# What each step contributes to a slice

Without hooks, a walk adds one entry to the slice for each instruction that it looks at and that matters, in
the order in which it looks at them (`HookFree.instructions_course`). Afterwards the session stands below all
of them, unless nothing is tracked any more, and so the next walk looks at older steps only, as long as nobody
tracks anything new or goes forth in between. There is one exception. Below the oldest step there is nothing: a
walk that exhausts history there, and a crash that is seeded there, leave the session on a step that has had its
turn. Hence every step contributes at most one entry, however many walks there are, but for the oldest one
(`sliced_once_above_oldest`), which is sliced again by every walk that begins there while it matters.

Positions along all walks are therefore ordered by `older ≤ newer - 1`, in truncated subtraction: strictly
decreasing down to 0, which may repeat.
-/

namespace TraceSlice

/-- In a list that decreases strictly down to 0, nothing else repeats. -/
theorem count_le_one_of_pairwise {ps : List Nat} (h : ps.Pairwise fun newer older => older ≤ newer - 1)
    {p : Nat} (hp : p ≠ 0) : ps.count p ≤ 1 := by
  induction h with
  | nil => simp
  | @cons newer ps hbelow _ ih =>
      by_cases heq : newer = p
      · have hnot : p ∉ ps := fun hmem => by
          have := hbelow p hmem
          omega
        simp [heq, List.count_eq_zero_of_not_mem hnot]
      · simpa [heq] using ih

theorem nodup_iff_of_pairwise {ps : List Nat} (h : ps.Pairwise fun newer older => older ≤ newer - 1) :
    ps.Nodup ↔ ps.count 0 ≤ 1 := by
  rw [List.nodup_iff_count_le_one]
  refine ⟨fun hcount => hcount 0, fun hzero p => ?_⟩
  by_cases hp : p = 0
  · rw [hp]
    exact hzero
  · exact count_le_one_of_pairwise h hp

theorem countP_flatten_of_le_one {α : Type} {p : α → Bool} {ls : List (List α)}
    (h : ∀ l ∈ ls, l.countP p ≤ 1) : ls.flatten.countP p = ls.countP (·.any p) := by
  induction ls with
  | nil => rfl
  | cons l ls ih =>
      obtain ⟨hl, hls⟩ := List.forall_mem_cons.mp h
      have hcount : l.countP p = if l.any p then 1 else 0 := by
        split
        · next hany => exact Nat.le_antisymm hl (List.countP_pos_iff.mpr (List.any_eq_true.mp hany))
        · next hnone => simpa [List.countP_eq_zero] using hnone
      rw [List.flatten_cons, List.countP_append, ih hls, List.countP_cons, hcount, Nat.add_comm]

namespace Session

variable {mode : StepMode} {s t : Session Replay} {outcome : Outcome} {visited : List (Session Replay)}

/-! ### What a walk adds -/

/-- Does the instruction that the session looks at join the slice? This is `meet` without hooks. -/
def matters (s : Session Replay) : Bool := (s.meet []).relevant

theorem HookFree.instructions_meet (hfree : s.HookFree) :
    (s.meet []).session.slice.instructions =
      s.slice.instructions ++ if s.matters then [s.entry] else [] :=
  hfree.meet_induction
    (motive := fun v =>
      v.session.slice.instructions = s.slice.instructions ++ if v.relevant then [s.entry] else [])
    (fun _ => (List.append_nil _).symm) fun _ => rfl

theorem HookFree.instructions_turn (hfree : s.HookFree) (hrun : s.slice.running = true)
    {outcome : Option Outcome} (h : Turn [] mode s t outcome) :
    t.slice.instructions = s.slice.instructions ++ if s.matters then [s.entry] else [] := by
  rw [h.slice hrun]
  exact hfree.instructions_meet

/-- A walk adds the instructions that matter among those that it looks at (`Course`), in this order. -/
theorem HookFree.instructions_course (hfree : s.HookFree) (hrun : s.slice.running = true)
    (h : Course [] mode s visited t outcome) :
    t.slice.instructions = s.slice.instructions ++ (visited.filter matters).map entry := by
  induction h with
  | stopped => simp
  | last _ hturn =>
      rw [hfree.instructions_turn hrun hturn, List.filter_cons, List.filter_nil]
      split <;> simp
  | onward hturn _ ih =>
      rw [ih (hfree.turn hturn) (hfree.running_turn hrun hturn), hfree.instructions_turn hrun hturn,
        List.filter_cons]
      split <;> simp

theorem HookFree.instructions_computes (hfree : s.HookFree) (h : s.Computes [] mode visited t outcome) :
    t.slice.instructions = s.slice.instructions ++ (visited.filter matters).map entry := by
  cases h with
  | idle => simp
  | walks _ hcourse => exact HookFree.instructions_course (s := s.readied) hfree rfl hcourse

/-- A walk looks at each step once, newest first. It ends below all of them, or with nothing tracked
(`Course.counts_down`). -/
theorem Computes.positions {hooks : List Hook} (h : s.Computes hooks mode visited t outcome) :
    visited.Pairwise (fun v w => w.backend.position < v.backend.position) ∧
      (∀ v ∈ visited ++ [t], v.backend.position ≤ s.backend.position) ∧
      (t.slice.tracked.isEmpty = true ∨ ∀ v ∈ visited, t.backend.position ≤ v.backend.position - 1) := by
  cases h with
  | idle hempty => simp [hempty]
  | walks _ hcourse =>
      obtain ⟨left, hpositions, hend⟩ := hcourse.counts_down s.aligned_readied
      have hsorted := countdown_pairwise (s.readied.backend.position + 1)
      rw [← hpositions, List.pairwise_append, List.pairwise_map] at hsorted
      have hantitone := hcourse.position_antitone
      rw [List.cons_append, List.map_cons, List.pairwise_cons, List.forall_mem_map] at hantitone
      refine ⟨hsorted.1, hantitone.1, ?_⟩
      rcases hend with hend | ⟨-, hempty⟩
      · refine Or.inr fun v hv => ?_
        have hleft := le_of_append_countdown hpositions (List.mem_map_of_mem hv)
        omega
      · exact Or.inl hempty

/-- All that a walk looks at belongs to the recording, and the session is `Aligned` with it there. -/
theorem Computes.aligned {hooks : List Hook} (h : s.Computes hooks mode visited t outcome) :
    (∀ v ∈ visited, v.Aligned ∧ v.backend.steps = s.backend.steps) ∧ t.backend.steps = s.backend.steps := by
  cases h with
  | idle => simp
  | walks _ hcourse =>
      have hall := hcourse.preserves (motive := fun v => v.Aligned ∧ v.backend.steps = s.backend.steps)
        ⟨s.aligned_readied, rfl⟩ fun u v _ hu hturn => ⟨hu.1.turn hturn, hturn.steps_eq.trans hu.2⟩
      exact ⟨fun v hv => hall v (List.mem_append_left _ hv), (hall t (by simp)).2⟩

end Session

/-! ### On the way back -/

/-- Does the request leave the slice alone, and track nothing new? -/
def Request.isQuiet : Request → Bool
  | .follow _ | .removeOperand _ | .stop | .back => true
  | _ => false

/-- Is the request a walk or `isQuiet`? -/
def Request.isRetreat : Request → Bool
  | .compute _ => true
  | request => request.isQuiet

namespace Session

variable {s t : Session Replay} {request : Request} {requests : List Request} {visits : List (List (Session Replay))}

/-- One session has found what another has, in the same recording. It may stand further back, and tracks
nothing if the other does not. -/
structure Retreats (s t : Session Replay) : Prop where
  instructions : t.slice.instructions = s.slice.instructions
  steps : t.backend.steps = s.backend.steps
  position : t.backend.position ≤ s.backend.position
  empty : s.slice.tracked.isEmpty = true → t.slice.tracked.isEmpty = true

theorem retreats_removeOperand (s : Session Replay) (index : Nat) :
    s.Retreats (s.serve (.removeOperand index)) := by
  simp only [serve, perform, Slice.removeOperand]
  cases s.slice.tracked.get? index with
  | none => exact ⟨rfl, rfl, Nat.le_refl _, id⟩
  | some o =>
      refine ⟨rfl, rfl, Nat.le_refl _, fun hempty => ?_⟩
      rw [Tracked.isEmpty_iff] at hempty ⊢
      exact List.eq_nil_iff_forall_not_mem.mpr fun o ho =>
        List.eq_nil_iff_forall_not_mem.mp hempty o (List.mem_of_mem_eraseIdx ho)

theorem retreats_serve (hquiet : request.isQuiet = true) : s.Retreats (s.serve request) := by
  cases request with
  | back =>
      rw [serve, perform, reverseStep_eq]
      exact ⟨rfl, by simp, by simp, id⟩
  | follow index =>
      obtain ⟨followed, hserve⟩ := s.serve_follow index
      rw [hserve]
      exact ⟨rfl, rfl, Nat.le_refl _, id⟩
  | removeOperand index => exact s.retreats_removeOperand index
  | stop => exact ⟨rfl, rfl, Nat.le_refl _, id⟩
  | _ => cases hquiet

/-- Walks one after the other (`Computes`), with quiet requests in between. For each walk, the sessions are listed at
which it looks at an instruction. -/
inductive Walked : Session Replay → List Request → List (List (Session Replay)) → Session Replay → Prop
  | done {s : Session Replay} : Walked s [] [] s
  | walk {s t u : Session Replay} {mode : StepMode} {requests : List Request} {outcome : Outcome}
      {visited : List (Session Replay)} {visits : List (List (Session Replay))}
      (h : s.Computes [] mode visited t outcome) (hrest : Walked t requests visits u) :
      Walked s (.compute mode :: requests) (visited :: visits) u
  | aside {s u : Session Replay} {request : Request} {requests : List Request}
      {visits : List (List (Session Replay))} (hquiet : request.isQuiet = true)
      (hrest : Walked (s.serve request) requests visits u) : Walked s (request :: requests) visits u

theorem Computes.serve_eq {mode : StepMode} {visited : List (Session Replay)} {outcome : Outcome}
    (h : s.Computes [] mode visited t outcome) : s.serve (.compute mode) = t := by
  rw [serve, perform, h.compute_eq]

theorem exists_walked (s : Session Replay) {requests : List Request}
    (h : ∀ request ∈ requests, request.isRetreat = true) :
    ∃ visits, s.Walked requests visits (s.serveAll requests) := by
  induction requests generalizing s with
  | nil => exact ⟨[], .done⟩
  | cons request requests ih =>
      obtain ⟨hrequest, hrequests⟩ := List.forall_mem_cons.mp h
      obtain ⟨visits, hrest⟩ := ih (s.serve request) hrequests
      by_cases hwalk : ∃ mode, request = .compute mode
      · obtain ⟨mode, rfl⟩ := hwalk
        obtain ⟨visited, t, outcome, hcomputes⟩ := exists_computes [] mode s
        refine ⟨visited :: visits, .walk hcomputes ?_⟩
        rw [← hcomputes.serve_eq]
        exact hrest
      · have hquiet : request.isQuiet = true := by
          unfold Request.isRetreat at hrequest
          split at hrequest
          · next mode => exact absurd ⟨mode, rfl⟩ hwalk
          · exact hrequest
        exact ⟨visits, .aside hquiet hrest⟩

/-- With nothing tracked, no walk looks at anything. -/
theorem Walked.flatten_of_empty (h : s.Walked requests visits t) (hempty : s.slice.tracked.isEmpty = true) :
    visits.flatten = [] := by
  induction h with
  | done => rfl
  | walk h _ ih =>
      cases h with
      | idle => exact ih hempty
      | walks hsome => simp [hsome] at hempty
  | aside hquiet _ ih => exact ih ((retreats_serve hquiet).empty hempty)

theorem Walked.instructions (hfree : s.HookFree) (h : s.Walked requests visits t) :
    t.slice.instructions = s.slice.instructions ++ (visits.flatten.filter matters).map entry := by
  induction h with
  | done => simp
  | @walk s t u mode requests outcome visited visits h _ ih =>
      have hfree' : t.HookFree := h.serve_eq ▸ hfree.serve (.compute mode)
      rw [ih hfree', hfree.instructions_computes h]
      simp
  | aside hquiet _ ih => rw [ih (hfree.serve _), (retreats_serve hquiet).instructions]

theorem Walked.aligned (h : s.Walked requests visits t) :
    ∀ v ∈ visits.flatten, v.Aligned ∧ v.backend.steps = s.backend.steps := by
  induction h with
  | done => simp
  | walk h _ ih =>
      obtain ⟨hvisited, hsteps⟩ := h.aligned
      rw [hsteps] at ih
      rw [List.flatten_cons, List.forall_mem_append]
      exact ⟨hvisited, ih⟩
  | aside hquiet _ ih =>
      rw [(retreats_serve hquiet).steps] at ih
      exact ih

/-- Along all the walks, positions decrease strictly down to 0. -/
theorem Walked.positions (h : s.Walked requests visits t) :
    (∀ v ∈ visits.flatten, v.backend.position ≤ s.backend.position) ∧
      visits.flatten.Pairwise fun v w => w.backend.position ≤ v.backend.position - 1 := by
  induction h with
  | done => simp
  | walk h hrest ih =>
      obtain ⟨hlow, hpairs⟩ := ih
      obtain ⟨hsorted, hle, hend⟩ := h.positions
      rw [List.forall_mem_append, List.forall_mem_singleton] at hle
      rw [List.flatten_cons, List.forall_mem_append, List.pairwise_append]
      refine ⟨⟨hle.1, fun v hv => Nat.le_trans (hlow v hv) hle.2⟩,
        hsorted.imp fun hlt => Nat.le_sub_one_of_lt hlt, hpairs, fun v hv w hw => ?_⟩
      -- what follows begins where this walk has ended, or has nothing to track
      rcases hend with hempty | hend
      · rw [hrest.flatten_of_empty hempty] at hw
        cases hw
      · exact Nat.le_trans (hlow w hw) (hend v hv)
  | aside hquiet _ ih =>
      exact ⟨fun v hv => Nat.le_trans (ih.1 v hv) (retreats_serve hquiet).position, ih.2⟩

theorem Walked.nodup (h : s.Walked requests visits t) :
    ∀ visited ∈ visits, (visited.map fun v => v.backend.position).Nodup := by
  induction h with
  | done => simp
  | walk h _ ih =>
      refine List.forall_mem_cons.mpr ⟨List.pairwise_map.mpr ?_, ih⟩
      exact h.positions.1.imp fun hlt => Nat.ne_of_gt hlt
  | aside _ _ ih => exact ih

/-! ### The oldest step -/

def onOldest (s : Session Replay) : Bool := s.backend.position == 0

theorem count_zero_positions (visited : List (Session Replay)) :
    (visited.map fun v => v.backend.position).count 0 = visited.countP onOldest := by
  rw [List.count, List.countP_map]
  rfl

/-- Each walk that finds the oldest step to matter slices it once: `onOldest` counts walks. -/
theorem Walked.countP_onOldest (h : s.Walked requests visits t) :
    (visits.flatten.filter matters).countP onOldest =
      visits.countP (·.any fun v => v.onOldest && v.matters) := by
  rw [List.countP_filter]
  refine countP_flatten_of_le_one fun visited hvisited => ?_
  calc visited.countP (fun v => v.onOldest && v.matters)
      ≤ visited.countP onOldest := List.countP_mono_left fun v _ hv => (Bool.and_eq_true_iff.mp hv).1
    _ = (visited.map fun v => v.backend.position).count 0 := (count_zero_positions visited).symm
    _ ≤ 1 := List.nodup_iff_count_le_one.mp (h.nodup visited hvisited) 0

/-! ### From the beginning -/

/-- A session without hooks as walks find it: just started, plain or from a crash, and then given expressions
to track. With it goes the session at which seeding put an instruction into the slice, if it did. -/
inductive Primed : Session Replay → List (Session Replay) → Prop
  | plain {replay : Replay} {config : Config} {s : Session Replay}
      (h : Session.start replay config = .ok s) : Primed s []
  | crashed {replay : Replay} {config : Config} {started : Session Replay} {slicer : Slicer Replay}
      {report : SeedReport} (hstart : Session.start replay config = .ok started)
      (h : Slicer.crashed replay {} config = .ok (slicer, report)) :
      Primed slicer.session (if report.blamesInstruction then [started] else [])
  | track {s : Session Replay} {seeds : List (Session Replay)} (h : Primed s seeds) (expression : String) :
      Primed (s.serve (.track expression)) seeds

variable {seeds : List (Session Replay)}

theorem Primed.hookFree (h : s.Primed seeds) : s.HookFree := by
  induction h with
  | plain h => exact (Fresh.plain h).hookFree
  | crashed _ h => exact (Fresh.crashed h).hookFree
  | track _ expression ih => exact ih.serve (.track expression)

/-- What seeding has left: the slice holds the blamed instruction, and the session stands one step before, unless on
the oldest. -/
structure Seeded (s : Session Replay) (seeds : List (Session Replay)) : Prop where
  instructions : s.slice.instructions = seeds.map entry
  pairwise : seeds.Pairwise fun v w => w.backend.position ≤ v.backend.position - 1
  position : ∀ v ∈ seeds, s.backend.position = v.backend.position - 1
  aligned : ∀ v ∈ seeds, v.Aligned ∧ v.backend.steps = s.backend.steps

theorem seeded_of_crashed {replay : Replay} {config : Config} {started : Session Replay}
    {slicer : Slicer Replay} {report : SeedReport} (hstart : Session.start replay config = .ok started)
    (h : Slicer.crashed replay {} config = .ok (slicer, report)) :
    slicer.session.Seeded (if report.blamesInstruction then [started] else []) := by
  obtain ⟨started', seeded, hstart', hseed, hsession⟩ := crashed_eq h
  rw [hstart] at hstart'
  cases hstart'
  have haligned := aligned_of_start hstart
  obtain ⟨hbackend, -, hinsns⟩ := seed_kept haligned hseed
  obtain ⟨arch, rfl⟩ := start_eq hstart
  rw [List.nil_append] at hinsns
  cases hblames : report.blamesInstruction with
  | false =>
      rw [hblames] at hinsns
      refine ⟨?_, by simp, by simp, by simp⟩
      rw [hsession]
      split <;> exact hinsns
  -- a blamed instruction is visited where the session opens, and the recording then steps back once
  | true =>
      rw [hblames] at hinsns
      rw [report.isHandled_of_blames hblames] at hsession
      have hback : slicer.session.backend = replay.back := by
        rw [hsession]
        exact congrArg Replay.back hbackend
      refine ⟨?_, by simp, by simp [hback], ?_⟩
      · rw [hsession]
        exact hinsns
      · simpa [hback] using haligned

theorem Primed.seeded (h : s.Primed seeds) : s.Seeded seeds := by
  induction h with
  | plain h =>
      obtain ⟨arch, rfl⟩ := start_eq h
      exact ⟨rfl, by simp, by simp, by simp⟩
  | crashed hstart h => exact seeded_of_crashed hstart h
  | @track s _ _ expression ih =>
      obtain ⟨err, -, hadd⟩ | ⟨operands, -, hadd⟩ := s.addExpression_cases expression
      · rw [serve, perform, hadd]
        exact ih
      · rw [serve, perform, hadd]
        exact ⟨ih.instructions, ih.pairwise, ih.position, ih.aligned⟩

theorem Primed.positions (hprimed : s.Primed seeds) (h : s.Walked requests visits t) :
    (seeds ++ visits.flatten.filter matters).Pairwise fun v w =>
      w.backend.position ≤ v.backend.position - 1 := by
  obtain ⟨hlow, hpairs⟩ := h.positions
  refine List.pairwise_append.mpr ⟨hprimed.seeded.pairwise, hpairs.filter _, fun v hv w hw => ?_⟩
  rw [← hprimed.seeded.position v hv]
  exact hlow w (List.mem_of_mem_filter hw)

/-- **No step above the oldest is sliced twice.** Take a session without hooks, plain or crashed, and any walks
from there, between which nothing new is tracked and the session does not go forth. The slice then holds one
entry for each of its sources: the session that was seeded, if one was, and those at which a walk looks at an
instruction that matters. Their positions decrease strictly down to 0, so every step but the oldest is the
source of at most one entry. None is the source of two exactly if seeding on the oldest step and walks that find
it to matter add up to one at most. -/
theorem sliced_once_above_oldest (s : Session Replay) (seeds : List (Session Replay))
    (hprimed : s.Primed seeds) (requests : List Request)
    (hrequests : ∀ request ∈ requests, request.isRetreat = true) :
    ∃ visits sources, s.Walked requests visits (s.serveAll requests) ∧
      sources = seeds ++ visits.flatten.filter matters ∧
      (s.serveAll requests).slice.instructions = sources.map entry ∧
      (∀ v ∈ sources, v.Aligned ∧ v.backend.steps = s.backend.steps) ∧
      (sources.map fun v => v.backend.position).Pairwise (fun newer older => older ≤ newer - 1) ∧
      (∀ p, p ≠ 0 → (sources.map fun v => v.backend.position).count p ≤ 1) ∧
      ((sources.map fun v => v.backend.position).Nodup ↔
        seeds.countP onOldest + visits.countP (·.any fun v => v.onOldest && v.matters) ≤ 1) := by
  obtain ⟨visits, hwalked⟩ := s.exists_walked hrequests
  have hseeded := hprimed.seeded
  have hpositions : ((seeds ++ visits.flatten.filter matters).map fun v => v.backend.position).Pairwise
      fun newer older => older ≤ newer - 1 := List.pairwise_map.mpr (hprimed.positions hwalked)
  refine ⟨visits, _, hwalked, rfl, ?_, ?_, hpositions, fun p => count_le_one_of_pairwise hpositions, ?_⟩
  · rw [hwalked.instructions hprimed.hookFree, hseeded.instructions, List.map_append]
  · rw [List.forall_mem_append]
    exact ⟨hseeded.aligned, fun v hv => hwalked.aligned v (List.mem_of_mem_filter hv)⟩
  · rw [nodup_iff_of_pairwise hpositions, count_zero_positions, List.countP_append,
      hwalked.countP_onOldest]

/-- The session at a crash (`Slicer.crashed`), without hooks. -/
def ofCrash? (recording : Recording) : Option (Session Replay) :=
  (Replay.ofRecording recording).toOption.bind fun replay =>
    ((Slicer.crashed replay {} {}).toOption).map (·.1.session)

theorem primed_of_ofCrash? {recording : Recording} (h : s ∈ ofCrash? recording) :
    ∃ seeds, s.Primed seeds := by
  obtain ⟨replay, -, hs⟩ := Option.bind_eq_some_iff.mp h
  obtain ⟨⟨slicer, report⟩, hcrash, rfl⟩ := Option.map_eq_some_iff.mp hs
  have hok := Except.eq_ok_of_mem_toOption hcrash
  obtain ⟨started, -, hstart, -⟩ := crashed_eq hok
  exact ⟨_, .crashed hstart hok⟩

end Session

/-- A read through a bad pointer, after the steps `older`. -/
def badRead (older : List Step) : Recording where
  archName := "i386"
  signal := some 11
  steps := older ++ [{ pc := 0x1002, asm := "mov eax,DWORD PTR [eax]", registers := .ofList [("eax", 0x10)] }]

/-- Two walks, between which the session stops following. -/
def twoWalks : List Request := [.compute .run, .follow none, .compute .run]

namespace Session

theorem sliced_once_above_oldest_at_bad_read :
    ∃ s ∈ ofCrash? (badRead [{ pc := 0x1000, asm := "mov eax,ebx" }]), ∃ seeds, s.Primed seeds ∧
      (s.serveAll twoWalks).slice.instructions.map (·.text) =
        ["mov eax,DWORD PTR [eax]", "mov eax,ebx"] ∧
      ∃ sources : List (Session Replay),
        (s.serveAll twoWalks).slice.instructions = sources.map entry ∧
        ∀ p, p ≠ 0 → (sources.map fun v => v.backend.position).count p ≤ 1 := by
  have hready : ∃ s ∈ ofCrash? (badRead [{ pc := 0x1000, asm := "mov eax,ebx" }]),
      (s.serveAll twoWalks).slice.instructions.map (·.text) =
        ["mov eax,DWORD PTR [eax]", "mov eax,ebx"] := by
    decide +kernel
  obtain ⟨s, hs, htexts⟩ := hready
  obtain ⟨seeds, hprimed⟩ := primed_of_ofCrash? hs
  obtain ⟨visits, sources, -, -, hinsns, -, -, honce, -⟩ :=
    sliced_once_above_oldest s seeds hprimed twoWalks (by decide)
  exact ⟨s, hs, seeds, hprimed, htexts, sources, hinsns, honce⟩

/-- The oldest step is sliced twice if it is blamed for a crash and a walk follows, and if two walks end there.
Either way the slice has more entries than the recording has steps. -/
theorem oldest_step_sliced_twice :
    (∃ s ∈ ofCrash? (badRead []), (∃ seeds, s.Primed seeds) ∧ s.backend.steps.length = 1 ∧
      (s.serve (.compute .run)).slice.instructions.length = 2) ∧
    ∃ s ∈ (ofRecording? (badRead []) {}).map (·.serve (.track "$eax")), s.Primed [] ∧
      s.backend.steps.length = 1 ∧ (s.serveAll twoWalks).slice.instructions.length = 2 := by
  have hcrashed : ∃ s ∈ ofCrash? (badRead []), s.backend.steps.length = 1 ∧
      (s.serve (.compute .run)).slice.instructions.length = 2 := by
    decide +kernel
  have hplain : ∃ s ∈ (ofRecording? (badRead []) {}).map (·.serve (.track "$eax")),
      s.backend.steps.length = 1 ∧ (s.serveAll twoWalks).slice.instructions.length = 2 := by
    decide +kernel
  obtain ⟨s, hs, hcounts⟩ := hcrashed
  obtain ⟨t, ht, hcounts'⟩ := hplain
  refine ⟨⟨s, hs, primed_of_ofCrash? hs, hcounts⟩, t, ht, ?_, hcounts'⟩
  obtain ⟨fresh, hfresh, rfl⟩ := Option.map_eq_some_iff.mp ht
  obtain ⟨replay, -, hstart⟩ := Option.bind_eq_some_iff.mp hfresh
  exact .track (.plain (Except.eq_ok_of_mem_toOption hstart)) _

end Session

end TraceSlice
