import Mathlib.Data.List.Chain
import TraceSlice.Proofs.Course
import TraceSlice.Proofs.Operation

/-!
# When history is exhausted

A session does not ask its backend whether there is an earlier step. It steps back and looks whether the
program counter has moved; if it has not, the step still counts as a **round** of an instruction that repeats
in place, provided that the counter register has changed. On the oldest step, stepping back is no progress
(`moves_eq_false_of_position`), so what is reported as progress is progress. The converse fails: a step that
**stalls**, such as one from a jump to itself to the jump before, is taken for the end of history although the
position is lowered. A walk reports that history is exhausted exactly at its first stall. It has looked at
every position from its start down to there (`reverseStep_progress`), and if no two neighbouring steps have
the same address, that is the oldest one.
-/

namespace TraceSlice

namespace Replay

theorem steps_rewoundTo (replay : Replay) (p : Nat) : (replay.rewoundTo p).steps = replay.steps := by
  unfold rewoundTo
  induction replay.position - p with
  | zero => rfl
  | succ n ih => rw [Function.iterate_succ_apply', steps_back, ih]

/-- Where neighbouring steps have different addresses, `back` changes the address. -/
theorem pc_back_ne {replay : Replay}
    (h : replay.steps.IsChain fun older newer => older.pc ≠ newer.pc) (hp : replay.position ≠ 0) :
    replay.back.current.pc ≠ replay.current.pc := by
  unfold position at hp
  unfold back
  split
  · next hpast => simp [hpast] at hp
  · next older rest hpast =>
      rw [steps, hpast, List.reverse_cons, List.append_assoc, List.singleton_append,
        List.isChain_append_cons_cons] at h
      exact h.2.1

end Replay

namespace Session

variable {hooks : List Hook} {mode : StepMode} {s t : Session Replay}

/-! ### Rounds and stalls -/

/-- The step back from here is a round of an instruction that repeats in place: its `counter?` changes. -/
def Rounds (s : Session Replay) : Prop :=
  s.backed.repeatsAt s.slice.pc = true ∧ s.counter?.isSome = true ∧ s.backed.counter? ≠ s.counter?

/-- The step back from here leaves the program counter where it is, and is no round (`Rounds`). -/
def Stalls (s : Session Replay) : Prop := s.backend.back.current.pc = s.slice.pc ∧ ¬s.Rounds

/-- What counts as progress (`moves`). -/
theorem moves_iff : s.moves = true ↔ s.backend.back.current.pc ≠ s.slice.pc ∨ s.Rounds := by
  have hpc : s.backed.slice.pc = s.backend.back.current.pc := rfl
  simp [moves, Rounds, hpc, and_assoc]

theorem moves_eq_false_iff : s.moves = false ↔ s.Stalls := by
  rw [← Bool.not_eq_true, moves_iff, not_or, not_not, Stalls]

/-- `Aligned` with its backend, a session reports progress exactly if there is an earlier step and it is seen to be
another one. -/
theorem Aligned.moves_iff (ha : s.Aligned) :
    s.moves = true ↔ s.backend.position ≠ 0 ∧
      (s.backend.back.current.pc ≠ s.backend.current.pc ∨ s.Rounds) := by
  have hpc : s.slice.pc = s.backend.current.pc := ha
  constructor
  · intro hmoves
    refine ⟨fun hzero => ?_, ?_⟩
    · rw [moves_eq_false_of_position ha hzero] at hmoves
      cases hmoves
    · rw [← hpc]
      exact Session.moves_iff.mp hmoves
  · intro hseen
    rw [Session.moves_iff, hpc]
    exact hseen.2

/-! ### Sessions in step with their backends -/

theorem Aligned.compute (ha : s.Aligned) (hooks : List Hook) (mode : StepMode) :
    (s.compute hooks mode).1.Aligned :=
  compute_induction (motive := Aligned) ha (fun _ => s.aligned_readied) fun _ _ _ hu hturn => hu.turn hturn

theorem Aligned.served (ha : s.Aligned) (h : s.Served t) : t.Aligned := by
  cases h with
  | joins hpc => exact (Except.ok.inj hpc).symm
  | steps =>
      rw [reverseStep_eq]
      exact aligned_backed s
  | _ => exact ha

/-- Only a move of the backend alone, which is not `InStep`, puts a session out of step. -/
theorem Aligned.operate (ha : s.Aligned) {op : Operation Replay} (hop : op.InStep) : (s.operate op).Aligned :=
  operate_induction hop ha (fun _ _ hserved hu => hu.served hserved) (fun _ hooks mode hu => hu.compute hooks mode)
    (fun _ _ _ hseed hu => (seed_kept hu hseed).2.1) (fun _ _ hu => hu) fun _ _ _ _ hu => hu

theorem Aligned.serve (ha : s.Aligned) (request : Request) : (s.serve request).Aligned := by
  have hop : (Operation.request [] request : Operation Replay).InStep := trivial
  exact ha.operate hop

/-- A session whose backend has not been moved alone is `Aligned` with it. -/
theorem ArisesBy.aligned (h : s.ArisesBy Operation.InStep) : s.Aligned :=
  h.induction (fun _ _ _ hstart => aligned_of_start hstart) fun _ _ hop ha => ha.operate hop

/-! ### Walks that exhaust history -/

/-- The session at an older position (`standing`), with the instruction there just looked at. -/
def lookingAt (s : Session Replay) (p : Nat) : Session Replay := (s.standing p).remember (s.insnAt p)

/-- A walk stalls at a position exactly if the session `lookingAt` it does, whatever has been found. -/
theorem Stands.stalls {p : Nat} (h : s.Stands p t) (hstay : (t.meet hooks).session.moves = false) :
    (s.lookingAt p).Stalls := by
  have hmeet := (h.abreast (t.instructionAt t.slice.pc)).trans (t.meet_sameStand hooks)
  rw [hmeet.moves, h.abreast.insnAt] at hstay
  exact moves_eq_false_iff.mp hstay

theorem Visitable.not_stalls {p q : Nat} (h : s.Visitable q) (hlt : q < p) (hle : p ≤ s.backend.position) :
    ¬(s.lookingAt p).Stalls := by
  have hstep : (s.lookingAt p).reverseStep.2 = .ok true := h.2 p hlt hle
  rw [reverseStep_eq] at hstep
  have hmoves := Except.ok.inj hstep
  intro hstalls
  rw [moves_eq_false_iff.mpr hstalls] at hmoves
  cases hmoves

/-- Where neighbouring steps have different addresses, only the oldest one `Stalls`. -/
theorem Visitable.eq_zero_of_stalls {p : Nat} (h : s.Visitable p)
    (hchain : s.backend.steps.IsChain fun older newer => older.pc ≠ newer.pc)
    (hstalls : (s.lookingAt p).Stalls) : p = 0 := by
  by_contra hne
  rw [← Replay.steps_rewoundTo s.backend p] at hchain
  exact Replay.pc_back_ne hchain (by rwa [Replay.position_rewoundTo h.1]) hstalls.1

/-- The walk from a session meets its instructions at the positions of that session (`Stands`). -/
theorem Course.stands {u : Session Replay} {p : Nat} {visited : List (Session Replay)} {outcome : Outcome}
    (hs : s.Stands p t) (h : Course hooks mode t visited u outcome) :
    ∀ v ∈ visited, s.Stands v.backend.position v := by
  induction h generalizing p with
  | stopped => exact fun v hv => absurd hv List.not_mem_nil
  | last =>
      intro v hv
      rw [List.mem_singleton.mp hv, hs.position]
      exact hs
  | onward hturn _ ih =>
      obtain ⟨q, -, hnext⟩ := hs.onward hturn
      refine List.forall_mem_cons.mpr ⟨?_, ih hnext⟩
      rw [hs.position]
      exact hs

/-- A walk that exhausts history has looked at all positions down to one from which the step back is no
progress. -/
theorem Course.exhausted {visited : List (Session Replay)}
    (ha : s.Aligned) (h : Course hooks mode s visited t .historyExhausted) :
    ∃ v ∈ visited, (v.meet hooks).session.moves = false ∧ t = (v.meet hooks).session.backed ∧
      visited.map (fun v => v.backend.position) ++ countdown v.backend.position =
        countdown (s.backend.position + 1) := by
  generalize hout : Outcome.historyExhausted = outcome at h
  induction h with
  | stopped => cases hout
  | @last s _ _ _ hturn =>
      subst hout
      cases hturn with
      | exhausted _ _ hstay => exact ⟨s, List.mem_cons_self, hstay, rfl, by simp⟩
  | onward hturn _ ih =>
      obtain ⟨v, hv, hstay, ht, hpositions⟩ := ih hturn.aligned hout
      refine ⟨v, List.mem_cons_of_mem _ hv, hstay, ht, ?_⟩
      rw [List.map_cons, List.cons_append, hpositions, hturn.position ha, countdown_succ (_ + 1)]

/-- **When history is exhausted.** A step back always succeeds and lowers the position, unless it is 0 already.
It is reported as progress exactly if it changes the program counter or is a round. In step with the backend,
as every session is whose backend has not been moved alone, that takes an earlier step. A walk exhausts
history exactly at the newest position that stalls: it has looked at all positions down to that one, each once
and newest first, and has stepped back from it. If neighbouring steps have different addresses, that is the
oldest one. -/
theorem reverseStep_progress (s : Session Replay) :
    (∃ t progress, s.reverseStep = (t, .ok progress) ∧
      t.backend.position = s.backend.position - 1 ∧
      (progress = true ↔ s.backend.back.current.pc ≠ s.slice.pc ∨ s.Rounds) ∧
      (s.Aligned → (progress = true ↔ s.backend.position ≠ 0 ∧
        (s.backend.back.current.pc ≠ s.backend.current.pc ∨ s.Rounds)))) ∧
    (s.ArisesBy Operation.InStep → s.Aligned) ∧
    ∀ hooks mode t, s.compute hooks mode = (t, .ok .historyExhausted) →
      ∃ visited q, s.Computes hooks mode visited t .historyExhausted ∧
        visited.map (fun v => v.backend.position) ++ countdown q = countdown (s.backend.position + 1) ∧
        t.backend.position = q - 1 ∧
        (s.lookingAt q).Stalls ∧
        (∀ p, q < p → p ≤ s.backend.position → ¬(s.lookingAt p).Stalls) ∧
        (s.backend.steps.IsChain (fun older newer => older.pc ≠ newer.pc) → q = 0) := by
  refine ⟨⟨s.backed, s.moves, s.reverseStep_eq, by simp, moves_iff, Aligned.moves_iff⟩, ArisesBy.aligned, ?_⟩
  intro hooks mode t hcompute
  obtain ⟨visited, u, outcome, hcomputes⟩ := exists_computes hooks mode s
  have heq := hcomputes.compute_eq
  rw [hcompute] at heq
  cases heq
  refine ⟨visited, ?_⟩
  cases hcomputes with
  | walks hsome hcourse =>
      obtain ⟨v, hv, hstay, ht, hpositions⟩ := hcourse.exhausted s.aligned_readied
      have hstands := hcourse.stands s.stands_readied v hv
      refine ⟨v.backend.position, .walks hsome hcourse, hpositions, by simp [ht], hstands.stalls hstay,
        fun p => hstands.visitable.not_stalls, fun hchain => ?_⟩
      exact hstands.visitable.eq_zero_of_stalls hchain (hstands.stalls hstay)

end Session

/-- A move, and then a jump to itself that is taken once. -/
def spin : Recording where
  archName := "i386"
  steps :=
    [{ pc := 0x1000, asm := "mov eax,ebx", registers := .ofList [("eax", 1), ("ebx", 2)] },
      { pc := 0x1002, asm := "jmp 0x1002" }, { pc := 0x1002, asm := "jmp 0x1002" }]

namespace Session

def spinning? : Option (Session Replay) := (ofRecording? spin {}).map (·.serve (.track "$eax"))

theorem arisesBy_of_spinning {s : Session Replay} (h : s ∈ spinning?) : s.ArisesBy Operation.InStep := by
  obtain ⟨fresh, hfresh, rfl⟩ := Option.map_eq_some_iff.mp h
  have harises : fresh.ArisesBy Operation.InStep :=
    (fresh_of_ofRecording? hfresh).arisesBy trivial trivial fun _ => trivial
  have hop : (Operation.request [] (.track "$eax") : Operation Replay).InStep := trivial
  exact harises.operateAll (List.forall_mem_singleton.mpr hop)

/-- `reverseStep_progress` at `spin`: the walk stalls on the jump. It has looked at one of the three steps and has not
got to the move. -/
theorem reverseStep_progress_at_spin :
    ∃ s ∈ spinning?, s.ArisesBy Operation.InStep ∧ ∃ t, s.compute [] .run = (t, .ok .historyExhausted) ∧
      ∃ visited, s.Computes [] .run visited t .historyExhausted ∧
        visited.map (fun v => v.backend.position) = [2] ∧ (s.lookingAt 2).Stalls := by
  have hready : ∃ s ∈ spinning?, s.backend.position = 2 ∧
      (s.compute [] .run).2 = .ok .historyExhausted ∧
      (s.compute [] .run).1.backend.position = 1 := by
    decide +kernel
  obtain ⟨s, hs, hstart, hend, hlast⟩ := hready
  have hcompute : s.compute [] .run = ((s.compute [] .run).1, .ok .historyExhausted) := Prod.ext rfl hend
  obtain ⟨visited, q, hcomputes, hpositions, hq, hstalls, -⟩ :=
    (reverseStep_progress s).2.2 [] .run _ hcompute
  obtain rfl : q = 2 := by omega
  rw [hstart] at hpositions
  exact ⟨s, hs, arisesBy_of_spinning hs, _, hcompute, visited, hcomputes,
    List.append_cancel_right hpositions, hstalls⟩

/-- Progress that is none, and a step back that is not seen to be progress. From the jump to the one before,
the position is lowered and no progress is reported, so that the walk ends before the oldest step. A session
whose backend has been moved to the oldest step alone reports progress although there is no earlier step. -/
theorem reverseStep_misjudges_at_spin :
    ∃ s ∈ spinning?, s.ArisesBy Operation.InStep ∧
      (s.reverseStep.2 = .ok false ∧ s.reverseStep.1.backend.position + 1 = s.backend.position) ∧
      ((s.compute [] .run).2 = .ok .historyExhausted ∧ (s.compute [] .run).1.backend.position ≠ 0) ∧
      ∃ lagging : Session Replay, lagging = { s with backend := s.backend.back.back } ∧
        lagging.backend.position = 0 ∧ lagging.reverseStep.2 = .ok true := by
  have hspin : ∃ s ∈ spinning?,
      (s.reverseStep.2 = .ok false ∧ s.reverseStep.1.backend.position + 1 = s.backend.position) ∧
      ((s.compute [] .run).2 = .ok .historyExhausted ∧ (s.compute [] .run).1.backend.position ≠ 0) ∧
      s.backend.back.back.position = 0 ∧
        ({ s with backend := s.backend.back.back } : Session Replay).reverseStep.2 = .ok true := by
    decide +kernel
  obtain ⟨s, hs, hstep, hwalk, holdest, hlag⟩ := hspin
  exact ⟨s, hs, arisesBy_of_spinning hs, hstep, hwalk, _, rfl, holdest, hlag⟩

end Session

end TraceSlice
