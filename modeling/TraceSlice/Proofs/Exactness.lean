import TraceSlice.Proofs.Course
import TraceSlice.Proofs.Request

/-!
# Walks find the slice

A walk that runs on finds exactly the sliced positions that it reaches, newest first and each once, and
leaves tracked exactly what is outstanding (`compute_run_slice_exact`). The walk knows nothing of the slice
as a whole: it only replaces what is written by what is read. The invariant `Tracing` says that this is
enough: above the position that the walk stands at, all that is sliced has been found, and what is tracked
is what is awaited. Where the walk ends, the slice is settled (`Settles`, `Computes.settles`): either nothing is
awaited any more, or nothing older is reached.
-/

namespace TraceSlice

namespace Session

variable {s t u : Session Replay} {p : Nat}

/-- What has been found accounts for the positions from `n` on: their `Sliced` instructions have joined the slice,
newest first, and the `Awaited` places are tracked. -/
structure Accounts (s : Session Replay) (n : Nat) (t : Session Replay) : Prop where
  tracked : ∀ x, x ∈ t.slice.tracked.places ↔ s.Awaited n x
  instructions : ∃ ps : List Nat, ps.Pairwise (· > ·) ∧ (∀ q, q ∈ ps ↔ s.Sliced q ∧ n ≤ q) ∧
    t.slice.instructions = s.slice.instructions ++ ps.map s.locatedAt

/-- A walk from `s` that runs on stands at position `p` as session `t`, and `Accounts` for all positions above. -/
structure Tracing (s : Session Replay) (p : Nat) (t : Session Replay) : Prop where
  reached : s.Reached p
  stands : s.Stands p t
  running : t.slice.running = true
  free : t.HookFree
  clean : t.Clean
  followed : t.slice.followed = s.slice.followed
  accounts : s.Accounts (p + 1) t

/-! ### One instruction -/

/-- The instruction that a walk stands at is matched (`written`) exactly if its position is `Sliced`. -/
theorem Tracing.written_iff (h : s.Tracing p t) :
    t.written (t.instructionAt t.slice.pc) ≠ [] ↔ s.Sliced p := by
  rw [written_ne_nil_iff, sliced_iff, h.stands.abreast.defsAt]
  constructor
  · intro hmatch
    obtain ⟨x, htracked, hdef⟩ := hmatch
    exact ⟨h.reached.1, x, hdef, (h.accounts.tracked x).mp htracked⟩
  · intro hmatch
    obtain ⟨-, x, hdef, hawaited⟩ := hmatch
    exact ⟨x, (h.accounts.tracked x).mpr hawaited, hdef⟩

/-- An instruction that is not `Sliced` needs no accounting. -/
theorem Tracing.accounts_of_not_sliced (h : s.Tracing p t) (hnot : ¬s.Sliced p) : s.Accounts p t := by
  obtain ⟨ps, hsorted, hmem, hinsns⟩ := h.accounts.instructions
  refine ⟨fun x => ?_, ps, hsorted, fun q => ?_, hinsns⟩
  · rw [awaited_iff_of_not_sliced h.reached.1 hnot]
    exact h.accounts.tracked x
  · rw [hmem]
    refine and_congr_right fun hsliced => ⟨fun hlt => by omega, fun hle => ?_⟩
    have hne : q ≠ p := fun heq => hnot (heq ▸ hsliced)
    omega

/-- Matching a sliced instruction (`absorbed`) accounts for it. -/
theorem Tracing.accounts_absorbed (h : s.Tracing p t) (hsliced : s.Sliced p) :
    s.Accounts p (t.absorbed (t.instructionAt t.slice.pc)) := by
  obtain ⟨ps, hsorted, hmem, hinsns⟩ := h.accounts.instructions
  refine ⟨fun x => ?_, ps ++ [p], ?_, fun q => ?_, ?_⟩
  · rw [h.clean.mem_places_absorbed, h.stands.abreast.defsAt, h.stands.abreast.usesAt, awaited_iff h.reached.le,
      h.accounts.tracked]
    exact or_congr_right ⟨fun huse => ⟨hsliced, huse⟩, fun huse => huse.2⟩
  · -- the position joins the list at its end, below all the others
    refine List.pairwise_append.mpr ⟨hsorted, List.pairwise_singleton _ _, fun q hq q' hq' => ?_⟩
    rw [List.mem_singleton.mp hq']
    exact ((hmem q).mp hq).2
  · rw [List.mem_append, hmem, List.mem_singleton]
    constructor
    · intro hmem
      rcases hmem with ⟨hq, hlt⟩ | rfl
      · exact ⟨hq, by omega⟩
      · exact ⟨hsliced, Nat.le_refl _⟩
    · intro hmem
      obtain ⟨hq, hle⟩ := hmem
      rcases Nat.eq_or_lt_of_le hle with heq | hlt
      · exact Or.inr heq.symm
      · exact Or.inl ⟨hq, hlt⟩
  · show t.slice.instructions ++ [t.locate (t.instructionAt t.slice.pc)] = _
    rw [h.stands.abreast.locatedAt, hinsns, List.map_append, List.append_assoc]
    rfl

/-- `meet` accounts for the position of its instruction. -/
theorem Tracing.accounts_meet (h : s.Tracing p t) : s.Accounts p (t.meet []).session := by
  by_cases hwritten : t.written (t.instructionAt t.slice.pc) = []
  · have haccounts := h.accounts_of_not_sliced fun hsliced => h.written_iff.mpr hsliced hwritten
    rw [meet_of_not_written [] hwritten]
    exact ⟨haccounts.tracked, haccounts.instructions⟩
  · have haccounts := h.accounts_absorbed (h.written_iff.mp hwritten)
    rw [meet_hookFree h.free hwritten]
    exact ⟨haccounts.tracked, haccounts.instructions⟩

/-- A walk notices that the followed operand is written (`FollowedAt`). -/
theorem Tracing.followed_meet (h : s.Tracing p t) : (t.meet []).followed = true ↔ s.FollowedAt p := by
  rw [h.free.meet_followed_iff, h.stands.abreast.defsAt, h.followed]
  simp only [h.accounts.tracked]
  unfold FollowedAt
  constructor
  · intro hat
    obtain ⟨f, x, hf, hx, hawaited, hdef⟩ := hat
    exact ⟨f, x, hf, hx, hdef, hawaited⟩
  · intro hat
    obtain ⟨f, x, hf, hx, hdef, hawaited⟩ := hat
    exact ⟨f, x, hf, hx, hawaited, hdef⟩

/-! ### Whole walks -/

/-- A walk starts (`readied`) with everything accounted for that lies above the current position: nothing. -/
theorem tracing_readied (hfree : s.HookFree) (hclean : s.Clean) :
    s.Tracing s.backend.position s.readied where
  reached := ⟨s.stands_readied.visitable, fun q hlt hq => by omega⟩
  stands := s.stands_readied
  running := rfl
  free := hfree
  clean := hclean
  followed := rfl
  accounts := by
    refine ⟨fun x => (awaited_top (s := s)).symm, [], List.Pairwise.nil, fun q => ?_, ?_⟩
    · refine ⟨fun hq => absurd hq List.not_mem_nil, fun ⟨hsliced, hle⟩ => ?_⟩
      have := hsliced.visitable.1
      omega
    · rw [List.map_nil, List.append_nil]
      rfl

/-- A turn with which a walk goes on (`Onward`) accounts for one more position. -/
theorem Tracing.onward {mode : StepMode} (h : s.Tracing p t) (hturn : Onward [] mode t u) :
    ∃ q, s.Tracing q u := by
  obtain ⟨q, rfl, hstands⟩ := h.stands.onward hturn
  have haccounts := h.accounts_meet
  cases hturn with
  | onward hrun hleft hmoves hfollowed hmode =>
      have hnot : ¬s.FollowedAt (q + 1) := fun hat => by
        rw [h.followed_meet.mpr hat] at hfollowed
        cases hfollowed
      refine ⟨q, h.reached.pred hstands.visitable hnot, hstands, ?_, h.free.meet, h.clean.meet h.free, ?_,
        haccounts.tracked, haccounts.instructions⟩
      · exact h.free.running_meet.trans h.running
      · refine h.free.followed_meet.trans ?_
        rw [hfollowed]
        exact h.followed

/-- The turn that ends a walk accounts for the last position: below it nothing is `Awaited`, or nothing is `Reached`.
-/
theorem Tracing.last {outcome : Outcome} (h : s.Tracing p t) (hturn : Turn [] .run t u (some outcome)) :
    s.Accounts p u ∧ ((∀ x, ¬s.Awaited p x) ∨ ∀ q, s.Reached q → p ≤ q) := by
  have haccounts := h.accounts_meet
  cases hturn with
  | stopped hstop =>
      rw [h.running] at hstop
      cases hstop
  | complete hrun hempty =>
      refine ⟨haccounts, Or.inl fun x hawaited => ?_⟩
      have hnone := Tracked.isEmpty_iff_places.mp hempty
      exact hnone x ((haccounts.tracked x).mpr hawaited)
  | exhausted hrun hleft hstay =>
      exact ⟨⟨haccounts.tracked, haccounts.instructions⟩,
        Or.inr fun q hq => h.stands.le_of_stays hstay hq.1⟩
  | followed hrun hleft hmoves hfollowed =>
      refine ⟨⟨haccounts.tracked, haccounts.instructions⟩, Or.inr fun q hq => ?_⟩
      refine Nat.not_lt.mp fun hlt => ?_
      exact hq.2 p hlt h.reached.le (h.followed_meet.mp hfollowed)
  | found hrun hleft hmoves hfollowed hrelevant hmode => cases hmode

/-! ### Where walks end -/

/-- A walk has ended with all positions from `n` on accounted for, and there was no reason to go on: nothing is
awaited any more, or nothing older is reached. -/
structure Settles (s : Session Replay) (n : Nat) (t : Session Replay) : Prop where
  reached : s.Reached n
  accounts : s.Accounts n t
  last : (∀ x, ¬s.Awaited n x) ∨ ∀ q, s.Reached q → n ≤ q

section

variable {n : Nat} {x : Place}

/-- A walk that ends early ends because nothing older can be `Sliced`. -/
theorem Settles.le (h : s.Settles n t) (hsliced : s.Sliced p) (hp : s.Reached p) : n ≤ p := by
  rcases h.last with hnone | hlast
  · exact hsliced.le_of_none_awaited hnone
  · exact hlast p hp

theorem Settles.mem_places_iff (h : s.Settles n t) : x ∈ t.slice.tracked.places ↔ s.Outstanding x := by
  rw [h.accounts.tracked]
  constructor
  · intro hawaited
    rcases h.last with hnone | hlast
    · exact absurd hawaited (hnone x)
    · exact hawaited.outstanding h.reached hlast
  · intro hout
    exact hout.awaited h.reached fun q hsliced hq => h.le hsliced hq

/-- The instructions of the slice are those of the `Sliced` positions that are `Reached`. -/
theorem Settles.instructions (h : s.Settles n t) :
    ∃ ps : List Nat, ps.Pairwise (· > ·) ∧ (∀ p, p ∈ ps ↔ s.Sliced p ∧ s.Reached p) ∧
      t.slice.instructions = s.slice.instructions ++ ps.map s.locatedAt := by
  obtain ⟨ps, hsorted, hmem, hinsns⟩ := h.accounts.instructions
  refine ⟨ps, hsorted, fun p => ?_, hinsns⟩
  rw [hmem]
  exact and_congr_right fun hsliced =>
    ⟨fun hle => h.reached.mono hle hsliced.visitable.1, fun hp => h.le hsliced hp⟩

end

/-- If nothing is tracked, nothing is sliced. -/
theorem not_sliced_of_isEmpty (hempty : s.slice.tracked.isEmpty = true) (p : Nat) : ¬s.Sliced p := by
  intro hsliced
  induction hsliced with
  | seed hvisit hdef htracked hnewest => exact Tracked.isEmpty_iff_places.mp hempty _ htracked
  | source hvisit hdef hsliced hlt huse hnewest ih => exact ih

/-- With nothing tracked, everything is accounted for from the start. -/
theorem settles_of_isEmpty (hempty : s.slice.tracked.isEmpty = true) : s.Settles s.backend.position s := by
  have hnone := Tracked.isEmpty_iff_places.mp hempty
  have hnot := not_sliced_of_isEmpty hempty
  have hawaited : ∀ x, ¬s.Awaited s.backend.position x := by
    intro x hawaited
    rcases hawaited with ⟨htracked, -⟩ | ⟨q, hsliced, -⟩
    · exact hnone x htracked
    · exact hnot q hsliced
  refine ⟨⟨s.stands_readied.visitable, fun q hlt hq => by omega⟩, ⟨fun x => ?_, [], List.Pairwise.nil, ?_, ?_⟩,
    Or.inl hawaited⟩
  · exact iff_of_false (hnone x) (hawaited x)
  · simp [hnot]
  · simp

/-- A walk that runs on traces the slice from position to position (`Tracing`), and ends with it settled. It has
looked at all sliced positions down to its last one. -/
theorem Computes.settles {visited : List (Session Replay)} {outcome : Outcome} (hfree : s.HookFree) (hclean : s.Clean)
    (h : s.Computes [] .run visited t outcome) :
    ∃ n, s.Settles n t ∧ (∀ v ∈ visited, s.Tracing v.backend.position v ∧ n ≤ v.backend.position) ∧
      ∀ p, s.Sliced p → n ≤ p → ∃ v ∈ visited, v.backend.position = p := by
  cases h with
  | idle hempty =>
      exact ⟨_, settles_of_isEmpty hempty, by simp, fun p hsliced => absurd hsliced (not_sliced_of_isEmpty hempty p)⟩
  | walks _ hcourse =>
      obtain ⟨hall, v, hv, hturn, hpositions⟩ :=
        hcourse.ending (motive := s.Tracing) s.aligned_readied (tracing_readied hfree hclean)
          (fun _ _ hu => hu.stands.position) (fun _ _ hu => hu.running) fun _ _ _ hu hstep => hu.onward hstep
      obtain ⟨haccounts, hlast⟩ := (hall v hv).last hturn
      refine ⟨v.backend.position, ⟨(hall v hv).reached, haccounts, hlast⟩, fun w hw => ⟨hall w hw, ?_⟩,
        fun p hsliced hle => ?_⟩
      · exact le_of_append_countdown hpositions (List.mem_map_of_mem hw)
      · have hmem : p ∈ visited.map (fun v => v.backend.position) ++ countdown v.backend.position := by
          rw [hpositions, mem_countdown]
          exact Nat.lt_succ_of_le hsliced.visitable.1
        rw [List.mem_append, mem_countdown, List.mem_map] at hmem
        exact hmem.resolve_right (Nat.not_lt.mpr hle)

/-- What a walk that runs on adds to the slice: `Settles.instructions` for the session that `compute` returns. -/
theorem HookFree.instructions_compute (hfree : s.HookFree) (hclean : s.Clean) :
    ∃ ps : List Nat, ps.Pairwise (· > ·) ∧ (∀ p, p ∈ ps ↔ s.Sliced p ∧ s.Reached p) ∧
      (s.compute [] .run).1.slice.instructions = s.slice.instructions ++ ps.map s.locatedAt := by
  obtain ⟨visited, t, outcome, hcomputes⟩ := exists_computes [] .run s
  obtain ⟨n, hsettles, -⟩ := hcomputes.settles hfree hclean
  rw [hcomputes.compute_eq]
  exact hsettles.instructions

/-- **Walks find the slice.** Without hooks, and with nothing ignored among the tracked operands (`Clean`), a walk
that runs on succeeds. It adds to the slice the instructions of the `Sliced` positions that it reaches, newest first
and each once, and leaves the `Outstanding` places tracked. If nothing is followed, it reaches all positions that can
be visited. -/
theorem compute_run_slice_exact (s : Session Replay) (hfree : s.HookFree) (hclean : s.Clean) :
    (∃ t outcome, s.compute [] .run = (t, .ok outcome) ∧
      (∃ ps : List Nat, ps.Pairwise (· > ·) ∧ (∀ p, p ∈ ps ↔ s.Sliced p ∧ s.Reached p) ∧
        t.slice.instructions = s.slice.instructions ++ ps.map s.locatedAt) ∧
      ∀ x, x ∈ t.slice.tracked.places ↔ s.Outstanding x) ∧
    (s.slice.followed = none → ∀ p, s.Reached p ↔ s.Visitable p) := by
  refine ⟨?_, fun hnone p => reached_iff_visitable hnone⟩
  obtain ⟨visited, t, outcome, hcomputes⟩ := exists_computes [] .run s
  obtain ⟨n, hsettles, -⟩ := hcomputes.settles hfree hclean
  exact ⟨t, outcome, hcomputes.compute_eq, hsettles.instructions, fun x => hsettles.mem_places_iff⟩

end Session

/-- Two steps that write registers that have nothing to do with each other. -/
def twoMoves : Recording where
  archName := "i386"
  steps :=
    [{ pc := 0x1000, asm := "mov ecx,edx", registers := .ofList [("ebx", 1), ("ecx", 2), ("edx", 3), ("esi", 4)] },
      { pc := 0x1002, asm := "mov ebx,esi" }]

namespace Session

/-- Both written registers are tracked, and the one written last is followed. -/
def newestFollowed? : Option (Session Replay) :=
  (ofRecording? twoMoves {}).map (·.serveAll [.track "$ebx", .track "$ecx", .follow (some 0)])

theorem compute_run_slice_exact_at_moves :
    ∃ s ∈ newestFollowed?, s.HookFree ∧ s.Clean ∧ ∃ t outcome, s.compute [] .run = (t, .ok outcome) ∧
      (∃ ps : List Nat, ps.Pairwise (· > ·) ∧ (∀ p, p ∈ ps ↔ s.Sliced p ∧ s.Reached p) ∧
        t.slice.instructions = s.slice.instructions ++ ps.map s.locatedAt) ∧
      ∀ x, x ∈ t.slice.tracked.places ↔ s.Outstanding x := by
  have hready : ∃ s ∈ newestFollowed?, s.HookFree ∧ s.Clean := by decide +kernel
  obtain ⟨s, hs, hfree, hclean⟩ := hready
  exact ⟨s, hs, hfree, hclean, (compute_run_slice_exact s hfree hclean).1⟩

/-- `compute_run_slice_exact` without `Reached` fails: a walk ends where the followed operand is written, however much
of the slice is left. -/
theorem compute_run_misses_slice_at_moves :
    ∃ s ∈ newestFollowed?, s.HookFree ∧ s.Clean ∧
      ¬∃ ps : List Nat, ps.Pairwise (· > ·) ∧ (∀ p, p ∈ ps ↔ s.Sliced p) ∧
        (s.compute [] .run).1.slice.instructions = s.slice.instructions ++ ps.map s.locatedAt := by
  have hfacts : ∃ s ∈ newestFollowed?, s.HookFree ∧ s.Clean ∧ s.backend.position = 1 ∧
      (∃ x ∈ s.slice.tracked.places, x ∈ s.defsAt 1) ∧
      (∃ x ∈ s.slice.tracked.places, x ∈ s.defsAt 0 ∧ x ∉ s.defsAt 1) ∧
      ((s.standing 1).remember (s.insnAt 1)).moves = true ∧ s.slice.instructions.length = 0 ∧
      (s.compute [] .run).1.slice.instructions.length = 1 := by
    decide +kernel
  obtain ⟨s, hs, hfree, hclean, hposition, ⟨x, hx, hdef⟩, ⟨y, hy, hdef', hnewest⟩, hmoves, hbefore,
    hafter⟩ := hfacts
  refine ⟨s, hs, hfree, hclean, ?_⟩
  intro hall
  obtain ⟨ps, -, hmem, hinsns⟩ := hall
  have hnewer : s.Sliced 1 :=
    .seed ⟨by omega, fun q hlt hq => by omega⟩ hdef hx fun q hlt hq => by omega
  have holder : s.Sliced 0 := by
    refine .seed ⟨by omega, fun q hlt hq => ?_⟩ hdef' hy fun q hlt hq => ?_
    · obtain rfl : q = 1 := by omega
      rw [reverseStep_eq, hmoves]
    · obtain rfl : q = 1 := by omega
      exact hnewest
  -- the walk adds one instruction, and the slice has two positions
  have hlength : ps.length = 1 := by
    rw [hinsns, List.length_append, List.length_map] at hafter
    omega
  obtain ⟨q, rfl⟩ := List.length_eq_one_iff.mp hlength
  have hone := List.mem_singleton.mp ((hmem 1).mpr hnewer)
  have hzero := List.mem_singleton.mp ((hmem 0).mpr holder)
  omega

end Session

end TraceSlice
