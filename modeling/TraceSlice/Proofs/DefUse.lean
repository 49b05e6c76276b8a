import Mathlib.Logic.Function.Iterate
import TraceSlice.Proofs.Walk

/-!
# Definitions and uses along a recording

What a slice *is*, said without walking. A position of a recording is numbered from the oldest step on. Each position
that a session can step back to (`Visitable`) has an instruction (`insnAt`), the places that this writes (`defsAt`)
and the places that it reads (`usesAt`). `Sliced` closes the tracked places under "the newest older write of a place
is sliced, and so are the newest older writes of what it reads". `Awaited n x` says that the newest write of `x` below
`n` is sliced, if there is one; its recursion in `n` is `awaited_iff`, which is what one turn of a walk does.
-/

namespace TraceSlice

/-- The replay at an older position, by `Replay.back`, or itself if the position is not older. -/
def Replay.rewoundTo (replay : Replay) (position : Nat) : Replay :=
  Replay.back^[replay.position - position] replay

theorem Replay.position_rewoundTo {replay : Replay} {p : Nat} (h : p ≤ replay.position) :
    (replay.rewoundTo p).position = p := by
  have hcount : ∀ n, (Replay.back^[n] replay).position = replay.position - n := by
    intro n
    induction n with
    | zero => rfl
    | succ n ih =>
        rw [Function.iterate_succ_apply', Replay.position_back, ih]
        omega
  unfold rewoundTo
  rw [hcount]
  omega

namespace Session

/-! ### Positions -/

/-- The session at an older position (`rewoundTo`), with nothing looked at on the way. The value of the return
register is the one recorded by the step back to this position. -/
def standing (s : Session Replay) (p : Nat) : Session Replay :=
  { s with
    backend := s.backend.rewoundTo p
    lastReturn :=
      if p < s.backend.position then
        (Backend.view (s.backend.rewoundTo (p + 1))).evaluate
          (Decode.registerExpression s.arch.description.returnRegister)
      else s.lastReturn }.withPc (s.backend.rewoundTo p).current.pc

/-- The instruction at position `p`, as the session decodes it there (`standing`). -/
def insnAt (s : Session Replay) (p : Nat) : Instruction :=
  (s.standing p).instructionAt (s.standing p).slice.pc

/-- The instruction at position `p` with its debug information (`locate`), as it joins a slice. -/
def locatedAt (s : Session Replay) (p : Nat) : Instruction := (s.standing p).locate (s.insnAt p)

/-- The places that the instruction at a position writes. -/
def defsAt (s : Session Replay) (p : Nat) : List Place := placesOf (s.insnAt p).destinations

/-- The places that the instruction at a position reads, the ignored ones aside (`trackableSources`). -/
def usesAt (s : Session Replay) (p : Nat) : List Place :=
  placesOf ((s.standing p).trackableSources (s.insnAt p))

/-- Stepping back from the current position gets to this one: every `reverseStep` on the way is progress. -/
def Visitable (s : Session Replay) (p : Nat) : Prop :=
  p ≤ s.backend.position ∧ ∀ q, p < q → q ≤ s.backend.position →
    ((s.standing q).remember (s.insnAt q)).reverseStep.2 = .ok true

/-! ### The slice -/

/-- The positions whose instructions belong to the slice of the tracked places. -/
inductive Sliced (s : Session Replay) : Nat → Prop
  /-- The newest write of a tracked place. -/
  | seed {p : Nat} {x : Place} (hvisit : s.Visitable p) (hdef : x ∈ s.defsAt p)
      (htracked : x ∈ s.slice.tracked.places)
      (hnewest : ∀ q, p < q → q ≤ s.backend.position → x ∉ s.defsAt q) : Sliced s p
  /-- The newest write before a sliced instruction of a place that it reads. -/
  | source {p q : Nat} {x : Place} (hvisit : s.Visitable p) (hdef : x ∈ s.defsAt p)
      (hsliced : Sliced s q) (hlt : p < q) (huse : x ∈ s.usesAt q)
      (hnewest : ∀ r, p < r → r < q → x ∉ s.defsAt r) : Sliced s p

/-- The newest write of `x` below `n` belongs to the slice, if there is one: the place is tracked or read by a sliced
instruction, and nothing has written it since. -/
def Awaited (s : Session Replay) (n : Nat) (x : Place) : Prop :=
  (x ∈ s.slice.tracked.places ∧ ∀ q, n ≤ q → q ≤ s.backend.position → x ∉ s.defsAt q) ∨
    ∃ q, s.Sliced q ∧ n ≤ q ∧ x ∈ s.usesAt q ∧ ∀ r, n ≤ r → r < q → x ∉ s.defsAt r

theorem Sliced.visitable {s : Session Replay} {p : Nat} (h : s.Sliced p) : s.Visitable p := by
  cases h with
  | seed hvisit => exact hvisit
  | source hvisit => exact hvisit

theorem Visitable.mono {s : Session Replay} {p q : Nat} (h : s.Visitable p) (hle : p ≤ q)
    (hq : q ≤ s.backend.position) : s.Visitable q :=
  ⟨hq, fun r hlt hr => h.2 r (by omega) hr⟩

/-- A position is `Sliced` exactly if it can be visited and writes what is `Awaited` there. -/
theorem sliced_iff {s : Session Replay} {p : Nat} :
    s.Sliced p ↔ s.Visitable p ∧ ∃ x ∈ s.defsAt p, s.Awaited (p + 1) x := by
  constructor
  · intro h
    cases h with
    | @seed p x hvisit hdef htracked hnewest => exact ⟨hvisit, x, hdef, Or.inl ⟨htracked, hnewest⟩⟩
    | @source p q x hvisit hdef hsliced hlt huse hnewest =>
        exact ⟨hvisit, x, hdef, Or.inr ⟨q, hsliced, hlt, huse, hnewest⟩⟩
  · intro hwrites
    rcases hwrites with ⟨hvisit, x, hdef, ⟨htracked, hnewest⟩ | ⟨q, hsliced, hlt, huse, hnewest⟩⟩
    · exact .seed hvisit hdef htracked hnewest
    · exact .source hvisit hdef hsliced hlt huse hnewest

/-- At the top, what is `Awaited` is what is tracked. -/
theorem awaited_top {s : Session Replay} {x : Place} :
    s.Awaited (s.backend.position + 1) x ↔ x ∈ s.slice.tracked.places := by
  constructor
  · intro hawaited
    rcases hawaited with ⟨htracked, -⟩ | ⟨q, hsliced, hle, -⟩
    · exact htracked
    · have := hsliced.visitable.1
      omega
  · intro htracked
    exact Or.inl ⟨htracked, fun q hle hq => by omega⟩

/-- One position further down, what is written there is no longer awaited, and what a sliced instruction
reads there is. -/
theorem awaited_iff {s : Session Replay} {p : Nat} {x : Place} (hp : p ≤ s.backend.position) :
    s.Awaited p x ↔ (s.Awaited (p + 1) x ∧ x ∉ s.defsAt p) ∨ (s.Sliced p ∧ x ∈ s.usesAt p) := by
  constructor
  · intro hawaited
    rcases hawaited with ⟨htracked, hnewest⟩ | ⟨q, hsliced, hle, huse, hnewest⟩
    · exact Or.inl ⟨Or.inl ⟨htracked, fun q hlt hq => hnewest q (by omega) hq⟩,
        hnewest p (Nat.le_refl p) hp⟩
    · -- the sliced reader is the position itself or lies above it
      by_cases heq : q = p
      · subst heq
        exact Or.inr ⟨hsliced, huse⟩
      · exact Or.inl ⟨Or.inr ⟨q, hsliced, by omega, huse, fun r hlt hr => hnewest r (by omega) hr⟩,
          hnewest p (Nat.le_refl p) (by omega)⟩
  · have hbelow : ∀ {q : Nat}, p ≤ q → q ≠ p → p + 1 ≤ q := by omega
    intro hawaited
    rcases hawaited with ⟨⟨htracked, hnewest⟩ | ⟨q, hsliced, hlt, huse, hnewest⟩, hdef⟩ | ⟨hsliced, huse⟩
    · refine Or.inl ⟨htracked, fun q hle hq => ?_⟩
      by_cases heq : q = p
      · subst heq
        exact hdef
      · exact hnewest q (hbelow hle heq) hq
    · refine Or.inr ⟨q, hsliced, by omega, huse, fun r hle hr => ?_⟩
      by_cases heq : r = p
      · subst heq
        exact hdef
      · exact hnewest r (hbelow hle heq) hr
    · exact Or.inr ⟨p, hsliced, Nat.le_refl p, huse, fun r hle hr => by omega⟩

/-- Positions that write nothing awaited change nothing. -/
theorem awaited_iff_of_not_sliced {s : Session Replay} {p : Nat} {x : Place} (hvisit : s.Visitable p)
    (h : ¬s.Sliced p) : s.Awaited p x ↔ s.Awaited (p + 1) x := by
  rw [awaited_iff hvisit.1]
  constructor
  · intro hawaited
    rcases hawaited with ⟨hawaited, -⟩ | ⟨hsliced, -⟩
    · exact hawaited
    · exact absurd hsliced h
  · intro hawaited
    exact Or.inl ⟨hawaited, fun hdef => h (sliced_iff.mpr ⟨hvisit, x, hdef, hawaited⟩)⟩

/-- Once nothing is `Awaited`, nothing older is sliced. -/
theorem Sliced.le_of_none_awaited {s : Session Replay} {p q : Nat} (hnone : ∀ x, ¬s.Awaited p x)
    (h : s.Sliced q) : p ≤ q := by
  -- by induction on why `q` is sliced: below `p`, the place that it writes would be awaited at `p`
  induction h with
  | @seed q x hvisit hdef htracked hnewest =>
      refine Nat.not_lt.mp fun hlt => ?_
      exact hnone x (Or.inl ⟨htracked, fun r hle hr => hnewest r (by omega) hr⟩)
  | @source q r x hvisit hdef hsliced hlt huse hnewest ih =>
      refine Nat.not_lt.mp fun hlt => ?_
      exact hnone x (Or.inr ⟨r, hsliced, ih, huse, fun r' hle' hr' => hnewest r' (by omega) hr'⟩)

/-! ### Where a walk ends -/

/-- The instruction at a position writes the followed operand while that is `Awaited`, which ends a walk. -/
def FollowedAt (s : Session Replay) (q : Nat) : Prop :=
  ∃ f x, s.slice.followed = some f ∧ f.place? = some x ∧ x ∈ s.defsAt q ∧ s.Awaited (q + 1) x

/-- A walk that runs on gets to this position: it is `Visitable`, and the followed operand is not written before. -/
def Reached (s : Session Replay) (p : Nat) : Prop :=
  s.Visitable p ∧ ∀ q, p < q → q ≤ s.backend.position → ¬s.FollowedAt q

/-- What a walk that runs on leaves tracked: the tracked places, and those that sliced instructions read,
that nothing older writes. -/
def Outstanding (s : Session Replay) (x : Place) : Prop :=
  (x ∈ s.slice.tracked.places ∧ ∀ q, s.Reached q → x ∉ s.defsAt q) ∨
    ∃ q, s.Sliced q ∧ s.Reached q ∧ x ∈ s.usesAt q ∧ ∀ r, r < q → s.Reached r → x ∉ s.defsAt r

theorem Reached.mono {s : Session Replay} {p q : Nat} (h : s.Reached p) (hle : p ≤ q)
    (hq : q ≤ s.backend.position) : s.Reached q :=
  ⟨h.1.mono hle hq, fun r hlt hr => h.2 r (by omega) hr⟩

theorem Reached.le {s : Session Replay} {p : Nat} (h : s.Reached p) : p ≤ s.backend.position := h.1.1

/-- If nothing is followed, every `Visitable` position is reached. -/
theorem reached_iff_visitable {s : Session Replay} (h : s.slice.followed = none) {p : Nat} :
    s.Reached p ↔ s.Visitable p := by
  refine ⟨fun hp => hp.1, fun hp => ⟨hp, fun q _ _ => ?_⟩⟩
  intro hat
  obtain ⟨f, x, hf, -⟩ := hat
  rw [h] at hf
  cases hf

/-- The next position is `Reached` too, if it can be visited and the followed operand has not been written. -/
theorem Reached.pred {s : Session Replay} {p : Nat} (h : s.Reached (p + 1)) (hvisit : s.Visitable p)
    (hnot : ¬s.FollowedAt (p + 1)) : s.Reached p := by
  refine ⟨hvisit, fun q hlt hq => ?_⟩
  rcases Nat.eq_or_lt_of_le (Nat.succ_le_of_lt hlt) with rfl | hlt'
  · exact hnot
  · exact h.2 q hlt' hq

/-- What is `Outstanding` is awaited at every position that is reached. -/
theorem Outstanding.awaited {s : Session Replay} {p : Nat} {x : Place} (hp : s.Reached p)
    (hlow : ∀ q, s.Sliced q → s.Reached q → p ≤ q) (h : s.Outstanding x) : s.Awaited p x := by
  rcases h with ⟨htracked, hnewest⟩ | ⟨q, hsliced, hreached, huse, hnewest⟩
  · exact Or.inl ⟨htracked, fun q hle hq => hnewest q (hp.mono hle hq)⟩
  · have hqle := hreached.le
    exact Or.inr ⟨q, hsliced, hlow q hsliced hreached, huse,
      fun r hle hr => hnewest r hr (hp.mono hle (by omega))⟩

/-- What is `Awaited` at the last position that is reached is outstanding. -/
theorem Awaited.outstanding {s : Session Replay} {p : Nat} {x : Place} (hp : s.Reached p)
    (hlast : ∀ q, s.Reached q → p ≤ q) (h : s.Awaited p x) : s.Outstanding x := by
  rcases h with ⟨htracked, hnewest⟩ | ⟨q, hsliced, hle, huse, hnewest⟩
  · exact Or.inl ⟨htracked, fun q hq => hnewest q (hlast q hq) hq.le⟩
  · exact Or.inr ⟨q, hsliced, hp.mono hle hsliced.visitable.1, huse,
      fun r hr hreached => hnewest r (hlast r hreached) hr⟩

/-! ### Sessions at a position -/

/-- Two sessions stand at the same point, whichever instruction they decoded last. -/
def Abreast {β : Type} (s t : Session β) : Prop :=
  ∀ insn, (s.remember insn).SameStand (t.remember insn)

section

variable {β : Type} {s t : Session β}

theorem Abreast.trackableSources (h : s.Abreast t) (insn : Instruction) :
    t.trackableSources insn = s.trackableSources insn := by
  have hignored : t.isIgnored = s.isIgnored := isIgnored_eq (h insn).arch (h insn).monitorStack
  unfold Session.trackableSources
  rw [hignored]

variable [Backend β]

theorem Abreast.instructionAt (h : s.Abreast t) :
    t.instructionAt t.slice.pc = s.instructionAt s.slice.pc := by
  have hstand := h (s.instructionAt s.slice.pc)
  have hpc : t.slice.pc = s.slice.pc := hstand.pc
  have hbackend : t.backend = s.backend := hstand.backend
  have harch : t.arch = s.arch := hstand.arch
  have hreturn : t.lastReturn = s.lastReturn := hstand.lastReturn
  unfold Session.instructionAt
  rw [hpc, hbackend, harch, hreturn]

theorem Abreast.locate (h : s.Abreast t) (insn : Instruction) : t.locate insn = s.locate insn := by
  have hbackend : t.backend = s.backend := (h insn).backend
  have hconfig : t.config = s.config := (h insn).config
  have hsymbol : t.withSymbol = s.withSymbol := by
    funext o
    unfold withSymbol
    rw [hbackend, hconfig]
  unfold Session.locate sourceLocation?
  rw [hsymbol, hbackend, hconfig]

end

variable {s t : Session Replay} {p : Nat}

/-- A walk starts (`readied`) at the current position. -/
theorem abreast_readied (s : Session Replay) : (s.standing s.backend.position).Abreast s.readied := by
  intro insn
  have hbackend : s.backend.rewoundTo s.backend.position = s.backend := by
    unfold Replay.rewoundTo
    rw [Nat.sub_self]
    rfl
  refine ⟨?_, rfl, rfl, rfl, ?_, rfl, ?_⟩
  · exact hbackend.symm
  · show s.lastReturn = if s.backend.position < s.backend.position then _ else s.lastReturn
    rw [if_neg (Nat.lt_irrefl _)]
  · show s.backend.current.pc = (s.backend.rewoundTo s.backend.position).current.pc
    rw [hbackend]

/-- Every turn of a walk goes one position down: `backed` follows `standing`. -/
theorem Abreast.backed (h : (s.standing (p + 1)).Abreast t) (hp : p + 1 ≤ s.backend.position)
    (hooks : List Hook) : (s.standing p).Abreast (t.meet hooks).session.backed := by
  have hmeet := (h (t.instructionAt t.slice.pc)).trans (t.meet_sameStand hooks)
  have hrewound : s.backend.rewoundTo p = (s.backend.rewoundTo (p + 1)).back := by
    have hcount : s.backend.position - p = s.backend.position - (p + 1) + 1 := by omega
    unfold Replay.rewoundTo
    rw [hcount, Function.iterate_succ_apply']
  have hbackend : (t.meet hooks).session.backend = s.backend.rewoundTo (p + 1) := hmeet.backend
  have harch : (t.meet hooks).session.arch = s.arch := hmeet.arch
  intro insn
  refine ⟨?_, harch, hmeet.config, hmeet.monitorStack, ?_, rfl, ?_⟩
  · show (t.meet hooks).session.backend.back = s.backend.rewoundTo p
    rw [hbackend, hrewound]
  · show (Backend.view (t.meet hooks).session.backend).evaluate _ = ite _ _ _
    rw [if_pos (by omega), hbackend, harch]
  · show (t.meet hooks).session.backend.back.current.pc = (s.backend.rewoundTo p).current.pc
    rw [hbackend, hrewound]

theorem Abreast.insnAt (h : (s.standing p).Abreast t) :
    t.instructionAt t.slice.pc = s.insnAt p :=
  h.instructionAt

theorem Abreast.defsAt (h : (s.standing p).Abreast t) :
    placesOf (t.instructionAt t.slice.pc).destinations = s.defsAt p := by
  rw [h.insnAt]
  rfl

theorem Abreast.usesAt (h : (s.standing p).Abreast t) :
    placesOf (t.trackableSources (t.instructionAt t.slice.pc)) = s.usesAt p := by
  rw [h.insnAt, h.trackableSources]
  rfl

theorem Abreast.locatedAt (h : (s.standing p).Abreast t) :
    t.locate (t.instructionAt t.slice.pc) = s.locatedAt p := by
  rw [h.insnAt, h.locate]
  rfl

/-- The step back from a position is progress (`moves`) or not, whatever has been found. -/
theorem Abreast.moves (h : (s.standing p).Abreast t) (hooks : List Hook) :
    (t.meet hooks).session.moves = true ↔
      ((s.standing p).remember (s.insnAt p)).reverseStep.2 = .ok true := by
  have hmeet := (h (t.instructionAt t.slice.pc)).trans (t.meet_sameStand hooks)
  rw [hmeet.moves, reverseStep_eq, h.insnAt]
  constructor
  · intro hmoves
    rw [hmoves]
  · intro hok
    exact Except.ok.inj hok

/-- A walk from `s` stands at position `p` as session `t`. -/
structure Stands (s : Session Replay) (p : Nat) (t : Session Replay) : Prop where
  visitable : s.Visitable p
  abreast : (s.standing p).Abreast t
  aligned : t.Aligned

theorem stands_readied (s : Session Replay) : s.Stands s.backend.position s.readied :=
  ⟨⟨Nat.le_refl _, fun q hlt hq => by omega⟩, s.abreast_readied, s.aligned_readied⟩

theorem Stands.position (h : s.Stands p t) : t.backend.position = p := by
  have hbackend : t.backend = s.backend.rewoundTo p := (h.abreast (s.insnAt p)).backend
  rw [hbackend, Replay.position_rewoundTo h.visitable.1]

/-- A turn with which a walk goes on (`Onward`) leads to the next position down. -/
theorem Stands.onward {u : Session Replay} {hooks : List Hook} {mode : StepMode} (h : s.Stands p t)
    (hturn : Onward hooks mode t u) : ∃ q, p = q + 1 ∧ s.Stands q u := by
  have hle := h.visitable.1
  -- the turn lowers the position, so this is not the oldest one
  have hposition := hturn.position h.aligned
  rw [h.position] at hposition
  obtain ⟨q, rfl⟩ : ∃ q, p = q + 1 := ⟨_, hposition⟩
  cases hturn with
  | onward hrun hleft hmoves hfollowed hmode =>
      refine ⟨q, rfl, ⟨by omega, fun r hlt hr => ?_⟩, h.abreast.backed hle hooks, aligned_backed _⟩
      rcases Nat.eq_or_lt_of_le (Nat.succ_le_of_lt hlt) with rfl | hlt'
      · exact (h.abreast.moves hooks).mp hmoves
      · exact h.visitable.2 r hlt' hr

/-- If the step back is no progress, no lower position is `Visitable`. -/
theorem Stands.le_of_stays {hooks : List Hook} (h : s.Stands p t)
    (hstay : (t.meet hooks).session.moves = false) {q : Nat} (hq : s.Visitable q) : p ≤ q := by
  refine Nat.not_lt.mp fun hlt => ?_
  rw [(h.abreast.moves hooks).mpr (hq.2 p hlt h.visitable.1)] at hstay
  cases hstay

end Session

end TraceSlice
