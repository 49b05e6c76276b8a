import TraceSlice.Proofs.DefUse
import TraceSlice.Proofs.Drive

/-!
# Requests to stop

A hook may ask to stop while it looks at an instruction (`Slice.stop`). A walk that runs on then ends before its next
instruction. A walk that goes step by step ends with the instruction anyway, and the next walk of the drive starts
running again: the request is lost if that walk finds something. Whether it does is a matter of the recording: it
finds an instruction exactly if a position that can be visited writes a tracked place (`WritesTracked`,
`compute_step_cases`).
-/

namespace TraceSlice

namespace Session

variable {hooks : List Hook} {s t u : Session Replay} {p : Nat}

/-- Some `Visitable` position writes a tracked place. -/
def WritesTracked (s : Session Replay) : Prop :=
  ∃ p, s.Visitable p ∧ ∃ x ∈ s.slice.tracked.places, x ∈ s.defsAt p

/-- A walk from `s` stands at position `p` as session `t`, and has found nothing so far. -/
structure Idle (s : Session Replay) (p : Nat) (t : Session Replay) : Prop where
  stands : s.Stands p t
  running : t.slice.running = true
  tracked : t.slice.tracked = s.slice.tracked
  instructions : t.slice.instructions = s.slice.instructions
  quiet : ∀ q, p < q → q ≤ s.backend.position → ∀ x ∈ s.slice.tracked.places, x ∉ s.defsAt q

theorem idle_readied (s : Session Replay) : s.Idle s.backend.position s.readied where
  stands := s.stands_readied
  running := rfl
  tracked := rfl
  instructions := rfl
  quiet := fun q hlt hq => by omega

/-- The instruction that an `Idle` walk stands at is matched exactly if its position writes a tracked place. -/
theorem Idle.written_iff (h : s.Idle p t) :
    t.written (t.instructionAt t.slice.pc) ≠ [] ↔ ∃ x ∈ s.slice.tracked.places, x ∈ s.defsAt p := by
  rw [written_ne_nil_iff, h.stands.abreast.defsAt, h.tracked]

/-- A position that writes nothing tracked leaves everything below it quiet. -/
theorem Idle.quiet_of_not_written (h : s.Idle p t)
    (hnot : t.written (t.instructionAt t.slice.pc) = []) {q : Nat} (hle : p ≤ q)
    (hq : q ≤ s.backend.position) : ∀ x ∈ s.slice.tracked.places, x ∉ s.defsAt q := by
  intro x hx hdef
  rcases Nat.eq_or_lt_of_le hle with rfl | hlt
  · exact h.written_iff.mpr ⟨x, hx, hdef⟩ hnot
  · exact h.quiet q hlt hq x hx hdef

/-- In `step` mode, a walk that goes on (`Onward`) has found nothing. -/
theorem Idle.onward (h : s.Idle p t) (hturn : Onward hooks .step t u) : ∃ q, s.Idle q u := by
  obtain ⟨q, rfl, hstands⟩ := h.stands.onward hturn
  cases hturn with
  | onward hrun hleft hmoves hfollowed hmode =>
      have hrelevant : (t.meet hooks).relevant = false := hmode.resolve_right (by simp)
      have hnot : t.written (t.instructionAt t.slice.pc) = [] := by
        refine Classical.byContradiction fun hwritten => ?_
        rw [(meet_relevant_iff hooks).mpr hwritten] at hrelevant
        cases hrelevant
      have hmeet := meet_of_not_written hooks hnot
      refine ⟨q, hstands, ?_, ?_, ?_, fun r hlt hr => h.quiet_of_not_written hnot hlt hr⟩
      · rw [hmeet]
        exact h.running
      · rw [hmeet]
        exact h.tracked
      · rw [hmeet]
        exact h.instructions

/-- How a walk in `step` mode ends: it finds the newest write of a tracked place, or there is none (`WritesTracked`)
and it exhausts history. -/
theorem Idle.last {outcome : Outcome} (h : s.Idle p t) (hsome : s.slice.tracked.isEmpty = false)
    (hturn : Turn hooks .step t u (some outcome)) :
    (s.WritesTracked ∧ ∃ insn, u.slice.instructions = s.slice.instructions ++ [insn]) ∨
      (¬s.WritesTracked ∧ u.slice.instructions = s.slice.instructions ∧
        outcome = .historyExhausted) := by
  have hslice := hturn.slice h.running
  by_cases hnot : t.written (t.instructionAt t.slice.pc) = []
  · -- nothing happens here, so the walk can only have ended for lack of history
    right
    have hmeet := meet_of_not_written hooks hnot
    cases hturn with
    | stopped hstop =>
        rw [h.running] at hstop
        cases hstop
    | complete hrun hempty =>
        rw [hmeet] at hempty
        have hempty : t.slice.tracked.isEmpty = true := hempty
        rw [h.tracked, hsome] at hempty
        cases hempty
    | exhausted hrun hleft hstay =>
        refine ⟨?_, ?_, rfl⟩
        · intro hwrites
          obtain ⟨q, hq, x, hx, hdef⟩ := hwrites
          exact h.quiet_of_not_written hnot (h.stands.le_of_stays hstay hq) hq.1 x hx hdef
        · rw [hslice, hmeet]
          exact h.instructions
    | followed hrun hleft hmoves hfollowed =>
        rw [hmeet] at hfollowed
        cases hfollowed
    | found hrun hleft hmoves hfollowed hrelevant hmode =>
        rw [hmeet] at hrelevant
        cases hrelevant
  · left
    refine ⟨⟨p, h.stands.visitable, h.written_iff.mp hnot⟩, ?_⟩
    obtain ⟨comment, hinsns⟩ := meet_instructions hooks hnot
    rw [hslice, ← h.instructions]
    exact ⟨_, hinsns⟩

/-- **What a walk in `step` mode finds.** It lets one instruction join the slice if a position that can be
visited writes a tracked place. Otherwise it exhausts history and changes nothing of the slice. -/
theorem compute_step_cases (hooks : List Hook) (hsome : s.slice.tracked.isEmpty = false) :
    ∃ u outcome, s.compute hooks .step = (u, .ok outcome) ∧
      ((s.WritesTracked ∧ ∃ insn, u.slice.instructions = s.slice.instructions ++ [insn]) ∨
        (¬s.WritesTracked ∧ u.slice.instructions = s.slice.instructions ∧
          outcome = .historyExhausted)) := by
  obtain ⟨t, u, outcome, hsteps, hturn, hcompute⟩ := compute_ends hooks .step hsome
  have hidle : ∃ p, s.Idle p t := by
    clear hturn hcompute
    induction hsteps with
    | refl => exact ⟨_, s.idle_readied⟩
    | tail _ hstep ih =>
        obtain ⟨p, hp⟩ := ih
        exact hp.onward hstep
  obtain ⟨p, hp⟩ := hidle
  exact ⟨u, outcome, hcompute, hp.last hsome hturn⟩

end Session

namespace Slicer

variable {mode : StepMode} {a : Slicer Replay}

/-- On a drive, a hook asks to stop while it looks at the instruction that `t` stands at. -/
def StopsAt (slicer : Slicer Replay) (mode : StepMode) (t : Session Replay) : Prop :=
  ∃ a, Relation.ReflTransGen (Again mode) slicer a ∧ a.session.slice.tracked.isEmpty = false ∧
    Relation.ReflTransGen (Session.Onward slicer.hooks.onMatch mode) a.session.readied t ∧
    t.slice.running = true ∧ (t.meet slicer.hooks.onMatch).session.slice.running = false

/-- A drive in `step` mode finds nothing exactly if no position that can be visited writes a tracked place
(`WritesTracked`). -/
theorem drive_step_eq_iff (hsome : a.session.slice.tracked.isEmpty = false) :
    (a.drive .step).slicer.session.slice.instructions = a.session.slice.instructions ↔
      ¬a.session.WritesTracked := by
  obtain ⟨u, outcome, hsession, hcases⟩ := Session.compute_step_cases a.hooks.onMatch hsome
  have hcompute := compute_eq hsession
  rcases hcases with ⟨hwrites, insn, hinsns⟩ | ⟨hnone, hinsns, houtcome⟩
  · refine ⟨fun heq => ?_, fun hnot => absurd hwrites hnot⟩
    have hgrows : u.slice.instructions <+: (a.drive .step).slicer.session.slice.instructions :=
      drive_grows hcompute
    have hlength := hgrows.length_le
    rw [heq, hinsns, List.length_append, List.length_singleton] at hlength
    omega
  · refine ⟨fun _ => hnone, fun _ => ?_⟩
    rw [drive_of_ended hcompute (by simp [houtcome])]
    exact hinsns

/-- What a hook stops at (`StopsAt`) joins the slice. -/
theorem StopsAt.joins {slicer : Slicer Replay} {t : Session Replay} (h : slicer.StopsAt mode t) :
    ∃ comment, (t.meet slicer.hooks.onMatch).session.slice.instructions =
      t.slice.instructions ++ [{ t.locate (t.instructionAt t.slice.pc) with comment }] := by
  obtain ⟨a, -, -, -, hrun, hstop⟩ := h
  have hwritten : t.written (t.instructionAt t.slice.pc) ≠ [] := by
    intro hnil
    rw [Session.meet_of_not_written _ hnil] at hstop
    have hstopped : t.slice.running = false := hstop
    rw [hrun] at hstopped
    cases hstopped
  exact Session.meet_instructions _ hwritten

/-- If the walk does not end there because it found an instruction, the drive does. -/
theorem StopsAt.drive_eq {slicer : Slicer Replay} {t : Session Replay} (h : slicer.StopsAt mode t)
    (hnot : ∀ u, ¬Session.Turn slicer.hooks.onMatch mode t u (some .instructionFound)) :
    (slicer.drive mode).slicer.session.slice.instructions =
      (t.meet slicer.hooks.onMatch).session.slice.instructions := by
  obtain ⟨a, hagains, hsome, hsteps, hrun, hstop⟩ := h
  rw [← hooks_of_agains hagains] at hnot hsteps hstop ⊢
  obtain ⟨u, outcome, hturn⟩ := Session.exists_turn a.hooks.onMatch mode t
  have hslice := hturn.slice hrun
  have hends : ∃ outcome, a.session.compute a.hooks.onMatch mode = (u, .ok outcome) ∧
      outcome ≠ .instructionFound := by
    cases outcome with
    | some outcome =>
        refine ⟨outcome, Session.compute_eq_of_turn hsome hsteps hturn, ?_⟩
        intro heq
        subst heq
        exact hnot u hturn
    | none =>
        -- the walk goes on to the next instruction, but no longer looks at it
        have hstopped : u.slice.running = false := by
          rw [hslice]
          exact hstop
        exact ⟨.stopped, Session.compute_eq_of_turn hsome (hsteps.tail hturn) (.stopped hstopped),
          by simp⟩
  obtain ⟨outcome, hcompute, hne⟩ := hends
  rw [drive_of_agains hagains, drive_of_ended (compute_eq hcompute) hne, hslice]

/-- If the walk ends there because it found an instruction, the drive goes on from there, and finds more exactly if
`WritesTracked`. -/
theorem StopsAt.drive_eq_iff_of_found {slicer : Slicer Replay} {t u : Session Replay}
    (h : slicer.StopsAt mode t)
    (hfound : Session.Turn slicer.hooks.onMatch mode t u (some .instructionFound)) :
    (slicer.drive mode).slicer.session.slice.instructions =
      (t.meet slicer.hooks.onMatch).session.slice.instructions ↔ ¬u.WritesTracked := by
  obtain ⟨a, hagains, hsome, hsteps, hrun, -⟩ := h
  rw [← hooks_of_agains hagains] at hfound hsteps ⊢
  have hslice := hfound.slice hrun
  have hagain : Again mode a { a with session := u } :=
    compute_eq (Session.compute_eq_of_turn hsome hsteps hfound)
  have hinsns : (t.meet a.hooks.onMatch).session.slice.instructions = u.slice.instructions := by
    rw [hslice]
  have hleft : u.slice.tracked.isEmpty = false := by
    rw [hslice]
    cases hfound with
    | found _ hleft => exact hleft
  have hmode : mode = .step := by
    cases hfound with
    | found _ _ _ _ _ hmode => exact hmode
  rw [drive_of_agains hagains, drive_of_again hagain, hinsns]
  subst hmode
  exact drive_step_eq_iff hleft

/-- **Requests to stop.** What a hook stops at (`StopsAt`) joins the slice, and nothing joins it afterwards, unless
the walk ends there because it found an instruction and a position that can still be visited writes a tracked place. A
drive that runs on always stops. -/
theorem drive_stops_iff (slicer : Slicer Replay) (mode : StepMode) (t : Session Replay)
    (h : slicer.StopsAt mode t) :
    (∃ comment, (t.meet slicer.hooks.onMatch).session.slice.instructions =
      t.slice.instructions ++ [{ t.locate (t.instructionAt t.slice.pc) with comment }]) ∧
    ((slicer.drive mode).slicer.session.slice.instructions =
        (t.meet slicer.hooks.onMatch).session.slice.instructions ↔
      ¬∃ u, Session.Turn slicer.hooks.onMatch mode t u (some .instructionFound) ∧ u.WritesTracked) ∧
    (mode = .run → (slicer.drive mode).slicer.session.slice.instructions =
      (t.meet slicer.hooks.onMatch).session.slice.instructions) := by
  refine ⟨h.joins, ?_, fun hmode => ?_⟩
  · by_cases hfound : ∃ u, Session.Turn slicer.hooks.onMatch mode t u (some .instructionFound)
    · obtain ⟨u, hfound⟩ := hfound
      rw [h.drive_eq_iff_of_found hfound]
      refine not_congr ⟨fun hwrites => ⟨u, hfound, hwrites⟩, ?_⟩
      intro hwrites
      obtain ⟨v, hturn, hwrites⟩ := hwrites
      rw [← (hfound.eq_of_found hturn).2]
      exact hwrites
    · refine ⟨fun _ ⟨u, hturn, _⟩ => hfound ⟨u, hturn⟩, fun _ => h.drive_eq fun u hturn => ?_⟩
      exact hfound ⟨u, hturn⟩
  · refine h.drive_eq fun u hturn => ?_
    cases hturn with
    | found _ _ _ _ _ hstep =>
        rw [hmode] at hstep
        cases hstep

end Slicer

/-- A program that overwrites its stack guard, checks it and aborts. -/
def smashedGuard : Recording where
  archName := "i386"
  signal := some 6
  steps :=
    [{ pc := 0x1000, asm := "mov ecx,edx",
       registers := .ofList [("eax", 1), ("ecx", 2), ("edx", 3), ("ebp", 0x3000), ("esp", 0x2000)] },
      { pc := 0x1002, asm := "mov DWORD PTR [ebp-0xc],ecx" },
      { pc := 0x1005, asm := "xor eax,DWORD PTR [ebp-0xc]" },
      { pc := 0x1008, asm := "call 0x2000 <__stack_chk_fail>" },
      { pc := 0x2000, asm := "nop", frames := [{ function := "__stack_chk_fail" }] },
      { pc := 0x2001, asm := "nop", frames := [{ function := "__stack_chk_fail" }] }]

namespace Slicer

/-- The slicer of the crash, after the triage. -/
def smashed? : Option (Slicer Replay) :=
  (Replay.ofRecording smashedGuard).toOption.bind fun replay =>
    ((crashed replay .bundled {}).toOption).map (·.1)

/-- A hook may stop a drive at the first instruction of its first walk (`readied`). -/
theorem stopsAt_readied {slicer : Slicer Replay} (hsome : slicer.session.slice.tracked.isEmpty = false)
    (hstop : (slicer.session.readied.meet slicer.hooks.onMatch).session.slice.running = false)
    (mode : StepMode) : slicer.StopsAt mode slicer.session.readied :=
  ⟨slicer, .refl, hsome, .refl, rfl, hstop⟩

/-- The triage has walked back to the culprit, and a drive step by step does not stop there. -/
theorem smashed_stops :
    ∃ slicer ∈ smashed?, slicer.session.slice.tracked.isEmpty = false ∧
      (slicer.session.readied.meet slicer.hooks.onMatch).session.slice.running = false ∧
      (slicer.drive .step).slicer.session.slice.instructions ≠
        (slicer.session.readied.meet slicer.hooks.onMatch).session.slice.instructions := by
  decide +kernel

theorem drive_stops_at_culprit :
    ∃ slicer ∈ smashed?, slicer.StopsAt .run slicer.session.readied ∧
      (slicer.drive .run).slicer.session.slice.instructions =
        (slicer.session.readied.meet slicer.hooks.onMatch).session.slice.instructions := by
  obtain ⟨slicer, hslicer, hsome, hstop, -⟩ := smashed_stops
  have hstops := stopsAt_readied hsome hstop .run
  exact ⟨slicer, hslicer, hstops, (drive_stops_iff slicer .run _ hstops).2.2 rfl⟩

/-- Step by step, the drive goes on past the culprit that the triage stopped at. -/
theorem drive_step_passes_culprit :
    ∃ slicer ∈ smashed?, slicer.StopsAt .step slicer.session.readied ∧
      (slicer.drive .step).slicer.session.slice.instructions ≠
        (slicer.session.readied.meet slicer.hooks.onMatch).session.slice.instructions := by
  obtain ⟨slicer, hslicer, hsome, hstop, hpast⟩ := smashed_stops
  exact ⟨slicer, hslicer, stopsAt_readied hsome hstop .step, hpast⟩

end Slicer

end TraceSlice
