import TraceSlice.Proofs.Following
import TraceSlice.Proofs.Seeds

/-!
# Monitoring the stack

A walk that does not monitor the stack (`monitorStack`) ignores stack, frame and instruction pointers where an
instruction reads them. It may track one nevertheless, if asked to, until an instruction is matched that reads it:
then the pointer is dropped and not put back. The walk that monitors the stack puts it back, so the two walks soon
track different operands, match different instructions and end at different positions.

The comparison goes through the closure. The walk that monitors ignores nothing that has a place, so it finds its
slice exactly (`compute_run_slice_exact` in `Proofs.Exactness`). The other one tracks, at every position, only places
that are *awaited* there in the slice of the first (`Within`): what it keeps is awaited still, and what it adds is
read by an instruction that it has matched, which is therefore sliced. So it slices less and leaves less
(`compute_run_mono_monitoring`).
-/

namespace TraceSlice

namespace Session

variable {s t u : Session Replay} {p : Nat} {x : Place}

/-- The session with stack monitoring switched on or off. -/
def monitoring (s : Session Replay) (on : Bool) : Session Replay := { s with monitorStack := on }

theorem visitable_monitoring {on : Bool} : (s.monitoring on).Visitable p ↔ s.Visitable p := by
  rw [visitable_iff_moves, visitable_iff_moves]
  rfl

/-- Only immediates are ignored (`isIgnored`) while the stack is monitored. -/
theorem isIgnored_monitoring (s : Session Replay) (o : Operand) : (s.monitoring true).isIgnored o = o.isImmediate := by
  unfold isIgnored monitoring
  cases o.register? <;> simp

theorem clean_monitoring (s : Session Replay) (seeds : List Operand) :
    ((s.monitoring true).seededWith seeds).Clean := by
  intro o ho
  show (s.monitoring true).isIgnored o = false
  rw [isIgnored_monitoring]
  exact (mem_toList_seededWith ho).2

/-- What an instruction contributes (`usesAt`), it contributes while the stack is monitored. -/
theorem mem_usesAt_monitoring (h : x ∈ s.usesAt p) : x ∈ (s.monitoring true).usesAt p := by
  have hread : x ∈ placesOf (s.insnAt p).sources := mem_placesOf_sources.mpr (Or.inr h)
  rcases (mem_placesOf_sources (s := (s.monitoring true).standing p)).mp hread with hignored | huse
  · rw [placesOf_ignoredSources rfl] at hignored
    cases hignored
  · exact huse

/-! ### Walks that track less -/

/-- A walk from `s` that runs on stands at position `p` as session `t`, and all that it tracks is `Awaited` there in
the slice with the stack monitored. -/
structure Within (s : Session Replay) (p : Nat) (t : Session Replay) : Prop where
  stands : s.Stands p t
  running : t.slice.running = true
  free : t.HookFree
  followed : t.slice.followed = none
  tracked : ∀ x ∈ t.slice.tracked.places, (s.monitoring true).Awaited (p + 1) x

theorem within_readied (hfree : s.HookFree) (hnone : s.slice.followed = none) :
    s.Within s.backend.position s.readied where
  stands := s.stands_readied
  running := rfl
  free := hfree
  followed := hnone
  tracked := fun _ hx => awaited_top.mpr hx

theorem Within.reached (h : s.Within p t) (hnone : s.slice.followed = none) : (s.monitoring true).Reached p :=
  (reached_iff_visitable (s := s.monitoring true) hnone).mpr (visitable_monitoring.mpr h.stands.visitable)

/-- What is matched is `Sliced`. -/
theorem Within.sliced (h : s.Within p t) (hwritten : t.written (t.instructionAt t.slice.pc) ≠ []) :
    (s.monitoring true).Sliced p := by
  obtain ⟨x, hx, hdef⟩ := written_ne_nil_iff.mp hwritten
  rw [h.stands.abreast.defsAt] at hdef
  exact sliced_iff.mpr ⟨visitable_monitoring.mpr h.stands.visitable, x, hdef, h.tracked x hx⟩

/-- What is tracked after `meet` is `Awaited` below the instruction. -/
theorem Within.awaited_meet (h : s.Within p t) :
    ∀ x ∈ (t.meet []).session.slice.tracked.places, (s.monitoring true).Awaited p x := by
  intro x hx
  have hle : p ≤ (s.monitoring true).backend.position := h.stands.visitable.1
  have hdefs : placesOf (t.instructionAt t.slice.pc).destinations = (s.monitoring true).defsAt p :=
    h.stands.abreast.defsAt
  -- a place that is kept is awaited still, for it is not written
  have hkept (htracked : x ∈ t.slice.tracked.places)
      (hnot : x ∉ placesOf (t.written (t.instructionAt t.slice.pc))) : (s.monitoring true).Awaited p x := by
    rw [mem_placesOf_written, hdefs] at hnot
    exact (awaited_iff hle).mpr (Or.inl ⟨h.tracked x htracked, fun hdef => hnot ⟨htracked, hdef⟩⟩)
  by_cases hwritten : t.written (t.instructionAt t.slice.pc) = []
  · rw [meet_of_not_written [] hwritten] at hx
    exact hkept hx (by simp [hwritten, placesOf])
  · rcases (mem_places_meet h.free hwritten).mp hx with ⟨htracked, hnot, -⟩ | huse
    · exact hkept htracked hnot
    · rw [h.stands.abreast.usesAt] at huse
      exact (awaited_iff hle).mpr (Or.inr ⟨h.sliced hwritten, mem_usesAt_monitoring huse⟩)

theorem Within.onward {mode : StepMode} (h : s.Within p t) (hturn : Onward [] mode t u) : ∃ q, s.Within q u := by
  obtain ⟨q, rfl, hstands⟩ := h.stands.onward hturn
  cases hturn with
  | onward hrun hleft hmoves hfollowed hmode =>
      refine ⟨q, hstands, h.free.running_meet.trans h.running, h.free.meet, ?_, h.awaited_meet⟩
      refine h.free.followed_meet.trans ?_
      rw [hfollowed]
      exact h.followed

/-- What a walk leaves tracked is `Outstanding`: it ends with nothing tracked, or where no walk gets any further. -/
theorem Within.last {outcome : Outcome} (h : s.Within p t) (hnone : s.slice.followed = none)
    (hturn : Turn [] .run t u (some outcome)) :
    ∀ x ∈ u.slice.tracked.places, (s.monitoring true).Outstanding x := by
  intro x hx
  cases hturn with
  | stopped hstop =>
      rw [h.running] at hstop
      cases hstop
  | complete hrun hempty =>
      rw [Tracked.places, Tracked.isEmpty_iff.mp hempty] at hx
      cases hx
  | exhausted hrun hleft hstay =>
      refine (h.awaited_meet x hx).outstanding (h.reached hnone) fun q hq => ?_
      exact h.stands.le_of_stays hstay (visitable_monitoring.mp hq.1)
  | followed hrun hleft hmoves hfollowed =>
      obtain ⟨f, -, hf, -⟩ := h.free.meet_followed_iff.mp hfollowed
      rw [h.followed] at hf
      cases hf
  | found hrun hleft hmoves hfollowed hrelevant hmode => cases hmode

/-- All that a walk slices and leaves belongs to the slice with the stack monitored. -/
theorem Computes.within {visited : List (Session Replay)} {outcome : Outcome} (hfree : s.HookFree)
    (hnone : s.slice.followed = none) (h : s.Computes [] .run visited t outcome) :
    (∀ p ∈ found visited, (s.monitoring true).Sliced p) ∧
      ∀ x ∈ t.slice.tracked.places, (s.monitoring true).Outstanding x := by
  cases h with
  | idle hempty => simp [found, Tracked.places, Tracked.isEmpty_iff.mp hempty]
  | walks _ hcourse =>
      obtain ⟨hall, v, hv, hturn, -⟩ :=
        hcourse.ending (motive := s.Within) s.aligned_readied (within_readied hfree hnone)
          (fun _ _ hu => hu.stands.position) (fun _ _ hu => hu.running) fun _ _ _ hu hstep => hu.onward hstep
      refine ⟨fun p hp => ?_, (hall v hv).last hnone hturn⟩
      obtain ⟨w, hw, hmatters, rfl⟩ := mem_found.mp hp
      exact (hall w hw).sliced ((meet_relevant_iff []).mp hmatters)

/-- **Slices are monotone in stack monitoring.** Take any operands without hooks, pointer registers among them or not,
at any position of a recording. The positions that a walk from them slices without `monitorStack` are sliced with it
too, and what it leaves tracked is left tracked with it too. -/
theorem compute_run_mono_monitoring (s : Session Replay) (seeds : List Operand) (hseeds : ∀ o ∈ seeds, o.hook = none) :
    ∃ ps t qs u, (s.monitoring false).Finds seeds ps t ∧ (s.monitoring true).Finds seeds qs u ∧
      ps ⊆ qs ∧ t.slice.tracked.places ⊆ u.slice.tracked.places := by
  obtain ⟨ps, t, hps⟩ := (s.monitoring false).exists_finds hseeds
  obtain ⟨qs, u, hqs⟩ := (s.monitoring true).exists_finds hseeds
  obtain ⟨hsliced, hout⟩ := hqs.exact hseeds (s.clean_monitoring seeds)
  refine ⟨ps, t, qs, u, hps, hqs, ?_⟩
  obtain ⟨visited, outcome, hcomputes, rfl⟩ := hps.visits
  obtain ⟨hfound, hleft⟩ := hcomputes.within (hookFree_seededWith hseeds) rfl
  exact ⟨fun p hp => (hsliced p).mpr (hfound p hp), fun x hx => (hout x).mpr (hleft x hx)⟩

end Session

/-- A switch of stacks, and then a copy of the stack pointer. -/
def stackSwitch : Recording where
  archName := "i386"
  steps :=
    [{ pc := 0x1000, asm := "mov esp,ebx", registers := .ofList [("eax", 1), ("ebx", 0x3000), ("esp", 0x2000)] },
      { pc := 0x1002, asm := "mov eax,esp", registers := .ofList [("esp", 0x3000)] }]

namespace Session

/-- Without monitoring, the copy makes the walk drop the stack pointer, although that is a seed. -/
theorem compute_run_mono_monitoring_at_switch :
    ∃ s ∈ ofRecording? stackSwitch {}, ∃ seeds, seeds = s.seedsOf ["$eax", "$esp"] ∧ seeds.length = 2 ∧
      (∀ o ∈ seeds, o.hook = none) ∧ ∃ ps t qs u,
        (s.monitoring false).Finds seeds ps t ∧ t.slice.instructions.map (·.text) = ["mov eax,esp"] ∧
        (s.monitoring true).Finds seeds qs u ∧
        u.slice.instructions.map (·.text) = ["mov eax,esp", "mov esp,ebx"] ∧
        ps ⊆ qs ∧ t.slice.tracked.places ⊆ u.slice.tracked.places := by
  have hready : ∃ s ∈ ofRecording? stackSwitch {}, (s.seedsOf ["$eax", "$esp"]).length = 2 ∧
      (∀ o ∈ s.seedsOf ["$eax", "$esp"], o.hook = none) ∧
      (((s.monitoring false).seededWith (s.seedsOf ["$eax", "$esp"])).compute [] .run).1.slice.instructions.map
        (·.text) = ["mov eax,esp"] ∧
      (((s.monitoring true).seededWith (s.seedsOf ["$eax", "$esp"])).compute [] .run).1.slice.instructions.map
        (·.text) = ["mov eax,esp", "mov esp,ebx"] := by
    decide +kernel
  obtain ⟨s, hs, hlength, hseeds, hoff, hon⟩ := hready
  obtain ⟨ps, t, qs, u, hps, hqs, hsub, hplaces⟩ := compute_run_mono_monitoring s _ hseeds
  obtain ⟨_, ht⟩ := hps.compute
  obtain ⟨_, hu⟩ := hqs.compute
  rw [ht] at hoff
  rw [hu] at hon
  exact ⟨s, hs, _, rfl, hlength, hseeds, ps, t, qs, u, hps, hoff, hqs, hon, hsub, hplaces⟩

end Session

end TraceSlice
