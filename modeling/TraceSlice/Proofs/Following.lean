import TraceSlice.Proofs.Replacement

/-!
# Following

A session is **linked** (`Linked`) if the operand that it follows is tracked. Requests keep sessions linked, with one
exception: a walk **sheds** (`Sheds`) the followed operand when it matches an instruction that reads the operand as an
ignored source and does not write it. The operand is then followed but no longer tracked, and stays so to the end of
the walk (`Lost`). So a dialogue stays linked exactly if none of its walks sheds (`linked_trail_iff`), and operands
that are not ignored are never lost.
-/

namespace TraceSlice

namespace Session

/-- The followed operand, if there is one, is tracked. -/
def Linked (s : Session Replay) : Prop := ∀ f ∈ s.slice.followed, s.slice.tracked.contains f = true

instance (s : Session Replay) : Decidable s.Linked :=
  inferInstanceAs (Decidable (∀ f ∈ s.slice.followed, s.slice.tracked.contains f = true))

/-- The instruction that the session stands at is matched. It reads the followed operand, which is tracked
although it is ignored, and does not write it. -/
def Sheds (s : Session Replay) : Prop :=
  s.written (s.instructionAt s.slice.pc) ≠ [] ∧
    ∃ f ∈ s.slice.followed, s.slice.tracked.contains f = true ∧
      f.isIn (s.instructionAt s.slice.pc).destinations = false ∧
      f.isIn (s.ignoredSources (s.instructionAt s.slice.pc)) = true

/-- The walk that starts here `Sheds` the followed operand on its way. -/
def ShedsIn (s : Session Replay) (mode : StepMode) : Prop :=
  s.slice.tracked.isEmpty = false ∧
    ∃ t, Relation.ReflTransGen (Onward [] mode) s.readied t ∧ t.Sheds

/-- One of the walks that a list of requests asks for sheds the followed operand (`ShedsIn`). -/
def ShedsAlong (s : Session Replay) : List Request → Prop
  | [] => False
  | request :: requests =>
    (∃ mode, request = .compute mode ∧ s.ShedsIn mode) ∨ (s.serve request).ShedsAlong requests

/-- The followed operand is not tracked, and no instruction will bring it back: it is ignored. -/
def Lost (s : Session Replay) : Prop :=
  ∃ f x, s.slice.followed = some f ∧ f.place? = some x ∧ x ∉ s.slice.tracked.places ∧
    ∀ o : Operand, o.place? = some x → s.isIgnored o = true

theorem Lost.not_linked {s : Session Replay} (h : s.Lost) : ¬s.Linked := by
  obtain ⟨f, x, hf, hx, hnot, -⟩ := h
  intro hlinked
  exact hnot ((Tracked.contains_iff_of_place hx).mp (hlinked f hf))

variable {s t : Session Replay} {mode : StepMode}

/-! ### One instruction -/

theorem mem_places_meet (hfree : t.HookFree) (h : t.written (t.instructionAt t.slice.pc) ≠ [])
    {x : Place} :
    x ∈ (t.meet []).session.slice.tracked.places ↔
      (x ∈ t.slice.tracked.places ∧ x ∉ placesOf (t.written (t.instructionAt t.slice.pc)) ∧
          x ∉ placesOf (t.ignoredSources (t.instructionAt t.slice.pc))) ∨
        x ∈ placesOf (t.trackableSources (t.instructionAt t.slice.pc)) :=
  mem_places_visit (s := t.remember (t.instructionAt t.slice.pc)) hfree h

/-- A place among the `ignoredSources` of a decoded instruction is ignored altogether. -/
theorem isIgnored_of_mem_ignoredSources {pc : Word} {x : Place}
    (h : x ∈ placesOf (t.ignoredSources (t.instructionAt pc))) {o : Operand}
    (ho : o.place? = some x) : t.isIgnored o = true := by
  obtain ⟨source, hsource, hx⟩ := mem_placesOf.mp h
  obtain ⟨hsource, hignored⟩ := List.mem_filter.mp hsource
  obtain ⟨direction, hf⟩ := faithful_instructionAt hsource
  exact isIgnored_of_place hf (ho.trans hx.symm) hignored

/-- A place that is ignored altogether is not among the `trackableSources` of any instruction. -/
theorem not_mem_trackableSources {insn : Instruction} {x : Place}
    (h : ∀ o : Operand, o.place? = some x → t.isIgnored o = true) :
    x ∉ placesOf (t.trackableSources insn) := by
  intro hx
  obtain ⟨o, ho, hplace⟩ := mem_placesOf.mp hx
  have hkept := (List.mem_filter.mp ho).2
  rw [h o hplace] at hkept
  cases hkept

/-- What is followed after `meet` was followed before, and the instruction does not write it while it is tracked. -/
theorem followed_of_meet (hfree : t.HookFree) {f : Operand}
    (h : (t.meet []).session.slice.followed = some f) :
    t.slice.followed = some f ∧ ∀ x, f.place? = some x → x ∈ t.slice.tracked.places →
      x ∉ placesOf (t.instructionAt t.slice.pc).destinations := by
  rw [hfree.followed_meet] at h
  split at h
  · cases h
  · next hflag =>
      exact ⟨h, fun x hx htracked hdef =>
        hflag (hfree.meet_followed_iff.mpr ⟨f, x, h, hx, htracked, hdef⟩)⟩

/-- What is not written stays followed. -/
theorem followed_meet_of_not_written (hfree : t.HookFree) {f : Operand} {x : Place}
    (hf : t.slice.followed = some f) (hx : f.place? = some x)
    (h : x ∉ t.slice.tracked.places ∨ x ∉ placesOf (t.instructionAt t.slice.pc).destinations) :
    (t.meet []).session.slice.followed = some f := by
  rw [hfree.followed_meet, if_neg, hf]
  intro hflag
  obtain ⟨f', x', hf', hx', htracked, hdef⟩ := hfree.meet_followed_iff.mp hflag
  rw [hf] at hf'
  cases hf'
  rw [hx] at hx'
  cases hx'
  rcases h with h | h
  · exact h htracked
  · exact h hdef

/-- An operand that is followed and tracked stays tracked after `meet`, unless the instruction sheds it; then it is
one that is ignored. -/
theorem contains_meet (hfree : t.HookFree) {f : Operand}
    (hf : (t.meet []).session.slice.followed = some f) (hc : t.slice.tracked.contains f = true) :
    (t.meet []).session.slice.tracked.contains f = true ∨ (t.Sheds ∧ t.isIgnored f = true) := by
  obtain ⟨hbefore, hnot⟩ := followed_of_meet hfree hf
  by_cases hwritten : t.written (t.instructionAt t.slice.pc) = []
  · rw [meet_of_not_written [] hwritten]
    exact Or.inl hc
  · obtain ⟨x, hx, htracked⟩ := Tracked.contains_iff.mp hc
    have hdef := hnot x hx htracked
    by_cases hread : x ∈ placesOf (t.ignoredSources (t.instructionAt t.slice.pc))
    · refine Or.inr ⟨⟨hwritten, f, hbefore, hc, ?_, (Operand.isIn_iff_of_place hx).mpr hread⟩,
        isIgnored_of_mem_ignoredSources hread hx⟩
      exact Bool.eq_false_iff.mpr fun hin => hdef ((Operand.isIn_iff_of_place hx).mp hin)
    · refine Or.inl ((Tracked.contains_iff_of_place hx).mpr ((mem_places_meet hfree hwritten).mpr ?_))
      exact Or.inl ⟨htracked, fun hin => hdef (mem_placesOf_written.mp hin).2, hread⟩

/-- A session that `Sheds` the followed operand loses it. -/
theorem Sheds.lost_meet (hfree : t.HookFree) (h : t.Sheds) : (t.meet []).session.Lost := by
  obtain ⟨hwritten, f, hf, hc, hdef, hread⟩ := h
  obtain ⟨x, hx, -⟩ := Tracked.contains_iff.mp hc
  have hread := (Operand.isIn_iff_of_place hx).mp hread
  have hignored : ∀ o : Operand, o.place? = some x → t.isIgnored o = true :=
    fun o ho => isIgnored_of_mem_ignoredSources hread ho
  have hnot : x ∉ placesOf (t.instructionAt t.slice.pc).destinations := by
    intro hin
    rw [(Operand.isIn_iff_of_place hx).mpr hin] at hdef
    cases hdef
  refine ⟨f, x, followed_meet_of_not_written hfree hf hx (Or.inr hnot), hx, ?_, ?_⟩
  · rw [mem_places_meet hfree hwritten]
    intro hmem
    rcases hmem with ⟨-, -, hout⟩ | hin
    · exact hout hread
    · exact not_mem_trackableSources hignored hin
  · rw [isIgnored_eq (t.meet_sameStand []).arch (t.meet_sameStand []).monitorStack]
    exact hignored

/-- What is lost stays lost. -/
theorem Lost.meet (hfree : t.HookFree) (h : t.Lost) : (t.meet []).session.Lost := by
  obtain ⟨f, x, hf, hx, hnot, hignored⟩ := h
  refine ⟨f, x, followed_meet_of_not_written hfree hf hx (Or.inl hnot), hx, ?_, ?_⟩
  · by_cases hwritten : t.written (t.instructionAt t.slice.pc) = []
    · rw [meet_of_not_written [] hwritten]
      exact hnot
    · rw [mem_places_meet hfree hwritten]
      intro hmem
      rcases hmem with ⟨htracked, -⟩ | hin
      · exact hnot htracked
      · exact not_mem_trackableSources hignored hin
  · rw [isIgnored_eq (t.meet_sameStand []).arch (t.meet_sameStand []).monitorStack]
    exact hignored

/-! ### One turn -/

theorem Linked.turn {u : Session Replay} {outcome : Option Outcome} (hfree : t.HookFree)
    (h : t.Linked) (hnot : ¬t.Sheds) (hturn : Turn [] mode t u outcome)
    (hrun : t.slice.running = true) : u.Linked := by
  unfold Linked
  rw [hturn.slice hrun]
  intro f hf
  rcases contains_meet hfree hf (h f (followed_of_meet hfree hf).1) with hc | ⟨hsheds, -⟩
  · exact hc
  · exact absurd hsheds hnot

/-- What `meet` loses is `Lost` after the turn. -/
theorem Lost.of_meet {u : Session Replay} {outcome : Option Outcome} (h : (t.meet []).session.Lost)
    (hturn : Turn [] mode t u outcome) (hrun : t.slice.running = true) : u.Lost := by
  obtain ⟨f, x, hf, hx, hnot, hignored⟩ := h
  have hsame : (t.meet []).session.isIgnored = t.isIgnored :=
    isIgnored_eq (t.meet_sameStand []).arch (t.meet_sameStand []).monitorStack
  refine ⟨f, x, ?_, hx, ?_, ?_⟩
  · rw [hturn.slice hrun]
    exact hf
  · rw [hturn.slice hrun]
    exact hnot
  · rw [hturn.isIgnored, ← hsame]
    exact hignored

/-! ### Whole walks -/

/-- A walk that sheds nothing keeps the session `Linked`. -/
theorem Linked.compute (hfree : s.HookFree) (h : s.Linked) (hnot : ¬s.ShedsIn mode) :
    (s.compute [] mode).1.Linked := by
  cases hempty : s.slice.tracked.isEmpty with
  | true =>
      rw [compute_of_empty hempty]
      exact h
  | false =>
      obtain ⟨t, u, outcome, hsteps, hturn, hcompute⟩ := compute_ends [] mode hempty
      have hkeeps : ∀ {t : Session Replay}, Relation.ReflTransGen (Onward [] mode) s.readied t →
          ¬t.Sheds := fun hsteps hsheds => hnot ⟨hempty, _, hsteps, hsheds⟩
      have hlinked : t.Linked := by
        clear hturn hcompute
        induction hsteps with
        | refl => exact h
        | tail hsteps hstep ih =>
            obtain ⟨hp, hrun⟩ := hfree.onward hsteps
            exact ih.turn hp (hkeeps hsteps) hstep hrun
      obtain ⟨hp, hrun⟩ := hfree.onward hsteps
      rw [hcompute]
      exact hlinked.turn hp (hkeeps hsteps) hturn hrun

/-- A walk that sheds the followed operand ends with it `Lost`. -/
theorem ShedsIn.lost (hfree : s.HookFree) (h : s.ShedsIn mode) : (s.compute [] mode).1.Lost := by
  obtain ⟨hempty, t, hsteps, hsheds⟩ := h
  obtain ⟨hp, hrun⟩ := hfree.onward hsteps
  have haligned := (walk_eq_of_onward s.aligned_readied hsteps).1
  obtain ⟨v, w, outcome, hrest, hlast⟩ := exists_last_turn [] mode haligned
  rw [compute_eq_of_turn hempty (hsteps.trans hrest) hlast]
  -- either the shedding turn is the last one, or what it loses stays lost from the next turn on
  rcases hrest.cases_head with rfl | ⟨t', hfirst, hafter⟩
  · exact (hsheds.lost_meet hp).of_meet hlast hrun
  · have hlost : v.Lost := by
      have hstart : t'.Lost := (hsheds.lost_meet hp).of_meet hfirst hrun
      clear hlast hrest
      induction hafter with
      | refl => exact hstart
      | tail hafter hstep ih =>
          obtain ⟨hp', hrun'⟩ := hfree.onward ((hsteps.tail hfirst).trans hafter)
          exact (ih.meet hp').of_meet hstep hrun'
    obtain ⟨hp', hrun'⟩ := hfree.onward (hsteps.trans hrest)
    exact (hlost.meet hp').of_meet hlast hrun'

/-! ### Requests -/

/-- What is followed after a request is tracked, or it was followed before and is tracked if it was. -/
theorem Served.contains (h : s.Served t) {f : Operand} (hf : t.slice.followed = some f) :
    t.slice.tracked.contains f = true ∨
      (s.slice.followed = some f ∧
        (s.slice.tracked.contains f = true → t.slice.tracked.contains f = true)) := by
  cases h with
  | tracks => exact Or.inr ⟨hf, Tracked.contains_extend⟩
  | joins => exact Or.inr ⟨hf, Tracked.contains_extend⟩
  | @drops index o hget =>
      dsimp only at hf
      split at hf
      · cases hf
      · -- the operand dropped is not the followed one, so they stand for different places
        next hother =>
          refine Or.inr ⟨hf, fun hc => ?_⟩
          obtain ⟨x, hx, hmem⟩ := Tracked.contains_iff.mp hc
          rw [Tracked.contains_iff_of_place hx, Tracked.mem_places_eraseIdx hget]
          refine ⟨hmem, fun ho => hother ?_⟩
          unfold Slice.isFollowed
          rw [hf]
          exact Operand.same_iff.mpr ⟨x, hx, ho⟩
  | follows hmem => exact Or.inl (Tracked.contains_of_mem (hmem f hf))
  | steps =>
      rw [reverseStep_eq] at hf ⊢
      exact Or.inr ⟨hf, id⟩
  | fails => exact Or.inr ⟨hf, id⟩
  | cuts => exact Or.inr ⟨hf, id⟩
  | stops => exact Or.inr ⟨hf, id⟩

theorem Linked.served (h : s.Linked) (hserved : s.Served t) : t.Linked := by
  intro f hf
  rcases hserved.contains hf with hc | ⟨hbefore, hkeeps⟩
  · exact hc
  · exact hkeeps (h f hbefore)

/-- From a `Linked` session on, the trail is linked exactly if nothing is shed along it. -/
theorem linked_trail_iff (hfree : s.HookFree) (h : s.Linked) (requests : List Request) :
    (∀ t ∈ s.trail requests, t.Linked) ↔ ¬s.ShedsAlong requests := by
  induction requests generalizing s with
  | nil =>
      refine ⟨fun _ => id, fun _ t ht => ?_⟩
      rw [List.mem_singleton.mp ht]
      exact h
  | cons request requests ih =>
      rw [trail, ShedsAlong, List.forall_mem_cons, not_or]
      by_cases hsheds : ∃ mode, request = .compute mode ∧ s.ShedsIn mode
      · -- both sides fail: the walk ends with a session that is not linked
        obtain ⟨mode, rfl, hsheds⟩ := hsheds
        refine ⟨fun hall => ?_, fun hnot => absurd ⟨mode, rfl, hsheds⟩ hnot.1⟩
        have hhead : (s.serve (.compute mode)) ∈ (s.serve (.compute mode)).trail requests := by
          cases requests <;> exact List.mem_cons_self
        exact absurd (hall.2 _ hhead) (hsheds.lost hfree).not_linked
      · have hnext : (s.serve request).Linked := by
          by_cases hwalk : ∃ mode, request = .compute mode
          · obtain ⟨mode, rfl⟩ := hwalk
            exact h.compute hfree fun hin => hsheds ⟨mode, rfl, hin⟩
          · exact h.served (s.served_serve fun mode heq => hwalk ⟨mode, heq⟩)
        rw [ih (hfree.serve request) hnext]
        exact ⟨fun hall => ⟨hsheds, hall.2⟩, fun hnot => ⟨h, hnot.2⟩⟩

/-! ### Operands that are not ignored -/

/-- The followed operand is tracked, unless it is ignored. -/
def Guarded (s : Session Replay) : Prop :=
  ∀ f ∈ s.slice.followed, s.isIgnored f = false → s.slice.tracked.contains f = true

theorem Guarded.turn {u : Session Replay} {outcome : Option Outcome} (hfree : t.HookFree)
    (h : t.Guarded) (hturn : Turn [] mode t u outcome) : u.Guarded := by
  intro f hf hkept
  cases hrun : t.slice.running with
  | false =>
      rw [hturn.eq_of_stopped hrun] at hf hkept ⊢
      exact h f hf hkept
  | true =>
      rw [hturn.isIgnored] at hkept
      rw [hturn.slice hrun] at hf ⊢
      have hc := h f (followed_of_meet hfree hf).1 hkept
      rcases contains_meet hfree hf hc with hc | ⟨-, hignored⟩
      · exact hc
      · rw [hignored] at hkept
        cases hkept

theorem Guarded.serve (hfree : s.HookFree) (h : s.Guarded) (request : Request) :
    (s.serve request).Guarded := by
  by_cases hwalk : ∃ mode, request = .compute mode
  · obtain ⟨mode, rfl⟩ := hwalk
    have hboth : (s.compute [] mode).1.HookFree ∧ (s.compute [] mode).1.Guarded :=
      compute_induction (motive := fun t => t.HookFree ∧ t.Guarded) ⟨hfree, h⟩ id
        fun t u outcome ht hturn => ⟨ht.1.turn hturn, ht.2.turn ht.1 hturn⟩
    exact hboth.2
  · intro f hf hkept
    rw [isIgnored_serve] at hkept
    have hserved := s.served_serve fun mode heq => hwalk ⟨mode, heq⟩
    rcases hserved.contains hf with hc | ⟨hbefore, hkeeps⟩
    · exact hc
    · exact hkeeps (h f hbefore hkept)

/-- **Following along a dialogue.** From a `Fresh` session on, the followed operand is tracked in every state of the
`trail` exactly if no walk sheds it. A followed operand that is not ignored is tracked in any case. -/
theorem followed_tracked_along_trail (s : Session Replay) (hfresh : s.Fresh) (requests : List Request) :
    ((∀ t ∈ s.trail requests, t.Linked) ↔ ¬s.ShedsAlong requests) ∧
    ∀ t ∈ s.trail requests, ∀ f ∈ t.slice.followed, t.isIgnored f = false →
      t.slice.tracked.contains f = true := by
  obtain ⟨-, -, -, hnone⟩ := hfresh.seeded
  have hnever : ∀ f, s.slice.followed ≠ some f := by simp [hnone]
  have hlinked : s.Linked := fun f hf => absurd hf (hnever f)
  have hguarded : s.Guarded := fun f hf => absurd hf (hnever f)
  refine ⟨linked_trail_iff hfresh.hookFree hlinked requests, fun t ht => ?_⟩
  have hboth : t.HookFree ∧ t.Guarded :=
    trail_induction (motive := fun t => t.HookFree ∧ t.Guarded)
      (fun t request h => ⟨h.1.serve request, h.2.serve h.1 request⟩) ⟨hfresh.hookFree, hguarded⟩
      requests t ht
  exact hboth.2

/-- Tracks the stack pointer and its copy, follows the first and walks back. -/
def followStack : List Request := [.track "$esp", .track "$eax", .follow (some 0), .compute .run]

theorem followed_tracked_along_trail_at_copy :
    ∃ s ∈ ofRecording? stackCopy { monitorStack := true }, s.Fresh ∧
      (∃ t ∈ s.trail followStack, t.slice.followed.isSome = true) ∧
      ((∀ t ∈ s.trail followStack, t.Linked) ↔ ¬s.ShedsAlong followStack) ∧
      ∀ t ∈ s.trail followStack, ∀ f ∈ t.slice.followed, t.isIgnored f = false →
        t.slice.tracked.contains f = true := by
  have hready : ∃ s ∈ ofRecording? stackCopy { monitorStack := true },
      ∃ t ∈ s.trail followStack, t.slice.followed.isSome = true := by
    decide +kernel
  obtain ⟨s, hs, hfollows⟩ := hready
  have hfresh := fresh_of_ofRecording? hs
  exact ⟨s, hs, hfresh, hfollows, followed_tracked_along_trail s hfresh followStack⟩

/-- Without monitoring, a walk that copies the followed stack pointer goes on following it but no longer
tracks it. -/
theorem followed_untracked_at_copy :
    ∃ s ∈ ofRecording? stackCopy {}, s.Fresh ∧ ∃ t ∈ s.trail followStack, ¬t.Linked := by
  have hlost : ∃ s ∈ ofRecording? stackCopy {}, ∃ t ∈ s.trail followStack, ¬t.Linked := by
    decide +kernel
  obtain ⟨s, hs, hlost⟩ := hlost
  exact ⟨s, hs, fresh_of_ofRecording? hs, hlost⟩

end Session

end TraceSlice
