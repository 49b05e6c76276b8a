import TraceSlice.Proofs.Request

/-!
# Retiring and replacing

A match **replaces** (`Replaces`) the tracked places that the instruction writes by the places it reads: the
retire-replace law of the specification, §8. Sources that are ignored (`ignoredSources`) make the difference between
this law and what a match does: they are dropped although nothing writes them. So the law holds exactly if every
tracked place that is an ignored source is written or comes back, and always while the stack is monitored
(`visit_retires_and_replaces`).
-/

namespace TraceSlice

namespace Session

section

variable {β : Type}

/-- The sources of an instruction that `isIgnored` leaves untracked. -/
def ignoredSources (s : Session β) (insn : Instruction) : List Operand :=
  insn.sources.filter s.isIgnored

/-- The tracked places of `t` are those of `s`, with the ones that the instruction writes (`written`) replaced by its
sources that are not ignored. -/
def Replaces (s : Session β) (insn : Instruction) (t : Session β) : Prop :=
  ∀ x, x ∈ t.slice.tracked.places ↔
    (x ∈ s.slice.tracked.places ∧ x ∉ placesOf (s.written insn)) ∨
      x ∈ placesOf (s.trackableSources insn)

/-- A source is among the `ignoredSources` or the `trackableSources`. -/
theorem mem_placesOf_sources {s : Session β} {insn : Instruction} {x : Place} :
    x ∈ placesOf insn.sources ↔
      x ∈ placesOf (s.ignoredSources insn) ∨ x ∈ placesOf (s.trackableSources insn) := by
  unfold ignoredSources trackableSources
  simp only [mem_placesOf, List.mem_filter]
  constructor
  · intro hmem
    obtain ⟨o, ho, hx⟩ := hmem
    cases hi : s.isIgnored o with
    | true => exact Or.inl ⟨o, ⟨ho, hi⟩, hx⟩
    | false => exact Or.inr ⟨o, ⟨ho, by rw [hi]; rfl⟩, hx⟩
  · intro hmem
    rcases hmem with ⟨o, ⟨ho, -⟩, hx⟩ | ⟨o, ⟨ho, -⟩, hx⟩
    · exact ⟨o, ho, hx⟩
    · exact ⟨o, ho, hx⟩

/-- Only immediates are ignored while the stack is monitored, and those have no place. -/
theorem placesOf_ignoredSources {s : Session β} (h : s.monitorStack = true) (insn : Instruction) :
    placesOf (s.ignoredSources insn) = [] := by
  unfold placesOf
  rw [List.filterMap_eq_nil_iff]
  intro o ho
  have hi : s.isIgnored o = true := (List.mem_filter.mp ho).2
  have himm : o.isImmediate = true := by
    unfold isIgnored at hi
    rw [h] at hi
    cases hr : o.register? <;> simpa [hr] using hi
  unfold Operand.isImmediate at himm
  exact Option.isNone_iff_eq_none.mp himm

end

variable {β : Type} [Backend β] {s : Session β} {insn : Instruction}

/-- What `visit` does to the tracked places, in terms of the sources that it drops for good. -/
theorem mem_places_visit (hfree : s.HookFree) (h : s.written insn ≠ []) {x : Place} :
    x ∈ (s.visit [] insn).session.slice.tracked.places ↔
      (x ∈ s.slice.tracked.places ∧ x ∉ placesOf (s.written insn) ∧
          x ∉ placesOf (s.ignoredSources insn)) ∨
        x ∈ placesOf (s.trackableSources insn) := by
  rw [visit_hookFree hfree h, mem_places_absorbed, mem_placesOf_sources (s := s), mem_placesOf_written]
  constructor
  · intro hmem
    rcases hmem with ⟨htracked, hdest, hread⟩ | hsource
    · exact Or.inl ⟨htracked, fun hwritten => hdest hwritten.2, fun hi => hread (Or.inl hi)⟩
    · exact Or.inr hsource
  · intro hmem
    rcases hmem with ⟨htracked, hwritten, hignored⟩ | hsource
    · by_cases hsource : x ∈ placesOf (s.trackableSources insn)
      · exact Or.inr hsource
      · exact Or.inl ⟨htracked, fun hdest => hwritten ⟨htracked, hdest⟩,
          fun hread => hread.elim hignored hsource⟩
    · exact Or.inr hsource

/-- `Replaces` holds of a match exactly if no tracked place is lost to an ignored source. -/
theorem replaces_visit_iff (hfree : s.HookFree) (h : s.written insn ≠ []) :
    s.Replaces insn (s.visit [] insn).session ↔
      ∀ x ∈ s.slice.tracked.places, x ∈ placesOf (s.ignoredSources insn) →
        x ∈ placesOf (s.written insn) ∨ x ∈ placesOf (s.trackableSources insn) := by
  constructor
  · intro hlaw x htracked hignored
    by_cases hwritten : x ∈ placesOf (s.written insn)
    · exact Or.inl hwritten
    · -- the law keeps the place, and the visit keeps no ignored one: so a source brought it back
      have hafter := (hlaw x).mpr (Or.inl ⟨htracked, hwritten⟩)
      rcases (mem_places_visit hfree h).mp hafter with ⟨-, -, hnot⟩ | hsource
      · exact absurd hignored hnot
      · exact Or.inr hsource
  · intro hkept x
    rw [mem_places_visit hfree h]
    constructor
    · intro hmem
      rcases hmem with ⟨htracked, hwritten, -⟩ | hsource
      · exact Or.inl ⟨htracked, hwritten⟩
      · exact Or.inr hsource
    · intro hmem
      rcases hmem with ⟨htracked, hwritten⟩ | hsource
      · by_cases hignored : x ∈ placesOf (s.ignoredSources insn)
        · exact Or.inr ((hkept x htracked hignored).resolve_left hwritten)
        · exact Or.inl ⟨htracked, hwritten, hignored⟩
      · exact Or.inr hsource

/-- **What a match leaves tracked.** After `visit`, the written places are gone, and so are the ignored sources; the
other sources have come. Up to the ignored sources this is the law of replacement (`Replaces`), which holds exactly if
each of them that is tracked is written or comes back, and always while the stack is monitored. -/
theorem visit_retires_and_replaces (s : Session β) (insn : Instruction) (hfree : s.HookFree)
    (hmatch : s.written insn ≠ []) :
    (∀ x, x ∈ (s.visit [] insn).session.slice.tracked.places ↔
      (x ∈ s.slice.tracked.places ∧ x ∉ placesOf (s.written insn) ∧
          x ∉ placesOf (s.ignoredSources insn)) ∨
        x ∈ placesOf (s.trackableSources insn)) ∧
    (s.Replaces insn (s.visit [] insn).session ↔
      ∀ x ∈ s.slice.tracked.places, x ∈ placesOf (s.ignoredSources insn) →
        x ∈ placesOf (s.written insn) ∨ x ∈ placesOf (s.trackableSources insn)) ∧
    (s.monitorStack = true → s.Replaces insn (s.visit [] insn).session) := by
  refine ⟨fun x => mem_places_visit hfree hmatch, replaces_visit_iff hfree hmatch, fun hmonitor => ?_⟩
  rw [replaces_visit_iff hfree hmatch, placesOf_ignoredSources hmonitor]
  intro x _ hignored
  exact absurd hignored List.not_mem_nil

/-- The stack pointer and its copy are tracked where the copy is made. -/
def copyTracked? (monitorStack : Bool) : Option (Session Replay) :=
  (ofRecording? stackCopy { monitorStack }).map (·.serveAll [.track "$esp", .track "$eax"])

theorem visit_retires_and_replaces_at_copy :
    ∃ s ∈ copyTracked? true, s.HookFree ∧ s.written (s.instructionAt 0x1000) ≠ [] ∧
      s.Replaces (s.instructionAt 0x1000) (s.visit [] (s.instructionAt 0x1000)).session := by
  have hready : ∃ s ∈ copyTracked? true, s.HookFree ∧ s.written (s.instructionAt 0x1000) ≠ [] ∧
      s.monitorStack = true := by
    decide +kernel
  obtain ⟨s, hs, hfree, hmatch, hmonitor⟩ := hready
  exact ⟨s, hs, hfree, hmatch, (visit_retires_and_replaces s _ hfree hmatch).2.2 hmonitor⟩

/-- Without monitoring, copying the stack pointer stops the search for where it came from. -/
theorem not_replaces_at_copy :
    ∃ s ∈ copyTracked? false, s.HookFree ∧ s.written (s.instructionAt 0x1000) ≠ [] ∧
      ¬s.Replaces (s.instructionAt 0x1000) (s.visit [] (s.instructionAt 0x1000)).session := by
  have hlost : ∃ s ∈ copyTracked? false, s.HookFree ∧ s.written (s.instructionAt 0x1000) ≠ [] ∧
      ∃ x ∈ s.slice.tracked.places, x ∉ placesOf (s.written (s.instructionAt 0x1000)) ∧
        x ∉ (s.visit [] (s.instructionAt 0x1000)).session.slice.tracked.places := by
    decide +kernel
  obtain ⟨s, hs, hfree, hmatch, x, htracked, hwritten, hafter⟩ := hlost
  exact ⟨s, hs, hfree, hmatch, fun hlaw => hafter ((hlaw x).mpr (Or.inl ⟨htracked, hwritten⟩))⟩

end Session

end TraceSlice
