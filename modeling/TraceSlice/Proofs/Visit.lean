import TraceSlice.Proofs.Decoded
import TraceSlice.Session.Walk

/-!
# Matching one instruction

What a `visit` of one instruction does to a session. Hooks may change much, but never where the session stands: its
backend, its architecture, its configuration and its program counter (`visit_sameStand`). Without hooks a visit is a
single update of the slice (`visit_hookFree`), and what it does to the tracked places is the **retire-replace law** of
the specification, §8 (`mem_places_absorbed`): what was written and what was read goes, and the sources that are not
ignored come.
-/

namespace TraceSlice

namespace Session

/-! ### Where a session stands -/

section

variable {β : Type}

/-- Two sessions stand at the same point, so that they decode the same instructions and step back in the
same way. They may differ in what they have found. -/
structure SameStand (s t : Session β) : Prop where
  backend : t.backend = s.backend
  arch : t.arch = s.arch
  config : t.config = s.config
  monitorStack : t.monitorStack = s.monitorStack
  lastReturn : t.lastReturn = s.lastReturn
  decoded : t.decoded = s.decoded
  pc : t.slice.pc = s.slice.pc

theorem SameStand.refl (s : Session β) : s.SameStand s := ⟨rfl, rfl, rfl, rfl, rfl, rfl, rfl⟩

theorem SameStand.trans {s t u : Session β} (h : s.SameStand t) (h' : t.SameStand u) :
    s.SameStand u :=
  ⟨h'.backend.trans h.backend, h'.arch.trans h.arch, h'.config.trans h.config,
    h'.monitorStack.trans h.monitorStack, h'.lastReturn.trans h.lastReturn,
    h'.decoded.trans h.decoded, h'.pc.trans h.pc⟩

/-- `isIgnored` depends on the architecture and on monitoring alone. -/
theorem isIgnored_eq {s t : Session β} (harch : t.arch = s.arch)
    (hmonitor : t.monitorStack = s.monitorStack) : t.isIgnored = s.isIgnored := by
  funext o
  unfold isIgnored
  rw [harch, hmonitor]

/-- No tracked operand carries a hook. -/
def HookFree (s : Session β) : Prop := ∀ o ∈ s.slice.tracked.toList, o.hook = none

instance (s : Session β) : Decidable s.HookFree :=
  inferInstanceAs (Decidable (∀ o ∈ s.slice.tracked.toList, o.hook = none))

/-! ### What an instruction writes -/

/-- The tracked places that an instruction writes, as places of `written`. -/
theorem mem_placesOf_written {s : Session β} {insn : Instruction} {x : Place} :
    x ∈ placesOf (s.written insn) ↔
      x ∈ s.slice.tracked.places ∧ x ∈ placesOf insn.destinations := by
  unfold written Tracked.places
  rw [mem_placesOf, List.mem_filterMap]
  constructor
  · intro hmem
    obtain ⟨o, ho, hx⟩ := hmem
    obtain ⟨ho, hin⟩ := List.mem_filter.mp ho
    exact ⟨⟨o, ho, hx⟩, (Operand.isIn_iff_of_place hx).mp hin⟩
  · intro hmem
    obtain ⟨⟨o, ho, hx⟩, hin⟩ := hmem
    exact ⟨o, List.mem_filter.mpr ⟨ho, (Operand.isIn_iff_of_place hx).mpr hin⟩, hx⟩

/-- An instruction is matched (`written`) exactly if it writes a tracked place. -/
theorem written_ne_nil_iff {s : Session β} {insn : Instruction} :
    s.written insn ≠ [] ↔ ∃ x ∈ s.slice.tracked.places, x ∈ placesOf insn.destinations := by
  constructor
  · intro h
    obtain ⟨o, ho⟩ := List.exists_mem_of_ne_nil _ h
    obtain ⟨x, hx, hin⟩ := Operand.isIn_iff.mp (List.mem_filter.mp ho).2
    have hmem : x ∈ placesOf (s.written insn) := mem_placesOf.mpr ⟨o, ho, hx⟩
    exact ⟨x, mem_placesOf_written.mp hmem⟩
  · intro hwrites hnil
    obtain ⟨x, hx⟩ := hwrites
    have hmem : x ∈ placesOf (s.written insn) := mem_placesOf_written.mpr hx
    rw [hnil] at hmem
    exact absurd hmem List.not_mem_nil

/-- An instruction writes the followed operand exactly if it writes its place while that is tracked. -/
theorem any_isFollowed_iff {s : Session β} {insn : Instruction} :
    (s.written insn).any s.slice.isFollowed = true ↔
      ∃ f x, s.slice.followed = some f ∧ f.place? = some x ∧ x ∈ s.slice.tracked.places ∧
        x ∈ placesOf insn.destinations := by
  unfold Slice.isFollowed
  cases hf : s.slice.followed with
  | none => simp
  | some f =>
      have hin : (s.written insn).any (fun o => f.same o) = f.isIn (s.written insn) := by
        unfold Operand.isIn
        simp only [Operand.same_comm f]
      rw [hin, Operand.isIn_iff]
      constructor
      · intro hmem
        obtain ⟨x, hx, hmem⟩ := hmem
        exact ⟨f, x, rfl, hx, mem_placesOf_written.mp hmem⟩
      · intro hmem
        obtain ⟨f', x, hf', hx, hmem⟩ := hmem
        cases hf'
        exact ⟨x, hx, mem_placesOf_written.mpr hmem⟩

/-! ### Ignoring is a matter of place

Whether an operand is ignored is asked of its register group, and what is tracked is a place. The two
agree because the registers of decoded operands are the architecture's. -/

/-- If a decoded operand (`Use.Faithful`) is ignored, then so is every other operand at its place. -/
theorem isIgnored_of_place {s : Session β} {view : View} {direction : Direction}
    {o other : Operand} (hf : Use.Faithful s.arch.description view ⟨direction, o⟩)
    (hplace : other.place? = o.place?) (h : s.isIgnored o = true) : s.isIgnored other = true := by
  unfold isIgnored at h ⊢
  cases hr : o.register? with
  | none =>
      rw [hr] at h
      have himm : o.isImmediate = true := by simpa using h
      have hother : other.isImmediate = true := by
        unfold Operand.isImmediate at himm ⊢
        rw [hplace]
        exact himm
      rw [hother]
      rfl
  | some r =>
      -- the group of a decoded register is one of the architecture's, so its first name tells what it is
      have hgroup := Operand.place?_of_register? hr
      have himm : o.isImmediate = false := by simp [Operand.isImmediate, hgroup]
      rw [himm, hr] at h
      simp only [Bool.false_or, Bool.and_eq_true] at h
      have hcanonical := s.arch.canonical_mem_pointerNames
        (Description.group_mem_of_mem (hf.register r hr).1) h.2
      rw [hgroup] at hplace
      obtain ⟨r', hr', hname⟩ := Operand.register?_of_place_group hplace
      rw [← hname] at hcanonical
      simp [hr', h.1, Description.isPointerGroup_of_canonical hcanonical]

end

variable {β : Type} [Backend β]

/-! ### Tracking on request -/

/-- `addExpression` fails and changes nothing, or tracks what the expression names (`resolve`). -/
theorem addExpression_cases (s : Session β) (expression : String) :
    (∃ err, s.resolve expression = .error err ∧ s.addExpression expression = (s, .error err)) ∨
      ∃ operands, s.resolve expression = .ok operands ∧
        s.addExpression expression =
          (s.addOperands (operands.map s.withSymbol),
            .ok (s.slice.tracked.insertAll (operands.map s.withSymbol)).2) := by
  unfold addExpression
  cases hr : s.resolve expression with
  | error err => exact .inl ⟨err, rfl, rfl⟩
  | ok operands =>
    refine .inr ⟨operands, rfl, ?_⟩
    rw [addOperands, ← Tracked.insertAll_fst]

/-- The session with an instruction added to the slice, and what it reads tracked. -/
def joined (s : Session β) (insn : Instruction) : Session β :=
  let extended := (s.remember (s.locate insn)).addOperands (s.trackableSources (s.locate insn))
  { extended with slice := extended.slice.pushInstruction (s.locate insn) }

/-- `addCurrentInstruction` fails and changes nothing, or lets the instruction join the slice (`joined`). -/
theorem addCurrentInstruction_cases (s : Session β) :
    (∃ err, Backend.programCounter s.backend = .error err ∧
        s.addCurrentInstruction = (s, .error (.backend err))) ∨
      ∃ pc, Backend.programCounter s.backend = .ok pc ∧
        s.addCurrentInstruction = ((s.withPc pc).joined ((s.withPc pc).instructionAt pc), .ok ()) := by
  unfold addCurrentInstruction
  cases Backend.programCounter s.backend with
  | error err => exact .inl ⟨err, rfl, rfl⟩
  | ok pc => exact .inr ⟨pc, rfl, rfl⟩

/-! ### Stepping back -/

/-- `reverseStep` leaves alone what has been found, whether or not it succeeds. -/
theorem slice_reverseStep (s : Session β) : ∃ pc, s.reverseStep.1.slice = { s.slice with pc } := by
  unfold reverseStep
  dsimp only
  split
  · exact ⟨s.slice.pc, rfl⟩
  · split
    · exact ⟨s.slice.pc, rfl⟩
    · next pc _ => split <;> exact ⟨pc, rfl⟩

theorem tracked_reverseStep (s : Session β) : s.reverseStep.1.slice.tracked = s.slice.tracked := by
  obtain ⟨pc, hslice⟩ := s.slice_reverseStep
  rw [hslice]

end Session

/-! ### What hooks leave alone -/

/-- What a hook leaves alone: where the session stands, the slice so far, the written operands, and all of
the instruction but the notes on it. It may end the following of an operand, but begins none. -/
structure Event.Kept {β : Type} (before after : Event β) : Prop where
  session : before.session.SameStand after.session
  instructions : after.session.slice.instructions = before.session.slice.instructions
  followed : ∀ f ∈ after.session.slice.followed, f ∈ before.session.slice.followed
  written : after.written = before.written
  instruction : ∃ comment, after.instruction = { before.instruction with comment }

namespace Event

theorem Kept.refl {β : Type} (event : Event β) : event.Kept event := ⟨.refl _, rfl, fun _ => id, rfl, _, rfl⟩

theorem Kept.trans {β : Type} {a b c : Event β} (h : a.Kept b) (h' : b.Kept c) : a.Kept c := by
  refine ⟨h.session.trans h'.session, h'.instructions.trans h.instructions,
    fun f hf => h.followed f (h'.followed f hf), h'.written.trans h.written, ?_⟩
  obtain ⟨comment, hb⟩ := h.instruction
  obtain ⟨comment', hc⟩ := h'.instruction
  exact ⟨comment', by rw [hc, hb]⟩

/-- A change of the session that moves nothing (`SameStand`) and leaves the slice alone. -/
theorem kept_of_session {β : Type} {event : Event β} {s : Session β} (hstand : event.session.SameStand s)
    (hslice : s.slice.instructions = event.session.slice.instructions)
    (hfollowed : s.slice.followed = event.session.slice.followed) :
    event.Kept { event with session := s } :=
  ⟨hstand, hslice, fun _ hf => hfollowed ▸ hf, rfl, _, rfl⟩

theorem blame_kept {β : Type} (event : Event β) (corruption : Corruption) :
    event.Kept (event.blame corruption) := by
  unfold blame
  split
  · exact .refl event
  · exact ⟨⟨rfl, rfl, rfl, rfl, rfl, rfl, rfl⟩, rfl, fun _ => id, rfl, _, rfl⟩

variable {β : Type} [Backend β]

theorem track_kept (event : Event β) (expression : String) :
    event.Kept { event with session := event.session.trackAndNote expression } := by
  unfold Session.trackAndNote
  obtain ⟨err, -, h⟩ | ⟨operands, -, h⟩ := event.session.addExpression_cases expression
  · rw [h]
    exact kept_of_session ⟨rfl, rfl, rfl, rfl, rfl, rfl, rfl⟩ rfl rfl
  · rw [h]
    exact kept_of_session ⟨rfl, rfl, rfl, rfl, rfl, rfl, rfl⟩ rfl rfl

theorem react_kept (event : Event β) (label : Option String) (reaction : Reaction) :
    event.Kept (event.react label reaction) := by
  cases reaction with
  | track expression => exact event.track_kept expression
  | traceMemory corruption =>
      rw [react]
      split
      · exact ⟨.refl _, rfl, fun _ => id, rfl, _, rfl⟩
      · exact event.blame_kept corruption
  | unfollow => exact ⟨⟨rfl, rfl, rfl, rfl, rfl, rfl, rfl⟩, rfl, by simp [react], rfl, _, rfl⟩
  | _ => exact ⟨⟨rfl, rfl, rfl, rfl, rfl, rfl, rfl⟩, rfl, fun _ => id, rfl, _, rfl⟩

theorem run_kept (event : Event β) (hook : Hook) : event.Kept (event.run hook) := by
  unfold run
  split
  · exact event.react_kept hook.label hook.reaction
  · exact .refl event

theorem foldl_run_kept (hooks : List Hook) (event : Event β) :
    event.Kept (hooks.foldl run event) := by
  induction hooks generalizing event with
  | nil => exact .refl event
  | cons hook hooks ih => exact (event.run_kept hook).trans (ih (event.run hook))

/-- However many hooks run (`runAll`), they leave alone what one of them does. -/
theorem runAll_kept (event : Event β) (hooks : List Hook) : event.Kept (event.runAll hooks) :=
  foldl_run_kept _ event

end Event

namespace Session

variable {β : Type} [Backend β]

/-- An instruction that writes nothing that is tracked changes nothing. -/
theorem visit_of_not_written {s : Session β} {hooks : List Hook} {insn : Instruction}
    (h : s.written insn = []) : s.visit hooks insn = ⟨s, false, false⟩ := by
  unfold visit
  rw [h]
  rfl

/-- The `Event` that hooks are shown when an instruction writes tracked operands. -/
def matched (s : Session β) (insn : Instruction) : Event β :=
  let t := if (s.written insn).any s.slice.isFollowed then s.unfollow else s
  ⟨t, t.locate insn, s.written insn, t.trackableSources (t.locate insn)⟩

theorem visit_of_written {s : Session β} {hooks : List Hook} {insn : Instruction}
    (h : s.written insn ≠ []) :
    s.visit hooks insn =
      ⟨settle ((s.matched insn).runAll hooks), true, (s.written insn).any s.slice.isFollowed⟩ := by
  have hne : (s.written insn).isEmpty = false := by simpa using h
  unfold visit matched
  simp only [hne]
  rfl

theorem matched_sameStand (s : Session β) (insn : Instruction) :
    s.SameStand (s.matched insn).session := by
  unfold matched
  dsimp only
  split
  · exact ⟨rfl, rfl, rfl, rfl, rfl, rfl, rfl⟩
  · exact .refl s

theorem matched_instructions (s : Session β) (insn : Instruction) :
    (s.matched insn).session.slice.instructions = s.slice.instructions := by
  unfold matched
  dsimp only
  split <;> rfl

theorem matched_followed (s : Session β) (insn : Instruction) :
    ∀ f ∈ (s.matched insn).session.slice.followed, f ∈ s.slice.followed := by
  unfold matched
  dsimp only
  split
  · simp [unfollow]
  · exact fun _ => id

theorem matched_instruction (s : Session β) (insn : Instruction) :
    (s.matched insn).instruction = s.locate insn := by
  unfold matched
  dsimp only
  split <;> rfl

/-- `visit` leaves the session where it is, whatever hooks run. -/
theorem visit_sameStand (s : Session β) (hooks : List Hook) (insn : Instruction) :
    s.SameStand (s.visit hooks insn).session := by
  by_cases h : s.written insn = []
  · rw [visit_of_not_written h]
    exact .refl s
  · rw [visit_of_written h]
    have hhooks := ((s.matched insn).runAll_kept hooks).session
    refine (s.matched_sameStand insn).trans (hhooks.trans ?_)
    exact ⟨rfl, rfl, rfl, rfl, rfl, rfl, rfl⟩

/-- `visit` follows nothing that was not followed before, whatever hooks run. -/
theorem visit_followed (s : Session β) (hooks : List Hook) (insn : Instruction) :
    ∀ f ∈ (s.visit hooks insn).session.slice.followed, f ∈ s.slice.followed := by
  by_cases h : s.written insn = []
  · rw [visit_of_not_written h]
    exact fun _ => id
  · rw [visit_of_written h]
    exact fun f hf => s.matched_followed insn f (((s.matched insn).runAll_kept hooks).followed f hf)

/-- A visit that is relevant lets the instruction join the slice, with the notes that hooks put on it. -/
theorem visit_instructions {s : Session β} (hooks : List Hook) {insn : Instruction}
    (h : s.written insn ≠ []) :
    ∃ comment, (s.visit hooks insn).session.slice.instructions =
      s.slice.instructions ++ [{ s.locate insn with comment }] := by
  have hkept := (s.matched insn).runAll_kept hooks
  obtain ⟨comment, hinsn⟩ := hkept.instruction
  have hslice := hkept.instructions
  rw [matched_instructions] at hslice
  rw [matched_instruction] at hinsn
  refine ⟨comment, ?_⟩
  rw [visit_of_written h, ← hinsn, ← hslice]
  rfl

/-! ### Debug information moves nothing -/

@[simp] theorem place?_withSymbol (s : Session β) (o : Operand) :
    (s.withSymbol o).place? = o.place? := by
  unfold withSymbol
  split
  · split <;> rfl
  · rfl

@[simp] theorem hook_withSymbol (s : Session β) (o : Operand) : (s.withSymbol o).hook = o.hook := by
  unfold withSymbol
  split
  · split <;> rfl
  · rfl

@[simp] theorem isIgnored_withSymbol (s : Session β) (o : Operand) :
    s.isIgnored (s.withSymbol o) = s.isIgnored o := by
  unfold withSymbol
  split
  · split <;> rfl
  · rfl

theorem trackableSources_locate (s : Session β) (insn : Instruction) :
    s.trackableSources (s.locate insn) = (s.trackableSources insn).map s.withSymbol := by
  unfold trackableSources locate
  rw [List.filter_map]
  simp only [Function.comp_def, isIgnored_withSymbol]

@[simp] theorem placesOf_trackableSources_locate (s : Session β) (insn : Instruction) :
    placesOf (s.trackableSources (s.locate insn)) = placesOf (s.trackableSources insn) := by
  rw [trackableSources_locate]
  exact Operand.placesOf_map s.place?_withSymbol _

@[simp] theorem placesOf_sources_locate (s : Session β) (insn : Instruction) :
    placesOf (s.locate insn).sources = placesOf insn.sources :=
  Operand.placesOf_map s.place?_withSymbol _

/-! ### Matching without hooks -/

/-- The session after a match without hooks: neither what was written nor what was read stays tracked, the
sources that are not ignored are tracked, and the instruction has joined the slice. -/
def absorbed (s : Session β) (insn : Instruction) : Session β :=
  { s with
    slice :=
      { s.slice with
        tracked :=
          (s.slice.tracked.retain fun o =>
            !o.isIn (s.written insn) && !o.isIn (s.locate insn).sources).extend
              (s.trackableSources (s.locate insn))
        followed := if (s.written insn).any s.slice.isFollowed then none else s.slice.followed
        instructions := s.slice.instructions ++ [s.locate insn] } }

theorem settle_matched (s : Session β) (insn : Instruction) :
    settle (s.matched insn) = s.absorbed insn := by
  unfold matched absorbed
  dsimp only
  split <;> rfl

/-- Without hooks, `visit` is a single update of the slice (`absorbed`). -/
theorem visit_hookFree {s : Session β} (hfree : s.HookFree) {insn : Instruction}
    (h : s.written insn ≠ []) :
    s.visit [] insn = ⟨s.absorbed insn, true, (s.written insn).any s.slice.isFollowed⟩ := by
  have hnone : (s.matched insn).written.filterMap (·.hook) = [] := by
    rw [List.filterMap_eq_nil_iff]
    intro o ho
    exact hfree o (List.mem_filter.mp ho).1
  rw [visit_of_written h, ← settle_matched, Event.runAll, hnone]
  rfl

/-- **Retire and replace.** A match drops the places that are written or read, and adds those of the
sources that are not ignored. -/
theorem mem_places_absorbed {s : Session β} {insn : Instruction} {x : Place} :
    x ∈ (s.absorbed insn).slice.tracked.places ↔
      (x ∈ s.slice.tracked.places ∧ x ∉ placesOf insn.destinations ∧ x ∉ placesOf insn.sources) ∨
        x ∈ placesOf (s.trackableSources insn) := by
  unfold absorbed
  rw [Tracked.mem_places_extend, Tracked.mem_places_retain, mem_placesOf_written,
    placesOf_sources_locate, placesOf_trackableSources_locate]
  refine or_congr_left ⟨?_, ?_⟩
  · intro hkept
    obtain ⟨htracked, hwritten, hread⟩ := hkept
    exact ⟨htracked, fun hdest => hwritten ⟨htracked, hdest⟩, hread⟩
  · intro hkept
    obtain ⟨htracked, hdest, hread⟩ := hkept
    exact ⟨htracked, fun hwritten => hdest hwritten.2, hread⟩

/-! ### Sessions without hooks stay so -/

/-- What `instructionAt` decodes is faithful to the session's backend. -/
theorem faithful_instructionAt {s : Session β} {pc : Word} {o : Operand}
    (h : o ∈ (s.instructionAt pc).sources) :
    ∃ direction, Use.Faithful s.arch.description (Backend.view s.backend) ⟨direction, o⟩ :=
  Decode.faithful_of_mem_sources h

/-- The `trackableSources` of an instruction carry no hooks, as long as its operands do not. -/
theorem hook_of_mem_trackableSources {s : Session β} {insn : Instruction}
    (hinsn : ∀ o ∈ insn.sources, o.hook = none) :
    ∀ o ∈ s.trackableSources (s.locate insn), o.hook = none := by
  intro o ho
  rw [trackableSources_locate] at ho
  obtain ⟨source, hsource, rfl⟩ := List.mem_map.mp ho
  rw [hook_withSymbol]
  exact hinsn source (List.mem_filter.mp hsource).1

theorem hook_of_mem_instructionAt {s : Session β} {pc : Word} :
    ∀ o ∈ (s.instructionAt pc).sources, o.hook = none := by
  intro o ho
  obtain ⟨direction, hf⟩ := faithful_instructionAt ho
  exact hf.hook

theorem HookFree.absorbed {s : Session β} (hfree : s.HookFree) {insn : Instruction}
    (hinsn : ∀ o ∈ insn.sources, o.hook = none) : (s.absorbed insn).HookFree := by
  intro o ho
  rcases Tracked.mem_toList_extend ho with ho | ⟨ho, -⟩
  · exact hfree o (List.mem_filter.mp ho).1
  · exact hook_of_mem_trackableSources hinsn o ho

/-! ### Sessions that track nothing ignored -/

/-- Nothing that is ignored is tracked. -/
def Clean {β : Type} (s : Session β) : Prop := ∀ o ∈ s.slice.tracked.toList, s.isIgnored o = false

instance {β : Type} (s : Session β) : Decidable s.Clean :=
  inferInstanceAs (Decidable (∀ o ∈ s.slice.tracked.toList, s.isIgnored o = false))

/-- In a `Clean` session, a tracked place that an instruction reads is one that it contributes. -/
theorem Clean.mem_trackableSources {s : Session β} (hclean : s.Clean) {pc : Word} {x : Place}
    (htracked : x ∈ s.slice.tracked.places) (hread : x ∈ placesOf (s.instructionAt pc).sources) :
    x ∈ placesOf (s.trackableSources (s.instructionAt pc)) := by
  obtain ⟨o, ho, hx⟩ := mem_placesOf.mp hread
  cases hi : s.isIgnored o with
  | true =>
      -- then the tracked operand at the same place would be ignored as well
      obtain ⟨other, hother, hx'⟩ := List.mem_filterMap.mp htracked
      obtain ⟨direction, hf⟩ := faithful_instructionAt ho
      have hignored := isIgnored_of_place hf (hx'.trans hx.symm) hi
      rw [hclean other hother] at hignored
      cases hignored
  | false => exact mem_placesOf.mpr ⟨o, List.mem_filter.mpr ⟨ho, by rw [hi]; rfl⟩, hx⟩

/-- In a `Clean` session, a match replaces the places that are written by those that are read. -/
theorem Clean.mem_places_absorbed {s : Session β} (hclean : s.Clean) {pc : Word} {x : Place} :
    x ∈ (s.absorbed (s.instructionAt pc)).slice.tracked.places ↔
      (x ∈ s.slice.tracked.places ∧ x ∉ placesOf (s.instructionAt pc).destinations) ∨
        x ∈ placesOf (s.trackableSources (s.instructionAt pc)) := by
  rw [Session.mem_places_absorbed]
  constructor
  · intro hmem
    rcases hmem with ⟨htracked, hdef, -⟩ | huse
    · exact Or.inl ⟨htracked, hdef⟩
    · exact Or.inr huse
  · intro hmem
    rcases hmem with ⟨htracked, hdef⟩ | huse
    · by_cases hread : x ∈ placesOf (s.instructionAt pc).sources
      · exact Or.inr (hclean.mem_trackableSources htracked hread)
      · exact Or.inl ⟨htracked, hdef, hread⟩
    · exact Or.inr huse

theorem Clean.absorbed {s : Session β} (hclean : s.Clean) (insn : Instruction) :
    (s.absorbed insn).Clean := by
  intro o ho
  rcases Tracked.mem_toList_extend ho with ho | ⟨ho, -⟩
  · exact hclean o (List.mem_filter.mp ho).1
  · have hkept : (!s.isIgnored o) = true := (List.mem_filter.mp ho).2
    show s.isIgnored o = false
    simpa using hkept

end Session

end TraceSlice
