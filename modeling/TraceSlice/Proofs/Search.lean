import TraceSlice.Proofs.Contribution
import TraceSlice.Proofs.Insertion

/-!
# The search for a culprit

The triage of an aborted program attaches a hook to every operand that it tracks, one for memory (`memoryHook`) and
one for registers (`registerHook`). When an instruction writes tracked operands, the hooks of all that it writes run,
one after the other. What comes of it is known from which hooks there are, not from their number or order: the
instruction is blamed, once, if a hook for memory is among them, and unless all of them blame it, every new source
gets the hook of its kind (`Event.foldl_run_search`). So as long as nobody has been blamed, everything that is tracked
carries the search on (`Searching.meet`), and just the instructions that write tracked memory are blamed
(`Searching.convicts_iff`).
-/

namespace TraceSlice

/-! ### Hooks of the search -/

namespace Corruption

/-- The hook that `attach` gives memory. -/
def memoryHook (corruption : Corruption) : Hook := ⟨some "abrt-memory", none, .traceMemory corruption⟩

/-- The hook that `attach` gives registers. -/
def registerHook (corruption : Corruption) : Hook := ⟨some "abrt-register", none, .traceRegister corruption⟩

/-- Is it `memoryHook` or `registerHook`? -/
def IsHook (corruption : Corruption) (hook : Hook) : Prop :=
  hook = corruption.memoryHook ∨ hook = corruption.registerHook

/-- Does the operand carry the hook of its kind? -/
def CarriedBy (corruption : Corruption) (o : Operand) : Prop :=
  (o.isMemory = true → o.hook = some corruption.memoryHook) ∧
    (o.isRegister = true → o.hook = some corruption.registerHook)

variable {corruption : Corruption} {o : Operand}

theorem registerHook_ne_memoryHook (corruption : Corruption) : corruption.registerHook ≠ corruption.memoryHook := by
  simp [registerHook, memoryHook]

theorem carriedBy_attach (corruption : Corruption) (o : Operand) : corruption.CarriedBy (corruption.attach o) := by
  unfold attach CarriedBy Operand.isMemory Operand.isRegister Operand.address? Operand.register?
  cases hl : o.location <;> simp [hl, memoryHook, registerHook]

theorem attach_attach (corruption : Corruption) (o : Operand) :
    corruption.attach (corruption.attach o) = corruption.attach o := by
  unfold attach
  cases hl : o.location <;> simp [hl]

theorem isHook_of_mem_attach (hnone : o.hook = none) {hook : Hook} (h : hook ∈ (corruption.attach o).hook) :
    corruption.IsHook hook := by
  unfold attach at h
  split at h
  · exact .inl (Option.some.inj h).symm
  · exact .inr (Option.some.inj h).symm
  · rw [hnone] at h
    cases h

end Corruption

namespace Session

variable {β : Type} [Backend β]

/-- Is the instruction at hand the allocator's own, which changes the heap rightly? -/
def isSpared (s : Session β) (corruption : Corruption) : Bool :=
  decide (corruption = .heap) && Backend.isInsideFile s.backend "malloc.c"

/-- Does a hook of the search blame the instruction at hand, if nobody has been blamed before? Only `memoryHook` does.
-/
def blames (s : Session β) (corruption : Corruption) (hook : Hook) : Bool :=
  hook == corruption.memoryHook && !s.isSpared corruption

end Session

namespace Event

section

variable {β : Type}

theorem blame_of_found {event : Event β} (h : event.session.culpritFound = true) (corruption : Corruption) :
    event.blame corruption = event := if_pos h

/-- The event after `blame` has blamed the instruction for the first time. -/
def convicted (event : Event β) (corruption : Corruption) : Event β :=
  { event with
    instruction := event.instruction.annotate corruption.blame
    session := { event.session with culpritFound := true }.stop }

theorem blame_of_not_found {event : Event β} (h : event.session.culpritFound = false) (corruption : Corruption) :
    event.blame corruption = event.convicted corruption := if_neg (Bool.eq_false_iff.mp h)

theorem culpritFound_blame (event : Event β) (corruption : Corruption) :
    (event.blame corruption).session.culpritFound = true := by
  unfold blame
  split
  · next h => exact h
  · rfl

theorem blame_mapSources (event : Event β) (f : Operand → Operand) (corruption : Corruption) :
    (event.mapSources f).blame corruption = (event.blame corruption).mapSources f := by
  unfold blame mapSources
  dsimp only
  split <;> rfl

@[simp] theorem session_mapSources (event : Event β) (f : Operand → Operand) :
    (event.mapSources f).session = event.session := rfl

@[simp] theorem instruction_mapSources (event : Event β) (f : Operand → Operand) :
    (event.mapSources f).instruction = event.instruction := rfl

@[simp] theorem newSources_mapSources (event : Event β) (f : Operand → Operand) :
    (event.mapSources f).newSources = event.newSources.map f := rfl

@[simp] theorem mapSources_id (event : Event β) : event.mapSources id = event := by simp [mapSources]

@[simp] theorem mapSources_mapSources (event : Event β) (f g : Operand → Operand) :
    (event.mapSources f).mapSources g = event.mapSources (g ∘ f) := by
  simp [mapSources]

end

variable {β : Type} [Backend β] {corruption : Corruption}

theorem blames_blame (event : Event β) (corruption : Corruption) :
    (event.blame corruption).session.blames corruption = event.session.blames corruption := by
  unfold blame
  split <;> rfl

/-- A hook of the search (`IsHook`) either blames the instruction or hands the search on. -/
theorem run_search (event : Event β) {hook : Hook} (h : corruption.IsHook hook) :
    event.run hook =
      if event.session.blames corruption hook then event.blame corruption else event.mapSources corruption.attach := by
  rcases h with rfl | rfl
  · have hreact : event.run corruption.memoryHook =
        if corruption = .heap ∧ Backend.isInsideFile event.session.backend "malloc.c" = true then
          event.mapSources corruption.attach
        else event.blame corruption := rfl
    rw [hreact]
    by_cases hspared : corruption = .heap ∧ Backend.isInsideFile event.session.backend "malloc.c" = true
    · simp [Session.blames, Session.isSpared, hspared]
    · have hnot : event.session.isSpared corruption = false := by
        simpa [Session.isSpared] using hspared
      simp [Session.blames, hspared, hnot]
  · have hne := beq_false_of_ne corruption.registerHook_ne_memoryHook
    rw [Session.blames, hne]
    rfl

/-- What hooks of the search make of an event. The instruction is blamed once, however many of them blame it, and the
search is handed on to all new sources unless all of them do. -/
theorem foldl_run_search (hooks : List Hook) (event : Event β) (h : ∀ hook ∈ hooks, corruption.IsHook hook) :
    hooks.foldl run event =
      (if hooks.any (event.session.blames corruption) then event.blame corruption else event).mapSources
        (if hooks.all (event.session.blames corruption) then id else corruption.attach) := by
  induction hooks generalizing event with
  | nil => simp
  | cons hook hooks ih =>
      obtain ⟨hhook, hhooks⟩ := List.forall_mem_cons.mp h
      rw [List.foldl_cons, run_search event hhook]
      cases hblames : event.session.blames corruption hook with
      | true =>
          simp only [if_true]
          rw [ih _ hhooks, blames_blame]
          simp [hblames, blame_of_found (culpritFound_blame event corruption)]
      | false =>
          have hattach : corruption.attach ∘ corruption.attach = corruption.attach := funext corruption.attach_attach
          simp only [Bool.false_eq_true, if_false]
          rw [ih _ hhooks, session_mapSources, blame_mapSources, List.any_cons, List.all_cons, hblames]
          cases hooks.any (event.session.blames corruption) <;> cases hooks.all (event.session.blames corruption) <;>
            simp [hattach]

end Event

namespace Session

variable {corruption : Corruption} {s t : Session Replay}

/-! ### Meeting an instruction -/

/-- Do all tracked operands carry the search on (`CarriedBy`)? -/
def Carries (s : Session Replay) (corruption : Corruption) : Prop :=
  ∀ o ∈ s.slice.tracked.toList, corruption.CarriedBy o

instance (s : Session Replay) (corruption : Corruption) : Decidable (s.Carries corruption) :=
  inferInstanceAs (Decidable (∀ o ∈ s.slice.tracked.toList, (_ → _) ∧ (_ → _)))

/-- Does the instruction at hand write a tracked byte of memory, without being spared? -/
def Culpable (s : Session Replay) (corruption : Corruption) : Prop :=
  (∃ address, .byte address ∈ s.slice.tracked.places ∧
      .byte address ∈ placesOf (s.instructionAt s.slice.pc).destinations) ∧
    s.isSpared corruption = false

/-- A session in search of a culprit. -/
structure Searching (s : Session Replay) (corruption : Corruption) : Prop where
  /-- All hooks belong to the search. -/
  hooks : ∀ o ∈ s.slice.tracked.toList, ∀ hook ∈ o.hook, corruption.IsHook hook
  /-- Until the culprit is found, everything that is tracked carries the search on. -/
  carries : s.culpritFound = false → s.Carries corruption

/-- The hooks of what the instruction at hand writes. -/
def struckHooks (s : Session Replay) : List Hook := (s.written (s.instructionAt s.slice.pc)).filterMap (·.hook)

theorem isHook_of_mem_struckHooks (hs : s.Searching corruption) : ∀ hook ∈ s.struckHooks, corruption.IsHook hook := by
  intro hook hhook
  obtain ⟨o, ho, hsome⟩ := List.mem_filterMap.mp hhook
  exact hs.hooks o (List.mem_filter.mp ho).1 hook hsome

/-- What is `written` is memory or a register. -/
theorem place_of_mem_written {insn : Instruction} {o : Operand} (h : o ∈ s.written insn) : ∃ x, o.place? = some x := by
  obtain ⟨x, hx, -⟩ := Operand.isIn_iff.mp (List.mem_filter.mp h).2
  exact ⟨x, hx⟩

/-- While all operands carry the search on, just the instructions that are `Culpable` are blamed. -/
theorem Carries.any_blames_iff (hs : s.Carries corruption) :
    s.struckHooks.any (s.blames corruption) = true ↔ s.Culpable corruption := by
  simp only [struckHooks, List.any_eq_true, List.mem_filterMap, blames, Bool.and_eq_true, beq_iff_eq,
    Bool.not_eq_true', Culpable]
  constructor
  · intro h
    obtain ⟨hook, ⟨o, ho, hsome⟩, rfl, hspared⟩ := h
    refine ⟨?_, hspared⟩
    obtain ⟨x, hx⟩ := place_of_mem_written ho
    cases x with
    | byte address => exact ⟨address, mem_placesOf_written.mp (mem_placesOf.mpr ⟨o, ho, hx⟩)⟩
    | group name =>
        -- a register carries the other hook
        obtain ⟨r, hr, -⟩ := Operand.register?_of_place_group hx
        have hhook := (hs o (List.mem_filter.mp ho).1).2 (by rw [Operand.isRegister, hr]; rfl)
        rw [hsome] at hhook
        exact absurd (Option.some.inj hhook).symm corruption.registerHook_ne_memoryHook
  · intro h
    obtain ⟨⟨address, hwritten⟩, hspared⟩ := h
    obtain ⟨o, ho, hx⟩ := mem_placesOf.mp (mem_placesOf_written.mpr hwritten)
    have hhook := (hs o (List.mem_filter.mp ho).1).1 (Operand.isMemory_of_place_byte hx)
    exact ⟨_, ⟨o, ho, hhook⟩, rfl, hspared⟩

/-- What is written while all operands carry the search on has a hook (`struckHooks`). -/
theorem Carries.struckHooks_ne_nil (hs : s.Carries corruption) (h : s.written (s.instructionAt s.slice.pc) ≠ []) :
    s.struckHooks ≠ [] := by
  obtain ⟨o, ho⟩ := List.exists_mem_of_ne_nil _ h
  have hcarried := hs o (List.mem_filter.mp ho).1
  have hhook : ∃ hook, o.hook = some hook := by
    obtain ⟨x, hx⟩ := place_of_mem_written ho
    cases x with
    | byte address => exact ⟨_, hcarried.1 (Operand.isMemory_of_place_byte hx)⟩
    | group name =>
        obtain ⟨r, hr, -⟩ := Operand.register?_of_place_group hx
        exact ⟨_, hcarried.2 (by rw [Operand.isRegister, hr]; rfl)⟩
  obtain ⟨hook, hsome⟩ := hhook
  exact List.ne_nil_of_mem (List.mem_filterMap.mpr ⟨o, ho, hsome⟩)

/-- Is the instruction at hand blamed? This is the first time that a hook `blames` it. -/
def convicts (s : Session Replay) (corruption : Corruption) : Bool :=
  !s.culpritFound && s.struckHooks.any (s.blames corruption)

/-- What hooks are shown when the instruction at hand writes tracked operands. -/
def struck (s : Session Replay) : Event Replay :=
  (s.remember (s.instructionAt s.slice.pc)).matched (s.instructionAt s.slice.pc)

@[simp] theorem struck_instruction (s : Session Replay) : s.struck.instruction = s.entry := matched_instruction _ _

@[simp] theorem struck_newSources (s : Session Replay) : s.struck.newSources = s.trackableSources s.entry := by
  unfold struck matched
  dsimp only
  split <;> rfl

@[simp] theorem struck_backend (s : Session Replay) : s.struck.session.backend = s.backend :=
  (matched_sameStand _ _).backend

@[simp] theorem struck_culpritFound (s : Session Replay) : s.struck.session.culpritFound = s.culpritFound := by
  unfold struck matched
  dsimp only
  split <;> rfl

@[simp] theorem struck_tracked (s : Session Replay) : s.struck.session.slice.tracked = s.slice.tracked :=
  tracked_matched _ _

@[simp] theorem struck_instructions (s : Session Replay) :
    s.struck.session.slice.instructions = s.slice.instructions :=
  matched_instructions _ _

@[simp] theorem struck_running (s : Session Replay) : s.struck.session.slice.running = s.slice.running := by
  unfold struck matched
  dsimp only
  split <;> rfl

/-- However many hooks run, `meet` blames the instruction once, or not at all. -/
theorem Searching.meet_session (hs : s.Searching corruption) (h : s.written (s.instructionAt s.slice.pc) ≠ []) :
    (s.meet []).session = settle
      ((if s.convicts corruption then s.struck.convicted corruption else s.struck).mapSources
        (if s.struckHooks.all (s.blames corruption) then id else corruption.attach)) := by
  have hmeet : (s.meet []).session = settle (s.struckHooks.foldl Event.run s.struck) := by
    rw [meet, visit_of_written (s := s.remember _) h]
    rfl
  have hblames : s.struck.session.blames corruption = s.blames corruption := by
    funext hook
    rw [blames, blames, isSpared, isSpared, struck_backend]
  have hverdict : (if s.struckHooks.any (s.blames corruption) then s.struck.blame corruption else s.struck) =
      if s.convicts corruption then s.struck.convicted corruption else s.struck := by
    have hflag := s.struck_culpritFound
    unfold convicts
    cases hfound : s.culpritFound with
    | true => simp [Event.blame_of_found (hflag.trans hfound)]
    | false => simp [Event.blame_of_not_found (hflag.trans hfound)]
  rw [hmeet, Event.foldl_run_search _ _ (isHook_of_mem_struckHooks hs), hblames, hverdict]

/-- What `settle` makes of a session, as far as the search goes. -/
theorem settle_search (event : Event Replay) :
    (∃ keep, (settle event).slice.tracked = (event.session.slice.tracked.retain keep).extend event.newSources) ∧
      (settle event).slice.instructions = event.session.slice.instructions ++ [event.instruction] ∧
      (settle event).culpritFound = event.session.culpritFound ∧
      (settle event).slice.running = event.session.slice.running :=
  ⟨⟨_, rfl⟩, rfl, rfl, rfl⟩

/-- What `meet` makes of a session in search of a culprit. -/
theorem Searching.meet_eq (hs : s.Searching corruption) (h : s.written (s.instructionAt s.slice.pc) ≠ []) :
    (∃ keep, (s.meet []).session.slice.tracked = (s.slice.tracked.retain keep).extend
      ((s.trackableSources s.entry).map
        (if s.struckHooks.all (s.blames corruption) then id else corruption.attach))) ∧
      (s.meet []).session.slice.instructions =
        s.slice.instructions ++ [if s.convicts corruption then s.entry.annotate corruption.blame else s.entry] ∧
      (s.meet []).session.culpritFound = (s.culpritFound || s.convicts corruption) ∧
      (s.meet []).session.slice.running = (s.slice.running && !s.convicts corruption) := by
  rw [hs.meet_session h]
  generalize (if s.struckHooks.all (s.blames corruption) then id else corruption.attach) = f
  obtain ⟨⟨keep, htracked⟩, hinsns, hfound, hrunning⟩ := settle_search
    ((if s.convicts corruption then s.struck.convicted corruption else s.struck).mapSources f)
  rw [htracked, hinsns, hfound, hrunning]
  refine ⟨⟨keep, ?_⟩, ?_⟩
  · cases s.convicts corruption <;> simp [Event.convicted, stop, Slice.stop]
  · cases s.convicts corruption <;> simp [Event.convicted, stop, Slice.stop]

/-- Until `culpritFound`, just culprits are blamed, and afterwards nobody is. -/
theorem Searching.convicts_iff (hs : s.Searching corruption) :
    s.convicts corruption = true ↔ s.culpritFound = false ∧ s.Culpable corruption := by
  rw [convicts, Bool.and_eq_true, Bool.not_eq_true']
  refine and_congr_right fun hfound => ?_
  exact (hs.carries hfound).any_blames_iff

theorem matters_of_convicts (h : s.convicts corruption = true) : s.matters = true := by
  rw [matters, meet_relevant_iff]
  intro hnil
  simp [convicts, struckHooks, hnil] at h

/-- Until the culprit is found, the search is handed on from all that is written to all that is read. -/
theorem Searching.all_blames (hs : s.Searching corruption) (h : s.written (s.instructionAt s.slice.pc) ≠ [])
    (hfound : s.culpritFound = false) (hnot : s.convicts corruption = false) :
    s.struckHooks.all (s.blames corruption) = false := by
  obtain ⟨hook, hhook⟩ := List.exists_mem_of_ne_nil _ ((hs.carries hfound).struckHooks_ne_nil h)
  rw [convicts, hfound, Bool.not_false, Bool.true_and, List.any_eq_false] at hnot
  exact List.all_eq_false.mpr ⟨hook, hhook, hnot hook hhook⟩

/-- `meet` keeps the session `Searching`. -/
theorem Searching.meet (hs : s.Searching corruption) : (s.meet []).session.Searching corruption := by
  by_cases h : s.written (s.instructionAt s.slice.pc) = []
  · rw [meet_of_not_written [] h]
    exact ⟨hs.hooks, hs.carries⟩
  · obtain ⟨⟨keep, htracked⟩, -, hflag, -⟩ := hs.meet_eq h
    have hnone : ∀ o ∈ s.trackableSources s.entry, o.hook = none := by
      rw [entry, trackableSources_locate]
      intro o ho
      obtain ⟨source, hsource, rfl⟩ := List.mem_map.mp ho
      rw [hook_withSymbol]
      exact hook_of_mem_instructionAt source (List.mem_filter.mp hsource).1
    -- sources come without hooks, so what they carry now is what the search gave them
    constructor
    · intro o ho hook hhook
      rw [htracked] at ho
      rcases Tracked.mem_toList_extend ho with ho | ⟨ho, -⟩
      · exact hs.hooks o (List.mem_filter.mp ho).1 hook hhook
      · obtain ⟨source, hsource, rfl⟩ := List.mem_map.mp ho
        split at hhook
        · rw [id, hnone source hsource] at hhook
          cases hhook
        · exact Corruption.isHook_of_mem_attach (hnone source hsource) hhook
    · intro hfound o ho
      rw [hflag, Bool.or_eq_false_iff] at hfound
      rw [htracked, hs.all_blames h hfound.1 hfound.2] at ho
      rcases Tracked.mem_toList_extend ho with ho | ⟨ho, -⟩
      · exact hs.carries hfound.1 o (List.mem_filter.mp ho).1
      · obtain ⟨source, -, rfl⟩ := List.mem_map.mp ho
        exact corruption.carriedBy_attach source

/-- What the instruction at hand adds to the slice: its `entry`, with a note if it is blamed. -/
def ruling (s : Session Replay) (corruption : Corruption) : List Instruction :=
  if s.matters then [if s.convicts corruption then s.entry.annotate corruption.blame else s.entry] else []

/-- A session after another has met its instruction: the instruction has joined the slice if it matters, and if it is
blamed, the walk is asked to stop. -/
structure Judged (corruption : Corruption) (s t : Session Replay) : Prop where
  searching : t.Searching corruption
  instructions : t.slice.instructions = s.slice.instructions ++ s.ruling corruption
  culpritFound : t.culpritFound = (s.culpritFound || s.convicts corruption)
  running : t.slice.running = (s.slice.running && !s.convicts corruption)

theorem Searching.judged_meet (hs : s.Searching corruption) : Judged corruption s (s.meet []).session := by
  by_cases h : s.written (s.instructionAt s.slice.pc) = []
  · have hnot : s.convicts corruption = false := by simp [convicts, struckHooks, h]
    have hmatters : s.matters = false := Bool.eq_false_iff.mpr fun hrelevant => (meet_relevant_iff []).mp hrelevant h
    refine ⟨hs.meet, ?_, ?_, ?_⟩ <;> rw [meet_of_not_written [] h]
    · simp [ruling, hmatters, remember]
    · simp [hnot, remember]
    · simp [hnot, remember]
  · have hmatters : s.matters = true := (meet_relevant_iff []).mpr h
    obtain ⟨-, hinsns, hflag, hrun⟩ := hs.meet_eq h
    exact ⟨hs.meet, by rw [hinsns, ruling, hmatters, if_pos rfl], hflag, hrun⟩

theorem Searching.judged_turn {mode : StepMode} {outcome : Option Outcome} (hs : s.Searching corruption)
    (hrun : s.slice.running = true) (h : Turn [] mode s t outcome) : Judged corruption s t := by
  have hmeet := hs.judged_meet
  have hback : Judged corruption s (s.meet []).session.backed :=
    ⟨⟨hmeet.searching.hooks, hmeet.searching.carries⟩, hmeet.instructions, hmeet.culpritFound, hmeet.running⟩
  cases h with
  | stopped hstop =>
      rw [hrun] at hstop
      cases hstop
  | complete => exact hmeet
  | exhausted => exact hback
  | followed => exact hback
  | found => exact hback
  | onward => exact hback

end Session

end TraceSlice
