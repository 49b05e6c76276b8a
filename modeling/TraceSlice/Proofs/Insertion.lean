import Mathlib.Data.List.Dedup
import TraceSlice.Proofs.Course
import TraceSlice.Proofs.Operation

/-!
# Tracked operands in the order of their insertion

The tracked operands are an ordered set of places. What can be done to them is a `Tracked.Change`, and a list of changes
has a `history`: the operands that were appended, oldest first. Every change keeps the places in the order of their last
insertion (`Ordered.change`), and so does every list of changes. Each `Operation` on a session comes down to a list of
changes (`tracked_operate`), a walk to those of the instructions that it meets (`meetings`), which over a recording are
those of its `Course` (`Course.meetings_eq`).
-/

namespace TraceSlice

namespace Tracked

/-! ### Changes -/

def changeAll (tracked : Tracked) (changes : List Change) : Tracked := changes.foldl change tracked

/-- Those of the operands that `insert` appends if all are inserted, one after the other. -/
def appending (tracked : Tracked) : List Operand → List Operand
  | [] => []
  | o :: rest => (if (tracked.insert o).2 then [o] else []) ++ (tracked.insert o).1.appending rest

/-- The operands that a change appends. -/
def appended (tracked : Tracked) : Change → List Operand
  | .insert operand => tracked.appending [operand]
  | .extend operands => tracked.appending operands
  | .remove _ | .retain _ | .relabel _ _ | .relabelAll _ => []

/-- The operands that a list of changes appends (`appended`), oldest first. -/
def history (tracked : Tracked) : List Change → List Operand
  | [] => []
  | c :: changes => tracked.appended c ++ (tracked.change c).history changes

theorem toList_extend (tracked : Tracked) (operands : List Operand) :
    (tracked.extend operands).toList = tracked.toList ++ tracked.appending operands := by
  induction operands generalizing tracked with
  | nil => simp [appending]
  | cons o rest ih =>
      rw [extend_cons, ih, appending]
      cases h : (tracked.insert o).2 with
      | true => simp [toList_insert_of_true h]
      | false => simp [insert_of_false h]

/-- Operands that are `appending` are appended again by inserting just them. -/
theorem extend_appending (tracked : Tracked) (operands : List Operand) :
    tracked.extend (tracked.appending operands) = tracked.extend operands := by
  induction operands generalizing tracked with
  | nil => rfl
  | cons o rest ih =>
      rw [extend_cons, appending]
      cases h : (tracked.insert o).2 with
      | true => simp [ih]
      | false => simpa [insert_of_false h] using ih tracked

/-! ### Order -/

/-- The tracked `places` stand in the order in which they were last inserted. -/
def Ordered (tracked : Tracked) (log : List Operand) : Prop := List.Sublist tracked.places (placesOf log).dedup

/-- Where duplicates count for their last occurrence (`List.dedup`), what comes anew comes last. -/
theorem sublist_dedup_concat {α : Type} [DecidableEq α] {xs log : List α} {x : α} (h : List.Sublist xs log.dedup)
    (hx : x ∉ xs) : List.Sublist (xs ++ [x]) (log ++ [x]).dedup := by
  induction log generalizing xs with
  | nil => simp_all
  | cons y log ih =>
      rw [List.cons_append]
      by_cases hy : y ∈ log
      · -- the oldest entry comes again, and counts there
        rw [List.dedup_cons_of_mem hy] at h
        rw [List.dedup_cons_of_mem (List.mem_append_left _ hy)]
        exact ih h hx
      · rw [List.dedup_cons_of_notMem hy] at h
        cases h with
        | cons _ h =>
            by_cases hyx : y ∈ log ++ [x]
            · rw [List.dedup_cons_of_mem hyx]
              exact ih h hx
            · rw [List.dedup_cons_of_notMem hyx]
              exact (ih h hx).cons y
        | cons_cons _ h =>
            rw [List.mem_cons, not_or] at hx
            have hyx : y ∉ log ++ [x] := by
              simp [hy, Ne.symm hx.1]
            rw [List.dedup_cons_of_notMem hyx]
            exact (ih h hx.2).cons_cons y

/-- Whatever changes operands without moving them keeps the places. -/
theorem places_eq_of_map {tracked moved : Tracked}
    (h : moved.toList.map Operand.place? = tracked.toList.map Operand.place?) : moved.places = tracked.places := by
  have hid (operands : List Operand) :
      operands.filterMap Operand.place? = (operands.map Operand.place?).filterMap id := by
    rw [List.filterMap_map, Function.id_comp]
  rw [places, hid, h, ← hid, places]

section

variable {tracked : Tracked} {log : List Operand}

theorem Ordered.insert (h : tracked.Ordered log) {o : Operand} (hadded : (tracked.insert o).2 = true) :
    (tracked.insert o).1.Ordered (log ++ [o]) := by
  obtain ⟨himmediate, hnew⟩ := insert_iff.mp hadded
  obtain ⟨x, hx⟩ := Operand.exists_place himmediate
  have hfresh : x ∉ tracked.places := by
    rw [← contains_iff_of_place hx, hnew]
    exact Bool.false_ne_true
  have hplaces : (tracked.insert o).1.places = tracked.places ++ [x] := by
    simp [places, toList_insert_of_true hadded, hx]
  have hlog : placesOf (log ++ [o]) = placesOf log ++ [x] := by
    simp [placesOf, hx]
  rw [Ordered, hplaces, hlog]
  exact sublist_dedup_concat h hfresh

theorem Ordered.extend (h : tracked.Ordered log) (operands : List Operand) :
    (tracked.extend operands).Ordered (log ++ tracked.appending operands) := by
  induction operands generalizing tracked log with
  | nil => simpa [appending] using h
  | cons o rest ih =>
      rw [extend_cons, appending, ← List.append_assoc]
      cases hadded : (tracked.insert o).2 with
      | false => simpa [insert_of_false hadded] using ih h
      | true => exact ih (h.insert hadded)

/-- Whatever leaves only some of the operands, in their order, keeps them `Ordered`. -/
theorem Ordered.of_sublist {kept : Tracked} (h : tracked.Ordered log)
    (hkept : List.Sublist kept.toList tracked.toList) : kept.Ordered log :=
  (hkept.filterMap _).trans h

theorem Ordered.change (h : tracked.Ordered log) (c : Change) :
    (tracked.change c).Ordered (log ++ tracked.appended c) := by
  cases c with
  | insert o => exact h.extend [o]
  | extend operands => exact h.extend operands
  | remove index =>
      rw [appended, List.append_nil]
      exact h.of_sublist (List.eraseIdx_sublist _ _)
  | retain keep =>
      rw [appended, List.append_nil]
      exact h.of_sublist List.filter_sublist
  | relabel index label =>
      rw [appended, List.append_nil, Ordered, Tracked.change, places_eq_of_map (tracked.map_place?_modify index label)]
      exact h
  | relabelAll label =>
      rw [appended, List.append_nil, Ordered, Tracked.change, places_eq_of_map (tracked.map_place?_map label)]
      exact h

theorem Ordered.changeAll (h : tracked.Ordered log) (changes : List Change) :
    (tracked.changeAll changes).Ordered (log ++ tracked.history changes) := by
  induction changes generalizing tracked log with
  | nil => simpa [Tracked.changeAll, history] using h
  | cons c changes ih =>
      rw [history, ← List.append_assoc]
      exact ih (h.change c)

end

theorem ordered_empty : ({} : Tracked).Ordered [] := by simp [Ordered, places]

theorem changeAll_append (tracked : Tracked) (as bs : List Change) :
    tracked.changeAll (as ++ bs) = (tracked.changeAll as).changeAll bs :=
  List.foldl_append

end Tracked

theorem Slice.tracked_removeOperand (slice : Slice) (index : Nat) :
    (slice.removeOperand index).1.tracked = slice.tracked.eraseIdx index := by
  rw [removeOperand]
  cases hget : slice.tracked.get? index with
  | some o => rfl
  | none =>
      -- there is no such operand, and taking it out does nothing
      have hlength := List.getElem?_eq_none_iff.mp hget
      refine Tracked.ext ?_
      simp [Tracked.eraseIdx, Tracked.restrict, List.eraseIdx_of_length_le hlength]

namespace Session

variable {β : Type} [Backend β]

/-! ### What hooks and steps do -/

/-- The session tracks what another one tracks, and more after it. -/
def Extends {β : Type} (s t : Session β) : Prop := ∃ operands, t.slice.tracked = s.slice.tracked.extend operands

/-- What one session tracks beyond another, as a `Tracked.Change`. -/
def growth {β : Type} (s t : Session β) : Tracked.Change :=
  .extend (t.slice.tracked.toList.drop s.slice.tracked.size)

section

variable {β : Type} {s t u : Session β}

theorem extends_of_eq (h : t.slice.tracked = s.slice.tracked) : s.Extends t := ⟨[], h⟩

theorem Extends.trans (h : s.Extends t) (h' : t.Extends u) : s.Extends u := by
  obtain ⟨first, hfirst⟩ := h
  obtain ⟨second, hsecond⟩ := h'
  refine ⟨first ++ second, ?_⟩
  rw [hsecond, hfirst, Tracked.extend, Tracked.extend, Tracked.extend, List.foldl_append]

theorem Extends.change_growth (h : s.Extends t) : s.slice.tracked.change (s.growth t) = t.slice.tracked := by
  obtain ⟨operands, htracked⟩ := h
  rw [growth, Tracked.change, htracked, Tracked.toList_extend, Tracked.size, List.drop_left,
    Tracked.extend_appending]

theorem Extends.tracked_eq (h : s.Extends t) : t.slice.tracked = s.slice.tracked.changeAll [s.growth t] :=
  h.change_growth.symm

end

theorem extends_trackAndNote (s : Session β) (expression : String) : s.Extends (s.trackAndNote expression) := by
  unfold trackAndNote
  obtain ⟨err, -, hadd⟩ | ⟨operands, -, hadd⟩ := s.addExpression_cases expression
  · rw [hadd]
    exact extends_of_eq rfl
  · rw [hadd]
    exact ⟨_, rfl⟩

theorem extends_react (event : Event β) (label : Option String) (reaction : Reaction) :
    event.session.Extends (event.react label reaction).session := by
  cases reaction with
  | track expression => exact event.session.extends_trackAndNote expression
  | traceMemory corruption =>
      rw [Event.react]
      split
      · exact extends_of_eq rfl
      · unfold Event.blame
        split <;> exact extends_of_eq rfl
  | _ => exact extends_of_eq rfl

theorem extends_foldl_run (hooks : List Hook) (event : Event β) :
    event.session.Extends (hooks.foldl Event.run event).session := by
  induction hooks generalizing event with
  | nil => exact extends_of_eq rfl
  | cons hook hooks ih =>
      have hrun : event.session.Extends (event.run hook).session := by
        unfold Event.run
        split
        · exact extends_react event hook.label hook.reaction
        · exact extends_of_eq rfl
      exact hrun.trans (ih (event.run hook))

/-! ### The changes that operations make -/

/-- The changes that `meet` makes: what hooks track, what goes and what comes. -/
def meetChanges (hooks : List Hook) (s : Session β) : List Tracked.Change :=
  let insn := s.instructionAt s.slice.pc
  let event := (s.remember insn).matched insn
  let after := event.runAll hooks
  if s.written insn = [] then []
  else
    [s.growth after.session,
      .retain fun o => !o.isIn after.written && !o.isIn after.instruction.sources,
      .extend after.newSources]

/-- The sessions in which a walk meets an instruction, by the recursion of `walk`. -/
def meetings (hooks : List Hook) (mode : StepMode) : Nat → Session β → List (Session β)
  | 0, _ => []
  | fuel + 1, s =>
    if !s.slice.running then []
    else
      match s.turn hooks mode with
      | (_, some _) => [s]
      | (t, none) => s :: meetings hooks mode fuel t

/-- The changes that `compute` makes: those of its `meetings`. -/
def walkChanges (s : Session β) (hooks : List Hook) (mode : StepMode) : List Tracked.Change :=
  if s.slice.tracked.isEmpty then []
  else
    match s.ready with
    | (_, .error _) => []
    | (t, .ok ()) => (meetings hooks mode (Backend.position t.backend + 1) t).flatMap (meetChanges hooks)

/-- The changes that `triage` makes. -/
def triageChanges (s : Session β) : List Tracked.Change :=
  match s.findCheck with
  | (_, none) => []
  | (t, some corruption) =>
    match t.addCurrentInstruction with
    | (_, .error _) => []
    | (u, .ok ()) => [t.growth u, .relabelAll corruption.relabeling]

/-- The changes that an `Operation` makes of the tracked operands. Most can only append to them (`growth`). -/
def changes (s : Session β) : Operation β → List Tracked.Change
  | .change c => [c]
  | .request _ (.removeOperand index) => [.remove index]
  | .request hooks (.compute mode) => s.walkChanges hooks mode
  | .startHook .triage => s.triageChanges
  | op => [s.growth (s.operate op)]

/-- The changes that a list of operations makes, in order. -/
def changesAlong (s : Session β) : List (Operation β) → List Tracked.Change
  | [] => []
  | op :: operations => s.changes op ++ (s.operate op).changesAlong operations

/-! ### Operations come down to changes -/

theorem tracked_matched (s : Session β) (insn : Instruction) :
    (s.matched insn).session.slice.tracked = s.slice.tracked := by
  unfold matched
  dsimp only
  split <;> rfl

theorem tracked_meet (s : Session β) (hooks : List Hook) :
    (s.meet hooks).session.slice.tracked = s.slice.tracked.changeAll (s.meetChanges hooks) := by
  by_cases h : s.written (s.instructionAt s.slice.pc) = []
  · rw [meet_of_not_written hooks h, meetChanges, if_pos h]
    rfl
  · have hgrows : s.Extends (((s.remember (s.instructionAt s.slice.pc)).matched
        (s.instructionAt s.slice.pc)).runAll hooks).session := by
      refine (extends_of_eq ?_).trans (extends_foldl_run _ _)
      rw [tracked_matched]
      rfl
    rw [meetChanges, if_neg h, meet, visit_of_written (s := s.remember _) h]
    simp only [Tracked.changeAll, List.foldl_cons, List.foldl_nil, hgrows.change_growth]
    rfl

/-- Apart from `meet`, a turn changes nothing of what is tracked. -/
theorem tracked_turn (hooks : List Hook) (mode : StepMode) {s : Session β} (hrun : s.slice.running = true) :
    (s.turn hooks mode).1.slice.tracked = (s.meet hooks).session.slice.tracked := by
  have hback := (s.meet hooks).session.tracked_reverseStep
  unfold turn
  simp only [hrun, Bool.not_true, Bool.false_eq_true, if_false]
  split
  · rfl
  · generalize (s.meet hooks).session.reverseStep = stepped at hback ⊢
    obtain ⟨t, _ | _ | _⟩ := stepped
    · exact hback
    · exact hback
    · dsimp only
      split
      · exact hback
      · split <;> exact hback

theorem tracked_walk (hooks : List Hook) (mode : StepMode) (fuel : Nat) (s : Session β) :
    (s.walk hooks mode fuel).1.slice.tracked =
      s.slice.tracked.changeAll ((meetings hooks mode fuel s).flatMap (meetChanges hooks)) := by
  induction fuel generalizing s with
  | zero => rfl
  | succ fuel ih =>
      cases hrun : s.slice.running with
      | false => simp [walk, turn, meetings, hrun, Tracked.changeAll]
      | true =>
          have hturned := tracked_turn hooks mode hrun
          rw [tracked_meet] at hturned
          rw [walk, meetings]
          simp only [hrun, Bool.not_true, Bool.false_eq_true, if_false]
          generalize s.turn hooks mode = turned at hturned ⊢
          obtain ⟨t, _ | ended⟩ := turned
          · rw [List.flatMap_cons, Tracked.changeAll_append, ← hturned]
            exact ih t
          · simpa using hturned

theorem tracked_compute (s : Session β) (hooks : List Hook) (mode : StepMode) :
    (s.compute hooks mode).1.slice.tracked = s.slice.tracked.changeAll (s.walkChanges hooks mode) := by
  unfold compute walkChanges ready
  cases s.slice.tracked.isEmpty with
  | true => rfl
  | false =>
      simp only [Bool.false_eq_true, if_false]
      cases Backend.programCounter s.backend with
      | error err => rfl
      | ok pc => exact tracked_walk hooks mode _ _

theorem tracked_findCheck (s : Session β) : s.findCheck.1.slice.tracked = s.slice.tracked :=
  findCheck_induction (motive := fun t => t.slice.tracked = s.slice.tracked) rfl fun u hu =>
    u.tracked_reverseStep.trans hu

theorem tracked_triage (s : Session β) :
    s.triage.slice.tracked = s.slice.tracked.changeAll s.triageChanges := by
  have hfound := s.tracked_findCheck
  unfold triage triageChanges
  generalize s.findCheck = found at hfound ⊢
  obtain ⟨t, _ | corruption⟩ := found
  · exact hfound
  · dsimp only at hfound ⊢
    rw [seedCheck, ← hfound]
    obtain ⟨err, -, hadd⟩ | ⟨pc, hpc, hadd⟩ := t.addCurrentInstruction_cases
    · rw [hadd]
      rfl
    · rw [hadd]
      dsimp only
      have hgrows : t.Extends ((t.withPc pc).joined ((t.withPc pc).instructionAt pc)) := ⟨_, rfl⟩
      rw [tracked_reverseStep]
      simp only [Tracked.changeAll, List.foldl_cons, List.foldl_nil, hgrows.change_growth]
      rfl

theorem extends_runStartHook (s : Session β) {hook : StartHook} (h : hook ≠ .triage) :
    s.Extends (s.runStartHook hook) := by
  cases hook with
  | triage => exact absurd rfl h
  | track expression => exact s.extends_trackAndNote expression
  | current =>
      rw [runStartHook]
      obtain ⟨err, -, hadd⟩ | ⟨pc, -, hadd⟩ := s.addCurrentInstruction_cases
      · rw [hadd]
        exact extends_of_eq rfl
      · rw [hadd]
        exact ⟨_, rfl⟩
  | nothing => exact extends_of_eq rfl
  | log => exact extends_of_eq rfl
  | stop => exact extends_of_eq rfl

/-- A request that neither walks nor removes an operand can only append to the tracked operands. -/
theorem extends_perform (s : Session β) (hooks : List Hook) {request : Request}
    (hwalk : ∀ mode, request ≠ .compute mode) (hremove : ∀ index, request ≠ .removeOperand index) :
    s.Extends (s.perform hooks request).1 := by
  cases request with
  | compute mode => exact absurd rfl (hwalk mode)
  | removeOperand index => exact absurd rfl (hremove index)
  | track expression =>
      obtain ⟨err, -, hadd⟩ | ⟨operands, -, hadd⟩ := s.addExpression_cases expression <;> rw [perform, hadd]
      · exact extends_of_eq rfl
      · exact ⟨_, rfl⟩
  | current =>
      obtain ⟨err, -, hadd⟩ | ⟨pc, -, hadd⟩ := s.addCurrentInstruction_cases <;> rw [perform, hadd]
      · exact extends_of_eq rfl
      · exact ⟨_, rfl⟩
  | follow index =>
      obtain ⟨followed, hserve⟩ := s.serve_follow index
      rw [show (s.perform hooks (.follow index)).1 = _ from hserve]
      exact extends_of_eq rfl
  | removeInstruction index =>
      refine extends_of_eq ?_
      simp only [perform, Slice.removeInstruction]
      cases s.slice.instructions[index]? <;> rfl
  | stop => exact extends_of_eq rfl
  | back => exact extends_of_eq s.tracked_reverseStep

/-- What an operation does to the tracked operands is what its `changes` do. -/
theorem tracked_operate (s : Session β) (op : Operation β) :
    (s.operate op).slice.tracked = s.slice.tracked.changeAll (s.changes op) := by
  cases op with
  | change c => rfl
  | request hooks request =>
      cases request with
      | removeOperand index => exact s.slice.tracked_removeOperand index
      | compute mode => exact s.tracked_compute hooks mode
      -- no other request takes an operand away
      | _ => exact (s.extends_perform hooks (by simp) (by simp)).tracked_eq
  | seed =>
      refine Extends.tracked_eq ?_
      obtain hsame | ⟨report, hseed⟩ := s.operate_seed_cases
      · rw [hsame]
        exact extends_of_eq rfl
      · obtain ⟨operands, -, htracked, -⟩ := seed_extends hseed
        exact ⟨operands, htracked⟩
  | startHook hook =>
      by_cases htriage : hook = .triage
      · subst htriage
        exact s.tracked_triage
      · have hchanges : s.changes (.startHook hook) = [s.growth (s.operate (.startHook hook))] := by
          cases hook <;> first | rfl | exact absurd rfl htriage
        rw [hchanges]
        exact (s.extends_runStartHook htriage).tracked_eq
  | decode pc => exact (extends_of_eq rfl).tracked_eq
  | monitor on => exact (extends_of_eq rfl).tracked_eq
  | move f => exact (extends_of_eq rfl).tracked_eq
  | other f h => exact (extends_of_eq (h s)).tracked_eq

theorem tracked_operateAll (s : Session β) (operations : List (Operation β)) :
    (s.operateAll operations).slice.tracked = s.slice.tracked.changeAll (s.changesAlong operations) := by
  induction operations generalizing s with
  | nil => rfl
  | cons op operations ih =>
      rw [changesAlong, Tracked.changeAll_append, ← tracked_operate]
      exact ih (s.operate op)

/-- Over a recording, a walk meets an instruction in the sessions of its `Course`. -/
theorem Course.meetings_eq {hooks : List Hook} {mode : StepMode} {s t : Session Replay} {outcome : Outcome}
    {visited : List (Session Replay)} (ha : s.Aligned) (h : Course hooks mode s visited t outcome) {fuel : Nat}
    (hfuel : s.backend.position < fuel) : meetings hooks mode fuel s = visited := by
  induction h generalizing fuel with
  | stopped hstop =>
      obtain ⟨fuel, rfl⟩ := Nat.exists_eq_add_of_lt hfuel
      simp [meetings, hstop]
  | last hrun hturn =>
      obtain ⟨fuel, rfl⟩ := Nat.exists_eq_add_of_lt hfuel
      simp [meetings, hrun, turn_of_turn hturn]
  | @onward s u t visited outcome hturn _ ih =>
      have hposition := hturn.position ha
      obtain ⟨fuel, rfl⟩ := Nat.exists_eq_add_of_lt hfuel
      have hbelow : u.backend.position < s.backend.position + fuel := by omega
      rw [meetings, turn_of_turn hturn, ← ih hturn.aligned hbelow]
      simp [hturn.running]

/-- So the changes that it makes (`walkChanges`) are those of the instructions that it looks at. -/
theorem Computes.walkChanges_eq {hooks : List Hook} {mode : StepMode} {s t : Session Replay} {outcome : Outcome}
    {visited : List (Session Replay)} (h : s.Computes hooks mode visited t outcome) :
    s.walkChanges hooks mode = visited.flatMap (meetChanges hooks) := by
  unfold walkChanges
  cases h with
  | idle hempty => simp [hempty]
  | walks hsome hcourse =>
      simp only [hsome, Bool.false_eq_true, if_false, ready_eq]
      exact congrArg _ (hcourse.meetings_eq s.aligned_readied (Nat.lt_succ_self _))

/-- **The tracked operands are an ordered set.** Whatever is done to a session (`Operation`), it tracks no immediate
and no two operands of one place. `insert` adds an operand exactly if it is no immediate and its place is not tracked;
it then appends the operand at the end, and else changes nothing. The places stand in the order in which they were
last inserted. -/
theorem tracked_ordered_set (backend : β) (config : Config) (s : Session β)
    (hstart : Session.start backend config = .ok s) (operations : List (Operation β)) :
    let tracked := (s.operateAll operations).slice.tracked
    (∀ o ∈ tracked.toList, o.isImmediate = false) ∧
      tracked.toList.Pairwise (fun a b => a.same b = false) ∧
      (∀ o, ((tracked.insert o).2 = true ↔ o.isImmediate = false ∧ tracked.contains o = false) ∧
        ((tracked.insert o).2 = true ↔ (tracked.insert o).1.toList = tracked.toList ++ [o]) ∧
        ((tracked.insert o).2 = false ↔ (tracked.insert o).1 = tracked)) ∧
      tracked = ({} : Tracked).changeAll (s.changesAlong operations) ∧
      List.Sublist tracked.places (placesOf (({} : Tracked).history (s.changesAlong operations))).dedup := by
  intro tracked
  have htracked : tracked = ({} : Tracked).changeAll (s.changesAlong operations) := by
    rw [← tracked_start hstart]
    exact s.tracked_operateAll operations
  have hordered : tracked.Ordered (({} : Tracked).history (s.changesAlong operations)) := by
    rw [htracked]
    exact Tracked.ordered_empty.changeAll (s.changesAlong operations)
  refine ⟨tracked.placed, tracked.distinct, fun o => ⟨Tracked.insert_iff, ?_⟩, htracked, hordered⟩
  cases hadded : (tracked.insert o).2 with
  | true =>
      have hinsert := Tracked.toList_insert_of_true hadded
      have hne : (tracked.insert o).1 ≠ tracked := by
        intro heq
        rw [heq] at hinsert
        simp at hinsert
      simp [hinsert, hne]
  | false => simp [Tracked.insert_of_false hadded]

end Session

/-- One move out of a register, and a step after it. -/
def moveAndStand : Replay where
  process := { archName := "i386" }
  arch := .x86
  past := [{ pc := 0x1000, asm := "mov ebx,ecx" }]
  current := { pc := 0x1002, asm := "nop" }
  future := []

/-- Tracks two registers and a part of one, takes the first out and tracks it again, and walks back over the move. -/
def retrack : List (Operation Replay) :=
  [.track "$eax", .track "$ebx", .track "$al", .removeOperand 0, .track "$eax", .compute .run].map (.request [])

theorem Session.tracked_ordered_set_at_move :
    ∃ s, Session.start moveAndStand {} = .ok s ∧
      (s.operateAll retrack).slice.tracked.places = [.group "eax", .group "ecx"] ∧
      placesOf (({} : Tracked).history (s.changesAlong retrack)) =
        [.group "eax", .group "ebx", .group "eax", .group "ecx"] ∧
      (s.operateAll retrack).slice.tracked.toList.Pairwise (fun a b => a.same b = false) :=
  ⟨_, rfl, by decide +kernel, by decide +kernel,
    (Session.tracked_ordered_set moveAndStand {} _ rfl retrack).2.1⟩

end TraceSlice
