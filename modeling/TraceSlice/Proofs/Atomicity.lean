import TraceSlice.Proofs.Insertion
import TraceSlice.Proofs.Request

/-!
# Requests change one thing, or nothing

A request to track, to follow or to remove either fails and leaves the session as it was, or it changes the list that it
names and nothing besides (`requests_atomic`). The operations return the session together with their answer, so what a
failure leaves behind is theirs to say. What an expression names is looked up before any of it is tracked (`resolve`),
and the operands then enter one by one, each counted if `Tracked.insert` says that it entered. So a region of which some
bytes are tracked already gains just the others (`Gains`), as many as were counted (`Tracked.insertAll_snd`), and asking
once more finds all of them there (`Tracked.insertAll_extend`).
-/

namespace TraceSlice

namespace Tracked

variable {tracked : Tracked} {operands : List Operand} {o : Operand}

/-- What is tracked does not enter again: `insert` returns the very set. -/
theorem insert_eq_self (h : ∀ x, o.place? = some x → x ∈ tracked.places) : tracked.insert o = (tracked, false) := by
  have hrefused : (tracked.insert o).2 = false := by
    rw [← Bool.not_eq_true, insert_iff]
    intro hadmits
    obtain ⟨x, hx⟩ := Operand.exists_place hadmits.1
    rw [(contains_iff_of_place hx).mpr (h x hx)] at hadmits
    exact Bool.noConfusion hadmits.2
  exact Prod.ext (insert_of_false hrefused) hrefused

theorem insertAll_eq_self (h : ∀ x ∈ placesOf operands, x ∈ tracked.places) :
    tracked.insertAll operands = (tracked, 0) := by
  induction operands with
  | nil => rfl
  | cons o rest ih =>
      have hinsert : tracked.insert o = (tracked, false) :=
        insert_eq_self fun x hx => h x (mem_placesOf.mpr ⟨o, List.mem_cons_self, hx⟩)
      have hrest : tracked.insertAll rest = (tracked, 0) := ih fun x hx => by
        obtain ⟨other, hother, hplace⟩ := mem_placesOf.mp hx
        exact h x (mem_placesOf.mpr ⟨other, List.mem_cons_of_mem _ hother, hplace⟩)
      rw [insertAll_cons, hinsert, hrest]
      rfl

/-- After `extend` by operands, `insertAll` adds none of them again. -/
theorem insertAll_extend (tracked : Tracked) (operands : List Operand) :
    (tracked.extend operands).insertAll operands = (tracked.extend operands, 0) :=
  insertAll_eq_self fun _ hx => mem_places_extend.mpr (.inr hx)

/-- As many operands are appended as `insertAll` counts. -/
theorem insertAll_snd (tracked : Tracked) (operands : List Operand) :
    (tracked.insertAll operands).2 = (tracked.appending operands).length := by
  have hsize := tracked.size_extend operands
  rw [size, toList_extend, List.length_append] at hsize
  exact (Nat.add_left_cancel hsize).symm

theorem appending_sublist (tracked : Tracked) (operands : List Operand) :
    (tracked.appending operands).Sublist operands := by
  induction operands generalizing tracked with
  | nil => exact .slnil
  | cons first rest ih =>
      rw [appending]
      split
      · exact (ih _).cons_cons first
      · exact (ih _).cons first

/-- What comes after the tracked operands in a list without duplicates is new. -/
theorem contains_eq_false_of_append {grown : Tracked} {added : List Operand}
    (h : grown.toList = tracked.toList ++ added) (ho : o ∈ added) : tracked.contains o = false := by
  have hdistinct := grown.distinct
  rw [h, List.pairwise_append] at hdistinct
  rw [contains, Operand.isIn, List.any_eq_false]
  exact fun other hother => Bool.eq_false_iff.mp (hdistinct.2.2 other hother o ho)

end Tracked

namespace Session

/-! ### Tracking by expression -/

/-- One session differs from another only in that it tracks more: operands that name storage which was not tracked, each
of them different storage, after all others. -/
structure Gains {β : Type} (s t : Session β) (added : List Operand) : Prop where
  eq : t = { s with slice := { s.slice with tracked := t.slice.tracked } }
  toList : t.slice.tracked.toList = s.slice.tracked.toList ++ added
  fresh : ∀ o ∈ added, o.isImmediate = false ∧ s.slice.tracked.contains o = false
  distinct : added.Pairwise fun a b => a.same b = false

theorem gains_addOperands {β : Type} (s : Session β) (operands : List Operand) :
    s.Gains (s.addOperands operands) (s.slice.tracked.appending operands) := by
  have htoList : (s.addOperands operands).slice.tracked.toList = _ := s.slice.tracked.toList_extend operands
  refine ⟨rfl, htoList, fun o ho => ⟨?_, Tracked.contains_eq_false_of_append htoList ho⟩, ?_⟩
  · exact (s.addOperands operands).slice.tracked.placed o (htoList ▸ List.mem_append_right _ ho)
  · have hdistinct := (s.addOperands operands).slice.tracked.distinct
    rw [htoList, List.pairwise_append] at hdistinct
    exact hdistinct.2.1

variable {β : Type} [Backend β] {s t : Session β} {expression : String} {n : Nat}

theorem eq_of_addExpression_error {err : SliceError} (h : s.addExpression expression = (t, .error err)) : t = s := by
  obtain ⟨err', -, hadd⟩ | ⟨operands, -, hadd⟩ := s.addExpression_cases expression
  · exact (Prod.mk.inj (h.symm.trans hadd)).1
  · cases h.symm.trans hadd

theorem addExpression_ok_cases (h : s.addExpression expression = (t, .ok n)) :
    ∃ operands, s.resolve expression = .ok operands ∧ t = s.addOperands (operands.map s.withSymbol) ∧
      n = (s.slice.tracked.appending (operands.map s.withSymbol)).length := by
  obtain ⟨err, -, hadd⟩ | ⟨operands, hresolve, hadd⟩ := s.addExpression_cases expression
  · cases h.symm.trans hadd
  · obtain ⟨hsession, hanswer⟩ := Prod.mk.inj (h.symm.trans hadd)
    exact ⟨operands, hresolve, hsession, (Except.ok.inj hanswer).trans (Tracked.insertAll_snd _ _)⟩

/-- The answer of `addExpression` is the number of operands gained. They are among those that the expression names
(`resolve`), and all of these are tracked from then on. -/
theorem gains_of_addExpression (h : s.addExpression expression = (t, .ok n)) :
    ∃ operands added, s.resolve expression = .ok operands ∧ added.length = n ∧
      added.Sublist (operands.map s.withSymbol) ∧ s.Gains t added ∧
      ∀ x ∈ placesOf operands, x ∈ t.slice.tracked.places := by
  obtain ⟨operands, hresolve, rfl, rfl⟩ := addExpression_ok_cases h
  refine ⟨operands, _, hresolve, rfl, Tracked.appending_sublist _ _, s.gains_addOperands _, fun x hx => ?_⟩
  refine Tracked.mem_places_extend.mpr (.inr ?_)
  rwa [Operand.placesOf_map s.place?_withSymbol]

/-- `addExpression` once more with the same finds all of it tracked. -/
theorem addExpression_again (h : s.addExpression expression = (t, .ok n)) :
    t.addExpression expression = (t, .ok 0) := by
  obtain ⟨operands, hresolve, rfl, -⟩ := addExpression_ok_cases h
  -- what an expression names does not depend on what is tracked
  have hresolve' : (s.addOperands (operands.map s.withSymbol)).resolve expression = .ok operands := hresolve
  have hagain : (s.addOperands (operands.map s.withSymbol)).slice.tracked.insertAll (operands.map s.withSymbol) =
      ((s.addOperands (operands.map s.withSymbol)).slice.tracked, 0) := Tracked.insertAll_extend _ _
  unfold addExpression
  rw [hresolve']
  dsimp only
  rw [show (s.addOperands (operands.map s.withSymbol)).withSymbol = s.withSymbol from rfl, hagain]

end Session

/-! ### Requests by index -/

/-- An operation on what stands at an index of a list fails exactly if the list is too short, with the given cause, and
then returns the state that it was given. -/
structure Bounded {σ α : Type} (before : σ) (result : σ × Except SliceError α) (length index : Nat)
    (cause : SliceError) : Prop where
  fails_iff : ∀ err, result.2 = .error err ↔ length ≤ index ∧ err = cause
  unchanged : length ≤ index → result.1 = before

theorem Bounded.eq_of_error {σ α : Type} {before : σ} {result : σ × Except SliceError α} {length index : Nat}
    {cause err : SliceError} (h : Bounded before result length index cause) (herr : result.2 = .error err) :
    result.1 = before :=
  h.unchanged ((h.fails_iff err).mp herr).1

/-- An operation that looks an index up in a list, and fails if nothing is there, is `Bounded`. -/
theorem bounded_of_lookup {σ α γ : Type} {before : σ} {result : σ × Except SliceError α} {list : List γ} {index : Nat}
    {cause : SliceError} (hmissing : list[index]? = none → result = (before, .error cause))
    (hfound : ∀ x, list[index]? = some x → ∃ after answer, result = (after, .ok answer)) :
    Bounded before result list.length index cause := by
  constructor
  · intro err
    rw [← List.getElem?_eq_none_iff]
    cases h : list[index]? with
    | none => simp [hmissing h, eq_comm]
    | some x =>
        obtain ⟨after, answer, hresult⟩ := hfound x h
        simp [hresult]
  · intro hlength
    rw [hmissing (List.getElem?_eq_none_iff.mpr hlength)]

namespace Slice

variable (slice : Slice) (index : Nat)

theorem bounded_removeOperand : Bounded slice (slice.removeOperand index) slice.tracked.size index
    (.invalidOperandIndex index slice.tracked.size) :=
  bounded_of_lookup (fun h => by rw [removeOperand, Tracked.get?, h])
    (fun _ h => by simp [removeOperand, Tracked.get?, h])

theorem bounded_setFollowed : Bounded slice (slice.setFollowed (some index)) slice.tracked.size index
    (.invalidOperandIndex index slice.tracked.size) :=
  bounded_of_lookup (fun h => by rw [setFollowed, Tracked.get?, h])
    (fun _ h => by simp [setFollowed, Tracked.get?, h])

theorem bounded_removeInstruction :
    Bounded slice (slice.removeInstruction index) slice.instructions.length index
      (.invalidInstructionIndex index slice.instructions.length) :=
  bounded_of_lookup (fun h => by rw [removeInstruction, h]) (fun _ h => by simp [removeInstruction, h])

end Slice

/-- Does the request leave the backend where it is? The others are a step back and a walk. -/
def Request.isEdit : Request → Bool
  | .back | .compute _ => false
  | _ => true

namespace Session

variable {β : Type} [Backend β]

/-- A request that fails and `isEdit` leaves the session as it was. -/
theorem perform_of_error {hooks : List Hook} {s t : Session β} {request : Request} {err : SliceError}
    (hedit : request.isEdit = true) (h : s.perform hooks request = (t, .error err)) : t = s := by
  have hanswer {α γ : Type} {f : α → γ} {answer : Except SliceError α} (h : answer.map f = .error err) :
      answer = .error err := by
    cases answer <;> cases h
    rfl
  obtain ⟨rfl, herror⟩ := Prod.mk.inj h.symm
  have herror := herror.symm
  cases request with
  | back => cases hedit
  | compute mode => cases hedit
  | stop => cases herror
  | track expression => exact eq_of_addExpression_error (Prod.ext rfl (hanswer herror))
  | current =>
      have hfails : s.addCurrentInstruction.2 = .error err := hanswer herror
      show s.addCurrentInstruction.1 = s
      obtain ⟨err', -, hadd⟩ | ⟨pc, -, hadd⟩ := s.addCurrentInstruction_cases
      · rw [hadd]
      · rw [hadd] at hfails
        cases hfails
  | removeOperand index =>
      have hslice := (s.slice.bounded_removeOperand index).eq_of_error (hanswer herror)
      exact congrArg (fun slice => { s with slice }) hslice
  | removeInstruction index =>
      have hslice := (s.slice.bounded_removeInstruction index).eq_of_error (hanswer herror)
      exact congrArg (fun slice => { s with slice }) hslice
  | follow index =>
      cases index with
      | none => cases herror
      | some index =>
          have hslice := (s.slice.bounded_setFollowed index).eq_of_error (hanswer herror)
          exact congrArg (fun slice => { s with slice }) hslice

/-- **Requests change one thing, or nothing.** A request to track, to add the current instruction, to remove or to
follow that fails leaves the whole session as it was. Tracking that answers `n` has appended exactly `n` operands to
the tracked ones, all of them new and named by the expression, whose storage is all tracked now; it has changed
nothing else, and asking again answers zero and changes nothing. Removing an operand, following one and removing an
instruction fail exactly if nothing stands at the index, and then return the slice as it was. Otherwise they change
the list, or the followed operand, and nothing else; an operand that is removed is no longer followed, and its storage
is the only one that is no longer tracked. -/
theorem requests_atomic (hooks : List Hook) (s : Session β) :
    (∀ request t err, request.isEdit = true → s.perform hooks request = (t, .error err) → t = s) ∧
    (∀ expression t err, s.addExpression expression = (t, .error err) → t = s) ∧
    (∀ expression t n, s.addExpression expression = (t, .ok n) →
      (∃ operands added, s.resolve expression = .ok operands ∧ added.length = n ∧
        added.Sublist (operands.map s.withSymbol) ∧ s.Gains t added ∧
        ∀ x ∈ placesOf operands, x ∈ t.slice.tracked.places) ∧
      t.addExpression expression = (t, .ok 0)) ∧
    (∀ index,
      Bounded s.slice (s.slice.removeOperand index) s.slice.tracked.size index
        (.invalidOperandIndex index s.slice.tracked.size) ∧
      ∀ o, s.slice.tracked.get? index = some o →
        s.slice.removeOperand index =
          ({ s.slice with
              tracked := s.slice.tracked.eraseIdx index
              followed := if s.slice.isFollowed o then none else s.slice.followed }, .ok o) ∧
        ∀ x, x ∈ (s.slice.tracked.eraseIdx index).places ↔ x ∈ s.slice.tracked.places ∧ o.place? ≠ some x) ∧
    (∀ index,
      Bounded s.slice (s.slice.setFollowed (some index)) s.slice.tracked.size index
        (.invalidOperandIndex index s.slice.tracked.size) ∧
      ∀ o, s.slice.tracked.get? index = some o →
        s.slice.setFollowed (some index) = ({ s.slice with followed := some o }, .ok ())) ∧
    s.slice.setFollowed none = ({ s.slice with followed := none }, .ok ()) ∧
    ∀ index,
      Bounded s.slice (s.slice.removeInstruction index) s.slice.instructions.length index
        (.invalidInstructionIndex index s.slice.instructions.length) ∧
      ∀ insn, s.slice.instructions[index]? = some insn →
        s.slice.removeInstruction index =
          ({ s.slice with instructions := s.slice.instructions.eraseIdx index }, .ok insn) := by
  refine ⟨fun _ _ _ => perform_of_error, fun _ _ _ => eq_of_addExpression_error, fun _ _ _ h => ?_,
    fun index => ⟨s.slice.bounded_removeOperand index, fun o ho => ⟨?_, fun x => Tracked.mem_places_eraseIdx ho⟩⟩,
    fun index => ⟨s.slice.bounded_setFollowed index, fun o ho => ?_⟩, rfl,
    fun index => ⟨s.slice.bounded_removeInstruction index, fun insn hinsn => ?_⟩⟩
  · exact ⟨gains_of_addExpression h, addExpression_again h⟩
  · rw [Slice.removeOperand, ho]
  · rw [Slice.setFollowed, ho]
  · rw [Slice.removeInstruction, hinsn]

end Session

/-- One step, and four bytes below the frame pointer that are known. -/
def knownFrame : Recording where
  archName := "i386"
  memory := [(0xf0, 1), (0xf1, 2), (0xf2, 3), (0xf3, 4)]
  steps := [{ pc := 0x1000, asm := "nop", registers := .ofList [("ebp", 0x100)] }]

/-- Of four bytes one is tracked and followed, so that three are gained. A register that does not exist, a byte that is
not known and an operand past the end are refused. -/
theorem Session.requests_atomic_at_known_frame :
    ∃ start ∈ Session.ofRecording? knownFrame {},
      let s := start.serveAll [.track "0xf1", .follow (some 0)]
      s.slice.tracked.size = 1 ∧
      (∃ t, s.addExpression "DWORD PTR [ebp-0x10]" = (t, .ok 3) ∧ (∃ added, added.length = 3 ∧ s.Gains t added) ∧
        t.addExpression "DWORD PTR [ebp-0x10]" = (t, .ok 0)) ∧
      (∀ expression ∈ ["$notareg", "0x5000", "DWORD PTR fs:[ebp]"],
        ∃ err, s.addExpression expression = (s, .error err)) ∧
      s.perform [] (.removeOperand 1) = (s, .error (.invalidOperandIndex 1 1)) ∧
      ∃ o, s.slice.removeOperand 0 = ({ s.slice with tracked := {}, followed := none }, .ok o) := by
  have hready : ∃ start ∈ Session.ofRecording? knownFrame {},
      let s := start.serveAll [.track "0xf1", .follow (some 0)]
      s.slice.tracked.size = 1 ∧
        (s.addExpression "DWORD PTR [ebp-0x10]").2.toOption = some 3 ∧
        (["$notareg", "0x5000", "DWORD PTR fs:[ebp]"].all fun expression =>
          (s.addExpression expression).2.toOption.isNone) = true ∧
        s.slice.tracked.eraseIdx 0 = {} ∧ ∃ o ∈ s.slice.tracked.get? 0, s.slice.isFollowed o = true := by
    decide +kernel
  obtain ⟨start, hstart, hsize, hthree, hrefused, hlast, o, ho, hfollowed⟩ := hready
  refine ⟨start, hstart, ?_⟩
  generalize start.serveAll [.track "0xf1", .follow (some 0)] = s at *
  obtain ⟨hfailed, hunchanged, hgained, hremoved, -⟩ := requests_atomic [] s
  refine ⟨hsize, ?_, fun expression hmem => ?_, ?_, o, ?_⟩
  · have hadd : s.addExpression "DWORD PTR [ebp-0x10]" = (_, .ok 3) :=
      Prod.ext rfl (Except.eq_ok_of_mem_toOption hthree)
    obtain ⟨⟨operands, added, -, hcount, -, hgains, -⟩, hagain⟩ := hgained _ _ _ hadd
    exact ⟨_, hadd, ⟨added, hcount, hgains⟩, hagain⟩
  · have hnone := List.all_eq_true.mp hrefused expression hmem
    cases hanswer : (s.addExpression expression).2 with
    | error err =>
        have hadd : s.addExpression expression = ((s.addExpression expression).1, .error err) := Prod.ext rfl hanswer
        exact ⟨err, Prod.ext (hunchanged _ _ _ hadd) hanswer⟩
    | ok n =>
        rw [hanswer] at hnone
        cases hnone
  · have hfails := ((hremoved 1).1.fails_iff _).mpr ⟨Nat.le_of_eq hsize, rfl⟩
    rw [hsize] at hfails
    have hreply : (s.perform [] (.removeOperand 1)).2 = .error (.invalidOperandIndex 1 1) :=
      congrArg (Except.map Reply.removed) hfails
    exact Prod.ext (hfailed _ _ _ rfl (Prod.ext rfl hreply)) hreply
  · rw [((hremoved 0).2 o ho).1, hlast, hfollowed]
    rfl

end TraceSlice
