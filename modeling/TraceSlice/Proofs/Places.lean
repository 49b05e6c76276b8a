import TraceSlice.Slice.Tracked

/-!
# The places of operands

Operands are the same exactly if they name one place (`Operand.same_iff`), so what is tracked, written or read is a
question about places. This module reads the operations on lists of operands (`isIn`) and on tracked operands
(`insert`, `extend`, `retain`, `eraseIdx`) as operations on the places that they name, and says which operands can come
out of them.
-/

namespace TraceSlice

/-- The places that a list of operands names. Immediates name none. -/
def placesOf (operands : List Operand) : List Place := operands.filterMap Operand.place?

theorem mem_placesOf {operands : List Operand} {x : Place} :
    x ∈ placesOf operands ↔ ∃ o ∈ operands, o.place? = some x :=
  List.mem_filterMap

namespace Operand

/-- Changing operands without moving them keeps the places. -/
theorem placesOf_map {f : Operand → Operand} (hf : ∀ o, (f o).place? = o.place?)
    (operands : List Operand) : placesOf (operands.map f) = placesOf operands := by
  have hcomp : place? ∘ f = place? := funext hf
  rw [placesOf, placesOf, List.filterMap_map, hcomp]

/-- `isIn`: an operand is in a list exactly if it has a place and the list names it. -/
theorem isIn_iff {o : Operand} {operands : List Operand} :
    o.isIn operands = true ↔ ∃ x, o.place? = some x ∧ x ∈ placesOf operands := by
  unfold isIn
  rw [List.any_eq_true]
  constructor
  · intro hmem
    obtain ⟨other, hmem, hsame⟩ := hmem
    obtain ⟨x, hother, ho⟩ := same_iff.mp hsame
    exact ⟨x, ho, mem_placesOf.mpr ⟨other, hmem, hother⟩⟩
  · intro hmem
    obtain ⟨x, ho, hx⟩ := hmem
    obtain ⟨other, hmem, hother⟩ := mem_placesOf.mp hx
    exact ⟨other, hmem, same_iff.mpr ⟨x, hother, ho⟩⟩

/-- Of an operand with a known place, the place decides. -/
theorem isIn_iff_of_place {o : Operand} {operands : List Operand} {x : Place}
    (h : o.place? = some x) : o.isIn operands = true ↔ x ∈ placesOf operands := by
  rw [isIn_iff]
  constructor
  · intro hmem
    obtain ⟨y, hy, hmem⟩ := hmem
    rw [h] at hy
    cases hy
    exact hmem
  · intro hmem
    exact ⟨x, h, hmem⟩

/-- An operand that is no immediate has a place. -/
theorem exists_place {o : Operand} (h : o.isImmediate = false) : ∃ x, o.place? = some x := by
  unfold isImmediate at h
  cases hp : o.place? with
  | none => simp [hp] at h
  | some x => exact ⟨x, rfl⟩

/-- Only registers are known by a register group (`Place.group`). -/
theorem register?_of_place_group {o : Operand} {name : String}
    (h : o.place? = some (.group name)) :
    ∃ r, o.register? = some r ∧ r.group.canonical = name := by
  unfold place? at h
  unfold register?
  cases hl : o.location with
  | register r =>
      rw [hl] at h
      simp only [Location.place?, Option.some.injEq, Place.group.injEq] at h
      exact ⟨r, rfl, h⟩
  | memory a => simp [hl, Location.place?] at h
  | immediate => simp [hl, Location.place?] at h

/-- A register is known by its group. -/
theorem place?_of_register? {o : Operand} {r : Register} (h : o.register? = some r) :
    o.place? = some (.group r.group.canonical) := by
  unfold register? at h
  unfold place?
  cases hl : o.location with
  | register r' =>
      rw [hl] at h
      simp only [Option.some.injEq] at h
      rw [Location.place?, h]
  | memory a => simp [hl] at h
  | immediate => simp [hl] at h

/-- Only memory is known by an address (`Place.byte`). -/
theorem isMemory_of_place_byte {o : Operand} {address : Word} (h : o.place? = some (.byte address)) :
    o.isMemory = true := by
  unfold place? at h
  unfold isMemory address?
  cases hl : o.location with
  | memory a => rfl
  | register r => simp [hl, Location.place?] at h
  | immediate => simp [hl, Location.place?] at h

end Operand

namespace Tracked

/-- An operand counts as tracked (`contains`) exactly if its place is tracked. -/
theorem contains_iff {tracked : Tracked} {o : Operand} :
    tracked.contains o = true ↔ ∃ x, o.place? = some x ∧ x ∈ tracked.places :=
  Operand.isIn_iff

theorem contains_iff_of_place {tracked : Tracked} {o : Operand} {x : Place}
    (h : o.place? = some x) : tracked.contains o = true ↔ x ∈ tracked.places :=
  Operand.isIn_iff_of_place h

/-- What is in the list counts as tracked, for it has a place. -/
theorem contains_of_mem {tracked : Tracked} {o : Operand} (h : o ∈ tracked.toList) : tracked.contains o = true := by
  obtain ⟨x, hx⟩ := Operand.exists_place (tracked.placed o h)
  exact (contains_iff_of_place hx).mpr (List.mem_filterMap.mpr ⟨o, h, hx⟩)

/-! ### Insertion -/

/-- `insert` tracks the place of its operand and no other. -/
theorem mem_places_insert {tracked : Tracked} {o : Operand} {x : Place} :
    x ∈ (tracked.insert o).1.places ↔ x ∈ tracked.places ∨ o.place? = some x := by
  cases h : (tracked.insert o).2 with
  | true =>
      unfold Tracked.places
      rw [toList_insert_of_true h, List.filterMap_append, List.mem_append]
      simp
  | false =>
      rw [insert_of_false h]
      refine ⟨Or.inl, ?_⟩
      intro hmem
      rcases hmem with hx | hx
      · exact hx
      · -- the operand has a place, so it was refused because that place is tracked
        have hcontains : tracked.contains o = true := by
          have hrefused := mt insert_iff.mpr (Bool.eq_false_iff.mp h)
          simpa [Operand.isImmediate, hx] using hrefused
        exact (contains_iff_of_place hx).mp hcontains

theorem mem_places_extend {tracked : Tracked} {operands : List Operand} {x : Place} :
    x ∈ (tracked.extend operands).places ↔ x ∈ tracked.places ∨ x ∈ placesOf operands := by
  induction operands generalizing tracked with
  | nil => simp [placesOf]
  | cons o rest ih =>
      rw [extend_cons, ih, mem_places_insert, or_assoc]
      simp [mem_placesOf]

/-- What is tracked stays so under `extend`. -/
theorem contains_extend {tracked : Tracked} {operands : List Operand} {o : Operand}
    (h : tracked.contains o = true) : (tracked.extend operands).contains o = true := by
  obtain ⟨x, hx, hmem⟩ := contains_iff.mp h
  exact (contains_iff_of_place hx).mpr (mem_places_extend.mpr (.inl hmem))

/-- An operand that is tracked after `insert` was tracked before, or is the inserted one and no immediate. -/
theorem mem_toList_insert {tracked : Tracked} {o other : Operand}
    (h : other ∈ (tracked.insert o).1.toList) :
    other ∈ tracked.toList ∨ (other = o ∧ o.isImmediate = false) := by
  cases hadded : (tracked.insert o).2 with
  | true =>
      rw [toList_insert_of_true hadded, List.mem_append, List.mem_singleton] at h
      exact h.imp_right fun heq => ⟨heq, (insert_iff.mp hadded).1⟩
  | false =>
      rw [insert_of_false hadded] at h
      exact Or.inl h

theorem mem_toList_extend {tracked : Tracked} {operands : List Operand} {other : Operand}
    (h : other ∈ (tracked.extend operands).toList) :
    other ∈ tracked.toList ∨ (other ∈ operands ∧ other.isImmediate = false) := by
  induction operands generalizing tracked with
  | nil => exact Or.inl h
  | cons o rest ih =>
      rw [extend_cons] at h
      rcases ih h with h | ⟨h, hplaced⟩
      · rcases mem_toList_insert h with h | ⟨rfl, hplaced⟩
        · exact Or.inl h
        · exact Or.inr ⟨List.mem_cons_self, hplaced⟩
      · exact Or.inr ⟨List.mem_cons_of_mem _ h, hplaced⟩

/-! ### Removal -/

/-- `retain` that drops every operand in one of two lists drops exactly the places of the two. -/
theorem mem_places_retain {tracked : Tracked} {dropped read : List Operand} {x : Place} :
    x ∈ (tracked.retain fun o => !o.isIn dropped && !o.isIn read).places ↔
      x ∈ tracked.places ∧ x ∉ placesOf dropped ∧ x ∉ placesOf read := by
  have hkeep : ∀ o : Operand, o.place? = some x →
      ((!o.isIn dropped && !o.isIn read) = true ↔ x ∉ placesOf dropped ∧ x ∉ placesOf read) := by
    intro o ho
    rw [← Operand.isIn_iff_of_place ho, ← Operand.isIn_iff_of_place ho]
    simp
  unfold Tracked.places retain restrict
  rw [List.mem_filterMap, List.mem_filterMap]
  constructor
  · intro hmem
    obtain ⟨o, hmem, ho⟩ := hmem
    obtain ⟨hmem, hk⟩ := List.mem_filter.mp hmem
    exact ⟨⟨o, hmem, ho⟩, (hkeep o ho).mp hk⟩
  · intro hmem
    obtain ⟨⟨o, hmem, ho⟩, hout⟩ := hmem
    exact ⟨o, List.mem_filter.mpr ⟨hmem, (hkeep o ho).mpr hout⟩, ho⟩

/-- Without the operand at an index, just its storage is no longer among the `places`. -/
theorem mem_places_eraseIdx {tracked : Tracked} {index : Nat} {o : Operand} {x : Place}
    (h : tracked.get? index = some o) :
    x ∈ (tracked.eraseIdx index).places ↔ x ∈ tracked.places ∧ o.place? ≠ some x := by
  obtain ⟨before, after, hsplit, herased⟩ : ∃ before after, tracked.toList = before ++ o :: after ∧
      (tracked.eraseIdx index).toList = before ++ after := by
    obtain ⟨hindex, hget⟩ := List.getElem?_eq_some_iff.mp h
    refine ⟨tracked.toList.take index, tracked.toList.drop (index + 1), ?_, List.eraseIdx_eq_take_drop_succ ..⟩
    rw [← hget, List.getElem_cons_drop, List.take_append_drop]
  have hdistinct := tracked.distinct
  rw [hsplit, List.pairwise_append, List.pairwise_cons] at hdistinct
  -- no other operand has the storage of this one
  have hother : ∀ other ∈ before ++ after, other.place? = some x → o.place? ≠ some x := by
    intro other hmem hplace ho
    obtain hmem | hmem := List.mem_append.mp hmem
    · have hdiffer := hdistinct.2.2 other hmem o List.mem_cons_self
      exact Bool.eq_false_iff.mp hdiffer (Operand.same_iff.mpr ⟨x, hplace, ho⟩)
    · have hdiffer := hdistinct.2.1.1 other hmem
      exact Bool.eq_false_iff.mp hdiffer (Operand.same_iff.mpr ⟨x, ho, hplace⟩)
  rw [places, places, hsplit, herased, List.mem_filterMap, List.mem_filterMap]
  constructor
  · rintro ⟨other, hmem, hplace⟩
    refine ⟨⟨other, ?_, hplace⟩, hother other hmem hplace⟩
    exact (List.Sublist.append_left (List.sublist_cons_self o after) before).subset hmem
  · rintro ⟨⟨other, hmem, hplace⟩, hne⟩
    obtain hmem | hmem := List.mem_append.mp hmem
    · exact ⟨other, List.mem_append_left _ hmem, hplace⟩
    · obtain rfl | hmem := List.mem_cons.mp hmem
      · exact absurd hplace hne
      · exact ⟨other, List.mem_append_right _ hmem, hplace⟩

theorem isEmpty_iff {tracked : Tracked} : tracked.isEmpty = true ↔ tracked.toList = [] :=
  List.isEmpty_iff

/-- Nothing is tracked exactly if no place is, since every tracked operand has one. -/
theorem isEmpty_iff_places {tracked : Tracked} : tracked.isEmpty = true ↔ ∀ x, x ∉ tracked.places := by
  rw [isEmpty_iff]
  constructor
  · intro hnil x hx
    obtain ⟨o, hmem, -⟩ := List.mem_filterMap.mp hx
    rw [hnil] at hmem
    exact absurd hmem List.not_mem_nil
  · intro hnone
    rw [List.eq_nil_iff_forall_not_mem]
    intro o hmem
    obtain ⟨x, hx⟩ := Operand.exists_place (tracked.placed o hmem)
    exact hnone x (List.mem_filterMap.mpr ⟨o, hmem, hx⟩)

end Tracked

end TraceSlice
