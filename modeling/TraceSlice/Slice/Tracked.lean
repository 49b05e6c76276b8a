import TraceSlice.Operand

/-!
# Tracked operands

The operands that are being traced back, in the order in which they came. A `Tracked` is a set of places: it carries
the proofs that none of its operands is an immediate (`Tracked.placed`) and that no two of them are the same
(`Tracked.distinct`), so every operation below has to keep this. `Tracked.insert` refuses what would break it, and
answers whether it added the operand; operands that are tracked may be relabeled, but not moved (`Relabeling`).
-/

namespace TraceSlice

/-- A change of an operand that leaves it where it is, such as one of its `symbol` or its `hook`. -/
structure Relabeling where
  /-- The change. -/
  apply : Operand → Operand
  /-- It does not move the operand. -/
  location_apply (operand : Operand) : (apply operand).location = operand.location

theorem Relabeling.place?_apply (label : Relabeling) (operand : Operand) :
    (label.apply operand).place? = operand.place? := by
  rw [Operand.place?, label.location_apply, Operand.place?]

theorem Tracked.placed_nil : ∀ operand ∈ ([] : List Operand), operand.isImmediate = false :=
  fun _ h => absurd h List.not_mem_nil

theorem Tracked.distinct_nil : ([] : List Operand).Pairwise fun a b => a.same b = false := List.Pairwise.nil

/-- The operands being traced back: a list of operands without repeated places, and the proofs that it is one. -/
structure Tracked where
  /-- The operands in the order of their arrival. -/
  toList : List Operand := []
  /-- None of them is an immediate. -/
  placed : ∀ operand ∈ toList, operand.isImmediate = false := by exact Tracked.placed_nil
  /-- No two of them are the same. -/
  distinct : toList.Pairwise fun a b => a.same b = false := by exact Tracked.distinct_nil
deriving DecidableEq, Repr

namespace Tracked

@[ext] theorem ext {a b : Tracked} (h : a.toList = b.toList) : a = b := by
  cases a
  cases b
  simp_all

/-! ### Views -/

/-- Is an operand of the same storage tracked? -/
def contains (tracked : Tracked) (operand : Operand) : Bool := operand.isIn tracked.toList

/-- The operand at an index. -/
def get? (tracked : Tracked) (index : Nat) : Option Operand := tracked.toList[index]?

/-- How many operands are tracked. -/
def size (tracked : Tracked) : Nat := tracked.toList.length

/-- Is nothing tracked? -/
def isEmpty (tracked : Tracked) : Bool := tracked.toList.isEmpty

/-- The storage that is tracked; by `distinct`, each place once. -/
def places (tracked : Tracked) : List Place := tracked.toList.filterMap Operand.place?

/-! ### Building -/

/-- Appends an operand that is new; `insert` makes sure that it is. -/
def push (tracked : Tracked) (operand : Operand) (hplaced : operand.isImmediate = false)
    (hnew : tracked.contains operand = false) : Tracked where
  toList := tracked.toList ++ [operand]
  placed other hother := by
    obtain hother | hother := List.mem_append.mp hother
    · exact tracked.placed other hother
    · rwa [List.mem_singleton.mp hother]
  distinct := by
    refine List.pairwise_append.mpr ⟨tracked.distinct, List.pairwise_singleton _ _, fun a ha b hb => ?_⟩
    rw [List.mem_singleton.mp hb, ← Bool.not_eq_true]
    intro hsame
    exact Bool.eq_false_iff.mp hnew (List.any_eq_true.mpr ⟨a, ha, hsame⟩)

/-- Keeps some of the operands, in their order: `eraseIdx` and `retain` are instances. -/
def restrict (tracked : Tracked) (kept : List Operand) (h : kept.Sublist tracked.toList) : Tracked where
  toList := kept
  placed operand hoperand := tracked.placed operand (h.subset hoperand)
  distinct := tracked.distinct.sublist h

/-- Replaces the operands by others at the same places: `map` and `modify` are instances. -/
def replace (tracked : Tracked) (moved : List Operand)
    (h : moved.map Operand.place? = tracked.toList.map Operand.place?) : Tracked where
  toList := moved
  placed operand hoperand := by
    have hmem : operand.place? ∈ tracked.toList.map Operand.place? := h ▸ List.mem_map_of_mem hoperand
    obtain ⟨other, hother, hplace⟩ := List.mem_map.mp hmem
    rw [Operand.isImmediate, ← hplace]
    exact tracked.placed other hother
  distinct := by
    -- whether two operands are the same depends on their places only
    let differ : Option Place → Option Place → Prop := fun p q => ∀ x, ¬(p = some x ∧ q = some x)
    have hdiffer : ∀ {operands : List Operand},
        (operands.Pairwise fun a b => a.same b = false) ↔ (operands.map Operand.place?).Pairwise differ := by
      intro operands
      rw [List.pairwise_map]
      refine ⟨fun hall => hall.imp fun {a b} hab => ?_, fun hall => hall.imp fun {a b} hab => ?_⟩
      · intro x hx
        exact Bool.eq_false_iff.mp hab (Operand.same_iff.mpr ⟨x, hx⟩)
      · rw [← Bool.not_eq_true, Operand.same_iff]
        exact fun ⟨x, hx⟩ => hab x hx
    rw [hdiffer, h, ← hdiffer]
    exact tracked.distinct

/-! ### Operations -/

/-- Adds an operand at the end, and answers whether it was added. Immediates and storage that is tracked already are
not. -/
def insert (tracked : Tracked) (operand : Operand) : Tracked × Bool :=
  if h : operand.isImmediate = false ∧ tracked.contains operand = false then
    (tracked.push operand h.1 h.2, true)
  else (tracked, false)

/-- Adds operands one after the other by `insert`. -/
def extend (tracked : Tracked) (operands : List Operand) : Tracked :=
  operands.foldl (fun tracked operand => (tracked.insert operand).1) tracked

/-- Adds operands one after the other, and counts those that `insert` answers to have added. -/
def insertAll (tracked : Tracked) : List Operand → Tracked × Nat
  | [] => (tracked, 0)
  | operand :: rest =>
    let (grown, added) := tracked.insert operand
    let (all, count) := grown.insertAll rest
    (all, count + added.toNat)

/-- Takes out the operand at an index. -/
def eraseIdx (tracked : Tracked) (index : Nat) : Tracked :=
  tracked.restrict (tracked.toList.eraseIdx index) (List.eraseIdx_sublist ..)

/-- Keeps the operands that satisfy `keep`. -/
def retain (tracked : Tracked) (keep : Operand → Bool) : Tracked :=
  tracked.restrict (tracked.toList.filter keep) List.filter_sublist

theorem map_place?_map (tracked : Tracked) (label : Relabeling) :
    (tracked.toList.map label.apply).map Operand.place? = tracked.toList.map Operand.place? := by
  simp [label.place?_apply]

/-- Relabels every operand; the proof that `label` moves none is in the `Relabeling`. -/
def map (tracked : Tracked) (label : Relabeling) : Tracked :=
  tracked.replace (tracked.toList.map label.apply) (tracked.map_place?_map label)

theorem map_place?_modify (tracked : Tracked) (index : Nat) (label : Relabeling) :
    (tracked.toList.modify index label.apply).map Operand.place? = tracked.toList.map Operand.place? := by
  refine List.ext_getElem? fun i => ?_
  simp only [List.getElem?_map, List.getElem?_modify]
  split <;> simp [Function.comp_def, label.place?_apply]

/-- Relabels the operand at an index. -/
def modify (tracked : Tracked) (index : Nat) (label : Relabeling) : Tracked :=
  tracked.replace (tracked.toList.modify index label.apply) (tracked.map_place?_modify index label)

/-! ### Small lemmas -/

section

variable {tracked : Tracked} {operand : Operand}

/-- `insert` adds an operand exactly if it is no immediate and its storage is not tracked. -/
theorem insert_iff :
    (tracked.insert operand).2 = true ↔ operand.isImmediate = false ∧ tracked.contains operand = false := by
  unfold insert
  split <;> simp_all

theorem toList_insert_of_true (h : (tracked.insert operand).2 = true) :
    (tracked.insert operand).1.toList = tracked.toList ++ [operand] := by
  rw [insert, dif_pos (insert_iff.mp h)]
  rfl

theorem insert_of_false (h : (tracked.insert operand).2 = false) : (tracked.insert operand).1 = tracked := by
  rw [insert, dif_neg (mt insert_iff.mpr (Bool.eq_false_iff.mp h))]

end

@[simp] theorem extend_nil (tracked : Tracked) : tracked.extend [] = tracked := rfl

@[simp] theorem extend_cons (tracked : Tracked) (operand : Operand) (operands : List Operand) :
    tracked.extend (operand :: operands) = (tracked.insert operand).1.extend operands := rfl

theorem insertAll_cons (tracked : Tracked) (operand : Operand) (operands : List Operand) :
    tracked.insertAll (operand :: operands) =
      (((tracked.insert operand).1.insertAll operands).1,
        ((tracked.insert operand).1.insertAll operands).2 + (tracked.insert operand).2.toNat) := rfl

/-- Counting changes nothing about what is added: the list of `insertAll` is that of `extend`. -/
@[simp] theorem insertAll_fst (tracked : Tracked) (operands : List Operand) :
    (tracked.insertAll operands).1 = tracked.extend operands := by
  induction operands generalizing tracked with
  | nil => rfl
  | cons operand operands ih => rw [insertAll_cons, extend_cons, ih]

/-- What `insertAll` counts is by how much the list grows. -/
theorem size_extend (tracked : Tracked) (operands : List Operand) :
    (tracked.extend operands).size = tracked.size + (tracked.insertAll operands).2 := by
  induction operands generalizing tracked with
  | nil => rfl
  | cons operand operands ih =>
    rw [insertAll_cons, extend_cons, ih]
    cases h : (tracked.insert operand).2 with
    | true =>
      rw [size, toList_insert_of_true h, size, List.length_append]
      exact Nat.add_right_comm ..
    | false => rw [insert_of_false h, Bool.toNat_false, Nat.add_zero]

end Tracked

end TraceSlice
