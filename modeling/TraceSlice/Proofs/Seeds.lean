import Mathlib.Data.List.Sort
import TraceSlice.Proofs.Contribution
import TraceSlice.Proofs.Exactness
import TraceSlice.Proofs.Exhaustion

/-!
# Slices of several seeds

What a walk finds when it starts from given operands, the seeds (`Finds`), and how that depends on them. The walk
itself mixes them up: an instruction that is matched for one seed takes out and puts back operands that are there for
another, and the walk ends only when the last of them is gone. Still, what it finds is the closure `Sliced` of the
seeds (`Computes.mem_found_iff`), and a closure under a rule with one premise is the union of the closures of its
parts. So the slice of some seeds is the union of the slices of each, and their order does not matter
(`compute_run_additive`).
-/

namespace TraceSlice

namespace Session

variable {s t : Session Replay} {visited : List (Session Replay)} {outcome : Outcome} {seeds : List Operand}
  {p : Nat} {x : Place}

/-! ### What a walk finds -/

/-- The positions that a walk slices (`matters`), among those that it looks at. -/
def found (visited : List (Session Replay)) : List Nat :=
  (visited.filter matters).map fun v => v.backend.position

theorem mem_found : p ∈ found visited ↔ ∃ v ∈ visited, v.matters = true ∧ v.backend.position = p := by
  simp [found, and_assoc]

theorem Computes.pairwise_found {hooks : List Hook} {mode : StepMode}
    (h : s.Computes hooks mode visited t outcome) : (found visited).Pairwise (· > ·) :=
  List.pairwise_map.mpr (h.positions.1.filter _)

theorem HookFree.instructions_found {mode : StepMode} (hfree : s.HookFree)
    (h : s.Computes [] mode visited t outcome) :
    t.slice.instructions = s.slice.instructions ++ (found visited).map s.locatedAt := by
  rw [hfree.instructions_computes h, found, List.map_map]
  refine congrArg (s.slice.instructions ++ ·) (List.map_congr_left fun v hv => ?_)
  cases h with
  | idle => cases hv
  | walks _ hcourse =>
      exact (hcourse.stands s.stands_readied v (List.mem_of_mem_filter hv)).abreast.locatedAt

/-! ### What there is to find -/

theorem Tracing.matters_iff (h : s.Tracing p t) : t.matters = true ↔ s.Sliced p :=
  (meet_relevant_iff []).trans h.written_iff

/-- Every walk that runs on finds just what is `Sliced` down to where it ends. -/
theorem Computes.mem_found_iff (hfree : s.HookFree) (hclean : s.Clean) (h : s.Computes [] .run visited t outcome) :
    ∃ n, s.Settles n t ∧ ∀ p, p ∈ found visited ↔ s.Sliced p ∧ n ≤ p := by
  obtain ⟨n, hsettles, htracing, hall⟩ := h.settles hfree hclean
  refine ⟨n, hsettles, fun p => ?_⟩
  rw [mem_found]
  constructor
  · rintro ⟨v, hv, hmatters, rfl⟩
    exact ⟨(htracing v hv).1.matters_iff.mp hmatters, (htracing v hv).2⟩
  · rintro ⟨hsliced, hle⟩
    obtain ⟨v, hv, rfl⟩ := hall p hsliced hle
    exact ⟨v, hv, (htracing v hv).1.matters_iff.mpr hsliced, rfl⟩

/-! ### Seeds -/

/-- The session with just these operands tracked and none followed. -/
def seededWith (s : Session Replay) (seeds : List Operand) : Session Replay :=
  { s with slice := { s.slice with tracked := ({} : Tracked).extend seeds, followed := none } }

/-- A walk from these seeds runs on, slices these positions and ends with this session. -/
structure Finds (s : Session Replay) (seeds : List Operand) (ps : List Nat) (t : Session Replay) : Prop where
  compute : ∃ outcome, (s.seededWith seeds).compute [] .run = (t, .ok outcome)
  visits : ∃ visited outcome, (s.seededWith seeds).Computes [] .run visited t outcome ∧ found visited = ps
  newest_first : ps.Pairwise (· > ·)
  instructions : t.slice.instructions = s.slice.instructions ++ ps.map s.locatedAt

theorem mem_places_seededWith : x ∈ (s.seededWith seeds).slice.tracked.places ↔ x ∈ placesOf seeds := by
  show x ∈ (({} : Tracked).extend seeds).places ↔ _
  rw [Tracked.mem_places_extend]
  simp [Tracked.places]

theorem mem_toList_seededWith {o : Operand} (h : o ∈ (s.seededWith seeds).slice.tracked.toList) :
    o ∈ seeds ∧ o.isImmediate = false := by
  rcases Tracked.mem_toList_extend h with h | h
  · cases h
  · exact h

theorem hookFree_seededWith (h : ∀ o ∈ seeds, o.hook = none) : (s.seededWith seeds).HookFree :=
  fun o ho => h o (mem_toList_seededWith ho).1

theorem exists_finds (s : Session Replay) (h : ∀ o ∈ seeds, o.hook = none) : ∃ ps t, s.Finds seeds ps t := by
  obtain ⟨visited, t, outcome, hcomputes⟩ := exists_computes [] .run (s.seededWith seeds)
  exact ⟨found visited, t, ⟨outcome, hcomputes.compute_eq⟩, ⟨visited, outcome, hcomputes, rfl⟩,
    hcomputes.pairwise_found, (hookFree_seededWith h).instructions_found hcomputes⟩

/-- What is found from seeds that are not ignored is their slice (`Sliced`), and what is left is `Outstanding`. -/
theorem Finds.exact {ps : List Nat} (hfree : ∀ o ∈ seeds, o.hook = none) (hclean : (s.seededWith seeds).Clean)
    (h : s.Finds seeds ps t) :
    (∀ p, p ∈ ps ↔ (s.seededWith seeds).Sliced p) ∧
      ∀ x, x ∈ t.slice.tracked.places ↔ (s.seededWith seeds).Outstanding x := by
  obtain ⟨visited, outcome, hcomputes, rfl⟩ := h.visits
  obtain ⟨n, hsettles, hfound⟩ := hcomputes.mem_found_iff (hookFree_seededWith hfree) hclean
  refine ⟨fun p => ?_, fun x => hsettles.mem_places_iff⟩
  rw [hfound]
  refine and_iff_left_of_imp fun hsliced => hsettles.le hsliced ?_
  exact (reached_iff_visitable rfl).mpr hsliced.visitable

/-! ### Unions of seeds

What the recording holds does not depend on the seeds, so `defsAt` and `usesAt` are those of the session itself by
definition, and so is `Visitable`, once stepping back is read as `moves`. -/

theorem visitable_iff_moves :
    s.Visitable p ↔ p ≤ s.backend.position ∧ ∀ q, p < q → q ≤ s.backend.position → (s.lookingAt q).moves = true := by
  simp only [Visitable, lookingAt, reverseStep_eq, Except.ok.injEq]

theorem visitable_seededWith : (s.seededWith seeds).Visitable p ↔ s.Visitable p := by
  rw [visitable_iff_moves, visitable_iff_moves]
  rfl

section

variable {as bs cs : List Operand}

theorem Visitable.reseed (h : (s.seededWith as).Visitable p) : (s.seededWith bs).Visitable p :=
  visitable_seededWith.mpr (visitable_seededWith.mp h)

theorem Sliced.mono (hsub : ∀ x ∈ placesOf as, x ∈ placesOf cs) (h : (s.seededWith as).Sliced p) :
    (s.seededWith cs).Sliced p := by
  induction h with
  | seed hvisit hdef htracked hnewest =>
      refine .seed hvisit.reseed hdef (mem_places_seededWith.mpr (hsub _ ?_)) hnewest
      exact mem_places_seededWith.mp htracked
  | source hvisit hdef _ hlt huse hnewest ih => exact .source hvisit.reseed hdef ih hlt huse hnewest

theorem sliced_union_iff (hunion : ∀ x, x ∈ placesOf cs ↔ x ∈ placesOf as ∨ x ∈ placesOf bs) :
    (s.seededWith cs).Sliced p ↔ (s.seededWith as).Sliced p ∨ (s.seededWith bs).Sliced p := by
  constructor
  · intro h
    -- each position is sliced because of one seed or one reader, and inherits the side from it
    induction h with
    | @seed p x hvisit hdef htracked hnewest =>
        rcases (hunion x).mp (mem_places_seededWith.mp htracked) with hx | hx
        · exact Or.inl (.seed hvisit.reseed hdef (mem_places_seededWith.mpr hx) hnewest)
        · exact Or.inr (.seed hvisit.reseed hdef (mem_places_seededWith.mpr hx) hnewest)
    | source hvisit hdef _ hlt huse hnewest ih =>
        rcases ih with ih | ih
        · exact Or.inl (.source hvisit.reseed hdef ih hlt huse hnewest)
        · exact Or.inr (.source hvisit.reseed hdef ih hlt huse hnewest)
  · intro h
    rcases h with h | h
    · exact h.mono fun x hx => (hunion x).mpr (Or.inl hx)
    · exact h.mono fun x hx => (hunion x).mpr (Or.inr hx)

theorem outstanding_seededWith_iff :
    (s.seededWith seeds).Outstanding x ↔
      (x ∈ placesOf seeds ∧ ∀ q, s.Visitable q → x ∉ s.defsAt q) ∨
        ∃ q, (s.seededWith seeds).Sliced q ∧ x ∈ s.usesAt q ∧ ∀ r, r < q → s.Visitable r → x ∉ s.defsAt r := by
  have hreached : ∀ q, (s.seededWith seeds).Reached q ↔ s.Visitable q :=
    fun q => (reached_iff_visitable rfl).trans visitable_seededWith
  unfold Outstanding
  simp only [hreached, mem_places_seededWith]
  refine or_congr_right (exists_congr fun q => and_congr_right fun hsliced => ?_)
  exact and_iff_right (visitable_seededWith.mp hsliced.visitable)

theorem outstanding_union_iff (hunion : ∀ x, x ∈ placesOf cs ↔ x ∈ placesOf as ∨ x ∈ placesOf bs) :
    (s.seededWith cs).Outstanding x ↔ (s.seededWith as).Outstanding x ∨ (s.seededWith bs).Outstanding x := by
  simp only [outstanding_seededWith_iff, sliced_union_iff hunion, hunion, or_and_right, exists_or]
  exact or_or_or_comm

/-- None of the operands `isIgnored`, and none carries a hook. -/
def Accepts (s : Session Replay) (seeds : List Operand) : Prop :=
  ∀ o ∈ seeds, s.isIgnored o = false ∧ o.hook = none

instance (s : Session Replay) (seeds : List Operand) : Decidable (s.Accepts seeds) :=
  inferInstanceAs (Decidable (∀ o ∈ seeds, s.isIgnored o = false ∧ o.hook = none))

theorem Accepts.hook (h : s.Accepts seeds) : ∀ o ∈ seeds, o.hook = none := fun o ho => (h o ho).2

theorem Accepts.clean (h : s.Accepts seeds) : (s.seededWith seeds).Clean :=
  fun o ho => (h o (mem_toList_seededWith ho).1).1

/-- **The slice is additive in the seeds.** Take two lists of operands that are not ignored and carry no hooks
(`Accepts`), at any position of a recording. A walk that runs on from the operands of both, however these are listed,
slices the positions that a walk from the one or a walk from the other slices, with the same instructions. What it
leaves tracked is what the one or the other leaves tracked. -/
theorem compute_run_additive (s : Session Replay) (as bs : List Operand) (has : s.Accepts as) (hbs : s.Accepts bs) :
    ∃ ps qs rs t u, s.Finds as ps t ∧ s.Finds bs qs u ∧ (∀ p, p ∈ rs ↔ p ∈ ps ∨ p ∈ qs) ∧
      ∀ cs, s.Accepts cs → (∀ x, x ∈ placesOf cs ↔ x ∈ placesOf as ∨ x ∈ placesOf bs) →
        ∃ v, s.Finds cs rs v ∧
          ∀ x, x ∈ v.slice.tracked.places ↔ x ∈ t.slice.tracked.places ∨ x ∈ u.slice.tracked.places := by
  have hboth : s.Accepts (as ++ bs) := fun o ho => (List.mem_append.mp ho).elim (has o) (hbs o)
  obtain ⟨ps, t, hps⟩ := s.exists_finds has.hook
  obtain ⟨qs, u, hqs⟩ := s.exists_finds hbs.hook
  obtain ⟨rs, w, hrs⟩ := s.exists_finds hboth.hook
  obtain ⟨hmemps, houtt⟩ := hps.exact has.hook has.clean
  obtain ⟨hmemqs, houtu⟩ := hqs.exact hbs.hook hbs.clean
  obtain ⟨hmemrs, -⟩ := hrs.exact hboth.hook hboth.clean
  have hunion : ∀ p, p ∈ rs ↔ p ∈ ps ∨ p ∈ qs := fun p => by
    rw [hmemrs, hmemps, hmemqs]
    exact sliced_union_iff fun x => by simp [placesOf]
  refine ⟨ps, qs, rs, t, u, hps, hqs, hunion, fun cs hcs hplaces => ?_⟩
  obtain ⟨rs', v, hv⟩ := s.exists_finds hcs.hook
  obtain ⟨hmemrs', houtv⟩ := hv.exact hcs.hook hcs.clean
  -- positions that are listed newest first are determined by which they are
  have hsame : rs' = rs := by
    refine hv.newest_first.eq_of_mem_iff hrs.newest_first fun p => ?_
    rw [hmemrs', hunion, hmemps, hmemqs]
    exact sliced_union_iff hplaces
  refine ⟨v, hsame ▸ hv, fun x => ?_⟩
  rw [houtv, houtt, houtu]
  exact outstanding_union_iff hplaces

end

/-- The operands that expressions name, as `track` requests make them. -/
def seedsOf (s : Session Replay) (expressions : List String) : List Operand :=
  (s.serveAll (expressions.map .track)).slice.tracked.toList

end Session

/-- A value that is copied on, and next to it a value that has nothing to do with it. -/
def copies : Recording where
  archName := "i386"
  steps :=
    [{ pc := 0x1000, asm := "mov ebx,edx"
       registers := .ofList [("eax", 1), ("ebx", 2), ("ecx", 3), ("edx", 4), ("esi", 5)] },
      { pc := 0x1002, asm := "mov eax,ebx" }, { pc := 0x1004, asm := "mov ecx,esi" }]

namespace Session

/-- The walk from all seeds takes `ebx` out when it meets the copy to `eax`, and puts it back. -/
theorem compute_run_additive_at_copies :
    ∃ s ∈ ofRecording? copies {}, ∃ as bs, as = s.seedsOf ["$eax"] ∧ bs = s.seedsOf ["$ebx", "$ecx"] ∧
      s.Accepts as ∧ s.Accepts bs ∧ ∃ ps qs rs t u v,
        s.Finds as ps t ∧ t.slice.instructions.map (·.text) = ["mov eax,ebx", "mov ebx,edx"] ∧
        s.Finds bs qs u ∧ u.slice.instructions.map (·.text) = ["mov ecx,esi", "mov ebx,edx"] ∧
        s.Finds (bs ++ as) rs v ∧
        v.slice.instructions.map (·.text) = ["mov ecx,esi", "mov eax,ebx", "mov ebx,edx"] ∧
        (∀ p, p ∈ rs ↔ p ∈ ps ∨ p ∈ qs) ∧
        ∀ x, x ∈ v.slice.tracked.places ↔ x ∈ t.slice.tracked.places ∨ x ∈ u.slice.tracked.places := by
  have hready : ∃ s ∈ ofRecording? copies {},
      s.Accepts (s.seedsOf ["$eax"]) ∧ s.Accepts (s.seedsOf ["$ebx", "$ecx"]) ∧
      s.Accepts (s.seedsOf ["$ebx", "$ecx"] ++ s.seedsOf ["$eax"]) ∧
      ((s.seededWith (s.seedsOf ["$eax"])).compute [] .run).1.slice.instructions.map (·.text) =
        ["mov eax,ebx", "mov ebx,edx"] ∧
      ((s.seededWith (s.seedsOf ["$ebx", "$ecx"])).compute [] .run).1.slice.instructions.map (·.text) =
        ["mov ecx,esi", "mov ebx,edx"] ∧
      ((s.seededWith (s.seedsOf ["$ebx", "$ecx"] ++ s.seedsOf ["$eax"])).compute [] .run).1.slice.instructions.map
        (·.text) = ["mov ecx,esi", "mov eax,ebx", "mov ebx,edx"] := by
    decide +kernel
  obtain ⟨s, hs, has, hbs, hcs, htextsa, htextsb, htextsc⟩ := hready
  obtain ⟨ps, qs, rs, t, u, hps, hqs, hrs, hall⟩ := compute_run_additive s _ _ has hbs
  obtain ⟨v, hv, hplaces⟩ := hall _ hcs fun x => by simp [placesOf, or_comm]
  obtain ⟨_, ht⟩ := hps.compute
  obtain ⟨_, hu⟩ := hqs.compute
  obtain ⟨_, hv'⟩ := hv.compute
  rw [ht] at htextsa
  rw [hu] at htextsb
  rw [hv'] at htextsc
  exact ⟨s, hs, _, _, rfl, rfl, has, hbs, ps, qs, rs, t, u, v, hps, htextsa, hqs, htextsb, hv, htextsc, hrs, hplaces⟩

end Session

end TraceSlice
