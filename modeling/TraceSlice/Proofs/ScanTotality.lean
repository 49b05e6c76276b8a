import TraceSlice.Proofs.ByteScan

/-!
# Scanners are total

Textual arguments are scanned by bytes too (`argument?`). A segment prefix is known by its second and third byte, and
the scanner then skips three; after a number or a register it goes on by the bytes that these take. The second byte is
that of an `s` only if the first one is a whole character (`segmentBytes_iff`), and numbers and names are ASCII
(`asciiHead_of_head`), so the scanner always stands at a boundary. In every text, the scanners over bytes find what
those over characters do, and none of them breaks off or runs forever (`scanners_total`).
-/

namespace TraceSlice.Utf8

open Text Decode TraceSlice.Expr

/-! ### Segment prefixes -/

/-- The segment that a text starts with, if its second and third byte are those of a segment prefix: `Decode.segment?`
by bytes. -/
def segment? (text : String) : Scan (Option String) :=
  if 3 ≤ text.utf8ByteSize then do
    if (← byte? text 2) = ':' then
      if (← byte? text 1) = 's' then return some (← slice? text 0 2) else return none
    else return none
  else return none

/-- The bytes of a segment prefix are those of three characters. -/
theorem segmentBytes_iff (text : String) :
    (byte? text 1 = some 's' ∧ byte? text 2 = some ':') ↔
      ∃ letter rest, letter.utf8Size = 1 ∧ text.toList = letter :: 's' :: ':' :: rest := by
  have hzero := Leaves.zero text
  constructor
  · rintro ⟨hsecond, hthird⟩
    cases hcs : text.toList with
    | nil =>
        rw [hcs] at hzero
        have hnone := hzero.byte?_eq 1
        rw [Nat.zero_add, hsecond] at hnone
        cases hnone
    | cons letter rest =>
        rw [hcs] at hzero
        -- the second byte is no part of the first character
        have hletter : letter.utf8Size = 1 := by
          by_contra hletter
          have hpos := letter.utf8Size_pos
          obtain ⟨b, hb, hinside⟩ := hzero.byte?_inside Nat.one_pos (by omega)
          rw [Nat.zero_add, hsecond, Option.some.injEq] at hb
          exact hinside (hb ▸ rfl)
        obtain ⟨rest, rfl, htwo⟩ := (hzero.tail hletter).of_byte? rfl hsecond
        obtain ⟨rest, rfl, -⟩ := htwo.of_byte? rfl hthird
        exact ⟨letter, rest, hletter, rfl⟩
  · rintro ⟨letter, rest, hletter, hcs⟩
    rw [hcs] at hzero
    have hone := hzero.tail hletter
    exact ⟨hone.byte?_cons, (hone.tail rfl).byte?_cons⟩

theorem segment?_eq_some_iff {cs rest : List Char} {letter : Char} :
    Decode.segment? cs = some (letter, rest) ↔ letter.utf8Size = 1 ∧ cs = letter :: 's' :: ':' :: rest := by
  rw [utf8Size_eq_one_iff]
  constructor
  · intro h
    unfold Decode.segment? at h
    split at h
    · split at h
      · next hletter =>
          cases h
          exact ⟨hletter, rfl⟩
      · cases h
    · cases h
  · rintro ⟨hletter, rfl⟩
    exact if_pos hletter

theorem segment?_eq (text : String) :
    segment? text = some ((Decode.segment? text.toList).map fun found => String.ofList [found.1, 's']) := by
  -- the bytes are looked at only behind the length check, so every index is in range
  by_cases h : ∃ letter rest, letter.utf8Size = 1 ∧ text.toList = letter :: 's' :: ':' :: rest
  · obtain ⟨hsecond, hthird⟩ := (segmentBytes_iff text).mpr h
    obtain ⟨letter, rest, hletter, hcs⟩ := h
    have hzero := Leaves.zero text
    rw [hcs] at hzero
    have hsize : 3 ≤ text.utf8ByteSize := (((hzero.tail hletter).tail rfl).tail rfl).isBoundary.le_size
    have hslice := slice?_take hzero (.cons hletter (.cons rfl (.zero _)))
    rw [segment?, if_pos hsize, hthird, hsecond, hcs, segment?_eq_some_iff.mpr ⟨hletter, rfl⟩]
    simp [hslice]
  · have hnone : Decode.segment? text.toList = none :=
      Option.eq_none_iff_forall_ne_some.mpr fun found hfound => h ⟨found.1, found.2, segment?_eq_some_iff.mp hfound⟩
    rw [hnone, segment?]
    split
    · next hsize =>
        obtain ⟨third, hthird⟩ := exists_byte? (show 2 < text.utf8ByteSize by omega)
        obtain ⟨second, hsecond⟩ := exists_byte? (show 1 < text.utf8ByteSize by omega)
        have hbytes := mt (segmentBytes_iff text).mp h
        rw [hsecond, hthird, Option.some.injEq, Option.some.injEq] at hbytes
        rw [hsecond, hthird]
        by_cases hcolon : third = ':'
        · simp [hcolon, show ¬ second = 's' from fun hs => hbytes ⟨hs, hcolon⟩]
        · simp [hcolon]
    · rfl

example : segment? "es:[edi]" = some (some "es") ∧ segment? "és:[edi]" = some none := by decide

/-! ### Addresses -/

/-- One round of the scanner of addresses at a segment prefix (`segment?`) or a register at the head of `rest`. -/
def nameAt (arch : Description) (rest : String) (pos : Nat) (found : List Piece) :
    Scan (Round (Cursor Piece) Pieces) := do
  match ← segment? rest with
  | some name =>
    if name = "fs" ∨ name = "gs" then return .done ⟨found, false⟩ else return .more ⟨pos + 3, found⟩
  | none =>
    match arch.zeroRegisterAtHead? rest.toList with
    | some name => return .more ⟨pos + name.utf8ByteSize, found ++ [.text ['0']]⟩
    | none =>
      match arch.registerAtHead? rest.toList with
      | some register => return .more ⟨pos + register.name.utf8ByteSize, found ++ [.register register]⟩
      | none => return .done ⟨found, false⟩

/-- One round of the scanner of addresses at the head of `rest`, at a byte with the code of `c`. -/
def pieceAt (arch : Description) (rest : String) (pos : Nat) (found : List Piece) (c : Char) :
    Scan (Round (Cursor Piece) Pieces) :=
  if c = '[' ∨ c = ' ' then return .more ⟨pos + 1, found⟩
  else if c = '+' ∨ c = '-' ∨ c = '*' then return .more ⟨pos + 1, found ++ [.text [c]]⟩
  else if c.isDigit then do
    match ← numeral? rest with
    | some (_, size) =>
      let literal ← slice? rest 0 size
      return .more ⟨pos + size, found ++ [.text literal.toList]⟩
    | none => return .done ⟨found, false⟩
  else nameAt arch rest pos found

/-- One round of the scanner of addresses: `pieceAt` at the byte that stands there. -/
def pieceRound (arch : Description) (body : String) (cursor : Cursor Piece) : Scan (Round (Cursor Piece) Pieces) :=
  if cursor.pos < body.utf8ByteSize then do
    let rest ← sliceFrom? body cursor.pos
    pieceAt arch rest cursor.pos cursor.found (← byte? rest 0)
  else return .done ⟨cursor.found, true⟩

/-- The pieces of an addressing expression: `Decode.pieces` by bytes. -/
noncomputable def pieces? (arch : Description) (body : String) : Scan Pieces := loop (pieceRound arch body) ⟨0, []⟩

/-- What stands at the head of a text as a segment prefix or a register. -/
def nameHead (arch : Description) (cs : List Char) : Head :=
  match Decode.segment? cs with
  | some (letter, _) => if isThreadLocal letter then .unknown else .skip 3
  | none => registerHead arch cs

/-- What a round of the scanner comes to by the `Head` that stands there. -/
def pieceOutcome (cursor : Cursor Piece) : Head → Round (Cursor Piece) Pieces
  | .unknown => .done ⟨cursor.found, false⟩
  | .skip size => .more ⟨cursor.pos + size, cursor.found⟩
  | .piece piece size => .more ⟨cursor.pos + size, cursor.found ++ [piece]⟩

/-- What `pieceRound` comes to at the characters that are left. -/
def pieceStep (arch : Description) (cursor : Cursor Piece) : List Char → Round (Cursor Piece) Pieces
  | [] => .done ⟨cursor.found, true⟩
  | c :: rest => pieceOutcome cursor (head arch c rest)

section

variable {arch : Description} {c : Char} {rest : List Char}

theorem registerAtHead?_isPrefix {r : Register} (h : arch.registerAtHead? rest = some r) : r.name.toList <+: rest := by
  rcases Description.foldl_longer_mem h with hmem | hnone
  · simpa using (List.mem_filter.mp hmem).2
  · cases hnone

/-- The name of a register at the head of a text takes as many bytes as characters: it is an `AsciiHead`. -/
theorem asciiHead_of_name {name : String} (hname : IsName name.toList) (h : name.toList <+: rest) :
    AsciiHead name.length rest := by
  rw [← String.length_toList]
  exact .of_isPrefix h fun c hc => isAscii_isNameChar c (hname.isNameChar c hc)

theorem utf8ByteSize_of_isName {name : String} (hname : IsName name.toList) : name.utf8ByteSize = name.length := by
  rw [← String.length_toList, ← utf8ByteSize_ofList fun c hc => isAscii_isNameChar c (hname.isNameChar c hc),
    String.ofList_toList]

theorem length_pos_of_isName {name : String} (hname : IsName name.toList) : 0 < name.length := by
  obtain ⟨c, more, hcons, -⟩ := hname.exists_cons
  rw [← String.length_toList, hcons]
  exact Nat.succ_pos _

theorem asciiHead_of_numeral? {w : Word} {size : Nat} (h : Text.numeral? rest = some (w, size)) : AsciiHead size rest :=
  ⟨(numeral?_size_pos h).2, fun c hc => isAscii_isNameChar c ((literal_of_numeral? h).1.isNameChar c hc)⟩

/-- How many characters the head of an address takes. -/
def headSize : Head → Nat
  | .piece _ size => size
  | .skip size => size
  | .unknown => 0

theorem asciiHead_of_registerHead (harch : arch.Legible) (h : registerHead arch rest ≠ .unknown) :
    0 < headSize (registerHead arch rest) ∧ AsciiHead (headSize (registerHead arch rest)) rest := by
  unfold registerHead at h ⊢
  cases hzero : arch.zeroRegisterAtHead? rest with
  | some name =>
      have hname := harch.zero name (List.mem_of_find?_eq_some hzero)
      have hpre : name.toList <+: rest := by simpa using List.find?_some hzero
      exact ⟨length_pos_of_isName hname, asciiHead_of_name hname hpre⟩
  | none =>
      rw [hzero] at h
      cases hregister : arch.registerAtHead? rest with
      | some r =>
          have hname := harch.register r (Description.registerAtHead?_mem hregister)
          exact ⟨length_pos_of_isName hname, asciiHead_of_name hname (registerAtHead?_isPrefix hregister)⟩
      | none =>
          rw [hregister] at h
          exact absurd rfl h

/-- What `head` understands of an address is ASCII, and is not empty. -/
theorem asciiHead_of_head (harch : arch.Legible) (h : head arch c rest ≠ .unknown) :
    0 < headSize (head arch c rest) ∧ AsciiHead (headSize (head arch c rest)) (c :: rest) := by
  revert h
  fun_cases head arch c rest with
  | case1 hblank =>
      intro _
      exact ⟨Nat.one_pos, .cons (by rcases hblank with rfl | rfl <;> rfl) (.zero rest)⟩
  | case2 _ hoperator =>
      intro _
      exact ⟨Nat.one_pos, .cons (by rcases hoperator with rfl | rfl | rfl <;> rfl) (.zero rest)⟩
  | case3 _ _ _ w size hnumeral =>
      intro _
      exact ⟨(numeral?_size_pos hnumeral).1, asciiHead_of_numeral? hnumeral⟩
  | case4 => exact fun h => absurd rfl h
  | case5 => exact fun h => absurd rfl h
  | case6 _ _ _ letter more hsegment _ =>
      intro _
      obtain ⟨hletter, hcs⟩ := segment?_eq_some_iff.mp hsegment
      rw [hcs]
      exact ⟨by decide, .cons hletter (.cons rfl (.cons rfl (.zero more)))⟩
  | case7 => exact asciiHead_of_registerHead harch

/-- At a character that is not ASCII, `pieceAt` can only find a name. -/
theorem pieceAt_other (text : String) (pos : Nat) (found : List Piece) (h : c.utf8Size ≠ 1) :
    pieceAt arch text pos found c = nameAt arch text pos found := by
  have hne : ∀ d : Char, d.utf8Size = 1 → c ≠ d := fun d hd hcd => h (hcd ▸ hd)
  rw [pieceAt, if_neg (not_or.mpr ⟨hne '[' rfl, hne ' ' rfl⟩),
    if_neg (not_or.mpr ⟨hne '+' rfl, not_or.mpr ⟨hne '-' rfl, hne '*' rfl⟩⟩), if_neg (mt (isAscii_isDigit c) h)]

theorem isThreadLocal_iff (letter : Char) :
    isThreadLocal letter = true ↔ String.ofList [letter, 's'] = "fs" ∨ String.ofList [letter, 's'] = "gs" := by
  have hsegment : ∀ d : Char, String.ofList [letter, 's'] = String.ofList [d, 's'] ↔ letter = d := by
    simp
  have hf := hsegment 'f'
  have hg := hsegment 'g'
  rw [isThreadLocal, Bool.or_eq_true, beq_iff_eq, beq_iff_eq, ← hf, ← hg]

theorem nameAt_eq (harch : arch.Legible) (cs : List Char) (pos : Nat) (found : List Piece) :
    nameAt arch (String.ofList cs) pos found = some (pieceOutcome ⟨pos, found⟩ (nameHead arch cs)) := by
  rw [nameAt, segment?_eq, String.toList_ofList, nameHead]
  cases Decode.segment? cs with
  | some segment =>
      show (if _ then _ else _) = some (pieceOutcome _ (if _ then _ else _))
      by_cases hlocal : isThreadLocal segment.1 = true
      · rw [if_pos ((isThreadLocal_iff _).mp hlocal), if_pos hlocal]
        rfl
      · rw [if_neg (mt (isThreadLocal_iff _).mpr hlocal), if_neg hlocal]
        rfl
  | none =>
      rw [registerHead]
      cases hzero : arch.zeroRegisterAtHead? cs with
      | some name =>
          have hsize := utf8ByteSize_of_isName (harch.zero name (List.mem_of_find?_eq_some hzero))
          simp [pieceOutcome, hsize]
      | none =>
          cases hregister : arch.registerAtHead? cs with
          | some r =>
              have hsize := utf8ByteSize_of_isName (harch.register r (Description.registerAtHead?_mem hregister))
              simp [pieceOutcome, hsize]
          | none => rfl

/-- At a character, `pieceAt` finds the `head` of the text from there. -/
theorem pieceAt_eq (harch : arch.Legible) (c : Char) (rest : List Char) (pos : Nat) (found : List Piece) :
    pieceAt arch (String.ofList (c :: rest)) pos found c = some (pieceOutcome ⟨pos, found⟩ (head arch c rest)) := by
  rw [pieceAt, head]
  by_cases hblank : c = '[' ∨ c = ' '
  · rw [if_pos hblank, if_pos hblank]
    rfl
  rw [if_neg hblank, if_neg hblank]
  by_cases hoperator : c = '+' ∨ c = '-' ∨ c = '*'
  · rw [if_pos hoperator, if_pos hoperator]
    rfl
  rw [if_neg hoperator, if_neg hoperator]
  by_cases hdigit : c.isDigit = true
  · rw [if_pos hdigit, if_pos hdigit, numeral?_eq, String.toList_ofList]
    cases hnumeral : Text.numeral? (c :: rest) with
    | some literal =>
        have hzero := Leaves.zero (String.ofList (c :: rest))
        rw [String.toList_ofList] at hzero
        -- a numeral is ASCII, so it ends on a boundary
        have hslice := slice?_take hzero (asciiHead_of_numeral? hnumeral)
        rw [Nat.zero_add] at hslice
        show (slice? _ 0 literal.2).bind _ = _
        rw [hslice]
        simp [pieceOutcome]
    | none => rfl
  · rw [if_neg hdigit, if_neg hdigit]
    exact nameAt_eq harch (c :: rest) pos found

theorem pieceRound_eq (harch : arch.Legible) {body : String} (cursor : Cursor Piece)
    (h : Leaves body cursor.pos rest) : pieceRound arch body cursor = some (pieceStep arch cursor rest) := by
  unfold pieceRound
  cases rest with
  | nil =>
      rw [if_neg (mt h.lt_size_iff.mp (by simp))]
      rfl
  | cons c rest =>
      have hzero := Leaves.zero (String.ofList (c :: rest))
      rw [String.toList_ofList] at hzero
      rw [if_pos (h.lt_size_iff.mpr (by simp)), h.sliceFrom?_eq]
      show (byte? _ 0).bind _ = _
      rw [hzero.byte?_cons]
      exact (congr_initial (fun c hc => pieceAt_other _ cursor.pos cursor.found hc) c).trans
        (pieceAt_eq harch c rest cursor.pos cursor.found)

theorem pieceOutcome_eq_more {cursor next : Cursor Piece} {found : Head} (h : pieceOutcome cursor found = .more next) :
    found ≠ .unknown ∧ next.pos = cursor.pos + headSize found := by
  cases found with
  | unknown => cases h
  | skip size =>
      cases h
      exact ⟨by simp, rfl⟩
  | piece piece size =>
      cases h
      exact ⟨by simp, rfl⟩

/-- The loop of `pieceRound` progresses: it follows `pieceStep`. -/
theorem progresses_pieceRound (harch : arch.Legible) (body : String) :
    Progresses body Cursor.pos (pieceRound arch body) := by
  refine progresses_of_step (pieceStep arch) (fun cursor rest h => pieceRound_eq harch cursor h)
    fun cursor rest next hnext => ?_
  cases rest with
  | nil => cases hnext
  | cons c rest =>
      obtain ⟨hfound, hpos⟩ := pieceOutcome_eq_more hnext
      obtain ⟨hsize, hascii⟩ := asciiHead_of_head harch hfound
      exact ⟨_, hsize, hascii, hpos⟩

/-- Past the `head` of an address, the text goes on as the scanner over characters has it. -/
theorem leaves_past_head (harch : arch.Legible) {body : String} {pos : Nat} (h : Leaves body pos (c :: rest))
    {found : Head} (hhead : head arch c rest = found) (hfound : found ≠ .unknown) :
    Leaves body (pos + headSize found) (rest.drop (headSize found - 1)) := by
  subst hhead
  obtain ⟨hpos, hascii⟩ := asciiHead_of_head harch hfound
  have hdrop := leaves_drop h hascii
  obtain ⟨n, hn⟩ := Nat.exists_eq_add_of_lt hpos
  rw [hn] at hdrop ⊢
  simpa using hdrop

/-- From a boundary on, the loop of `pieceRound` finds the `pieces` of what is left. -/
theorem loop_pieceRound (harch : arch.Legible) {body : String} {pos : Nat} (h : Leaves body pos rest)
    (found : List Piece) :
    loop (pieceRound arch body) ⟨pos, found⟩ =
      some ⟨found ++ (pieces arch rest).pieces, (pieces arch rest).complete⟩ := by
  -- as for the tokens: each case of the character scan is one round of the byte loop
  fun_induction pieces arch rest generalizing pos found with
  | case1 =>
      rw [loop_done (pieceRound_eq harch ⟨pos, found⟩ h)]
      simp
  | case2 c rest hhead =>
      have hround := pieceRound_eq harch ⟨pos, found⟩ h
      rw [pieceStep, hhead] at hround
      rw [loop_done hround]
      simp
  | case3 c rest size hhead ih =>
      have hround := pieceRound_eq harch ⟨pos, found⟩ h
      rw [pieceStep, hhead] at hround
      have hrest : Leaves body (pos + size) (rest.drop (size - 1)) := leaves_past_head harch h hhead (by simp)
      rw [loop_more hround, ih hrest]
  | case4 c rest piece size hhead ih =>
      have hround := pieceRound_eq harch ⟨pos, found⟩ h
      rw [pieceStep, hhead] at hround
      have hrest : Leaves body (pos + size) (rest.drop (size - 1)) := leaves_past_head harch h hhead (by simp)
      rw [loop_more hround, ih hrest]
      simp [Pieces.cons]

theorem pieces?_eq (harch : arch.Legible) (body : String) : pieces? arch body = some (pieces arch body.toList) := by
  rw [pieces?, loop_pieceRound harch (Leaves.zero body)]
  rfl

end

/-! ### Arguments -/

/-- The uses that a memory operand stands for: `Context.memory` by bytes. -/
noncomputable def memory? (ctx : Context) (text : String) (width : Nat) (direction : Direction) : Scan (List Use) := do
  let scan ← pieces? ctx.arch (String.ofList (addressBody text.toList))
  if scan.complete && !scan.pieces.isEmpty then
    return addressUses ctx.arch ctx.view scan ++
      byteUses ctx.view (baseAddress ctx.arch ctx.view ctx.target scan) width direction
  else return addressUses ctx.arch ctx.view scan

/-- Is the text an absolute address after a segment prefix, or an address in brackets? This is `Context.isBareAddress`
by bytes. -/
def isBareAddress? (text : String) : Scan Bool := do
  match ← segment? text with
  | some _ => return startsWith (← sliceFrom? text 3) "0x" || startsWith text "["
  | none => return startsWith text "["

/-- The use of an immediate or a register, or none if the text is neither: `Context.scalar` by bytes. -/
def scalar? (ctx : Context) (text : String) (direction : Direction) : Scan (List Use) := do
  if (← byte? text 0).isDigit then
    match ← numeral? text with
    | some (value, _) => return [⟨direction, .ofImmediate value⟩]
    | none => return []
  else if ctx.arch.isZeroRegister text then return [⟨direction, .ofImmediate 0⟩]
  else return ctx.register text direction

/-- The uses that one textual argument stands for: `Context.argument` by bytes. -/
noncomputable def argument? (ctx : Context) (text : String) (direction : Direction) : Scan (List Use) :=
  let text := trimmed text
  if text.isEmpty then return []
  else if holds text "fs:" || holds text "gs:" then return []
  else do
    if ← isBareAddress? text then memory? ctx text ctx.arch.pointerWidth direction
    else if holds text "PTR" then
      let (width, expression) := Context.sizedAddress text.toList
      memory? ctx (String.ofList expression) width direction
    else scalar? ctx text direction

section

variable {ctx : Context}

theorem memory?_eq (harch : ctx.arch.Legible) (text : String) (width : Nat) (direction : Direction) :
    memory? ctx text width direction = some (ctx.memory text.toList width direction) := by
  rw [memory?, pieces?_eq harch, String.toList_ofList, Context.memory, memoryUses]
  show (if _ then _ else _) = some (if _ then _ else _)
  split <;> rfl

theorem isBareAddress?_eq (text : String) : isBareAddress? text = some (Context.isBareAddress text.toList) := by
  rw [isBareAddress?, segment?_eq, Context.isBareAddress, startsWith]
  cases hsegment : Decode.segment? text.toList with
  | none => simp
  | some found =>
      obtain ⟨hletter, hcs⟩ := segment?_eq_some_iff.mp hsegment
      have hzero := Leaves.zero text
      rw [hcs] at hzero
      have hrest : sliceFrom? text 3 = some (String.ofList found.2) :=
        (((hzero.tail hletter).tail rfl).tail rfl).sliceFrom?_eq
      simp [hrest, startsWith, Bool.or_comm]

theorem scalar?_eq {text : String} (h : text.toList ≠ []) (direction : Direction) :
    scalar? ctx text direction = some (ctx.scalar text.toList direction) := by
  obtain ⟨c, rest, hcs⟩ := List.exists_cons_of_ne_nil h
  have hzero := Leaves.zero text
  rw [hcs] at hzero
  rw [scalar?, hzero.byte?_cons, Context.scalar, String.ofList_toList]
  show (if (initial c).isDigit then _ else _) = _
  rw [isAscii_isDigit.congr_initial, numeral?_eq, hcs, List.head?_cons, Option.any_some]
  split
  · cases Text.numeral? (c :: rest) <;> rfl
  · split <;> rfl

theorem argument?_eq (harch : ctx.arch.Legible) (text : String) (direction : Direction) :
    argument? ctx text direction = some (ctx.argument text.toList direction) := by
  have htrim : (trimmed text).toList = trim text.toList := String.toList_ofList
  have hempty : (trimmed text).isEmpty = (trim text.toList).isEmpty := by
    rw [trimmed]
    cases trim text.toList <;> simp
  unfold argument? Context.argument holds
  dsimp only
  rw [hempty, htrim, isBareAddress?_eq, htrim]
  split
  · rfl
  · next hne =>
      split
      · rfl
      · show (if _ then _ else _) = _
        split
        · rw [memory?_eq harch, htrim]
        · split
          · rw [memory?_eq harch, String.toList_ofList]
          · rw [scalar?_eq (by simpa [htrim] using hne), htrim]

end

/-! ### All scanners -/

/-- **Scanners are total.** Whatever a text holds, each loop over its bytes makes its round at every boundary, by that
round gets on to a later one, and ends (`Progresses`); no byte is asked for outside the text and no slice is cut
inside a character; and what is found is what the scanners over characters find. -/
theorem scanners_total (arch : Arch) (view : View) (target : Option Word) (text : String) (width : Nat)
    (direction : Direction) :
    (Progresses text id (nameRound text) ∧ Progresses text Cursor.pos (tokenRound text) ∧
      Progresses text Cursor.pos (pieceRound arch.description text)) ∧
    numeral? text = some (Text.numeral? text.toList) ∧
    segment? text = some ((Decode.segment? text.toList).map fun found => String.ofList [found.1, 's']) ∧
    tokenize? text = some (tokenize text) ∧
    memory? ⟨arch.description, view, target⟩ text width direction =
      some (Context.memory ⟨arch.description, view, target⟩ text.toList width direction) ∧
    argument? ⟨arch.description, view, target⟩ text direction =
      some (Context.argument ⟨arch.description, view, target⟩ text.toList direction) :=
  ⟨⟨progresses_nameRound text, progresses_tokenRound text, progresses_pieceRound arch.legible text⟩, numeral?_eq text,
    segment?_eq text, tokenize?_eq text, memory?_eq arch.legible text width direction,
    argument?_eq arch.legible text direction⟩

end TraceSlice.Utf8
