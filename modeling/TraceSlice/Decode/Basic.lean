import TraceSlice.Decode.Mnemonic

/-!
# Decoding instructions

The text of an instruction is prefixes, a mnemonic and arguments separated by commas, and after `#` a comment of the
disassembler, whose leading number is the address of an operand relative to the instruction pointer (specification,
§E9). `anatomy` takes the text apart, `effect?` looks the mnemonic up, and `decode` attaches the uses. A mnemonic that
is not known decodes to an instruction without operands (§7 (a)).
-/

namespace TraceSlice.Decode

/-- The words that may stand before a mnemonic; `peel` takes them off. -/
def prefixWords : List String :=
  ["rep", "repe", "repz", "repne", "repnz", "lock", "bnd", "notrack"]

/-- The first word of a text, and what follows it without surrounding blanks. -/
def splitWord (cs : List Char) : List Char × List Char :=
  match Text.splitFirst? Text.isBlank (Text.trimStart cs) with
  | some (word, rest) => (word, Text.trim rest)
  | none => (Text.trimEnd (Text.trimStart cs), [])

/-- Is `word` one of `prefixWords`? -/
def isPrefixWord (word : List Char) : Bool := prefixWords.contains (String.ofList word)

/-- The parts of an instruction's text before its arguments are taken apart. -/
structure Anatomy where
  /-- The prefix that counts: the last one that repeats, or else the first one. -/
  leading : Option String
  /-- The mnemonic, which is a prefix if nothing follows it. -/
  mnemonic : List Char
  /-- The text of the arguments. -/
  arguments : List Char
deriving DecidableEq, Repr

theorem length_splitWord_lt {cs : List Char} (h : cs ≠ []) :
    (splitWord cs).2.length < cs.length := by
  have hpos : 0 < cs.length := List.length_pos_iff.mpr h
  unfold splitWord
  split
  · next word rest hs =>
    obtain ⟨c, -, hcs⟩ := Text.splitFirst?_eq_some hs
    have h1 := Text.length_trimStart_le cs
    have h2 : (Text.trim rest).length ≤ rest.length := by
      have ha := (List.dropWhile_sublist Text.isBlank (l := (Text.trimStart rest).reverse)).length_le
      have hb := Text.length_trimStart_le rest
      simp only [Text.trim, Text.trimEnd, List.length_reverse] at ha ⊢
      omega
    rw [hcs, List.length_append, List.length_cons] at h1
    exact Nat.lt_of_le_of_lt h2 (by omega)
  · simpa using hpos

/-- Peels prefixes off a text of which `word` has been read and `rest` follows. The last word is never peeled, so a
lone prefix is its own mnemonic. -/
def peel (leading : Option String) (word rest : List Char) : Anatomy :=
  if _more : isPrefixWord word = true ∧ rest ≠ [] then
    let name := String.ofList word
    let leading := if leading.isNone || Instruction.isRepeatPrefix name then some name else leading
    peel leading (splitWord rest).1 (splitWord rest).2
  else ⟨leading, word, rest⟩
termination_by rest.length
decreasing_by exact length_splitWord_lt (And.right ‹_›)

/-- The parts of a text without a comment, its prefixes taken off by `peel`. -/
def anatomy (body : List Char) : Anatomy :=
  peel none (splitWord body).1 (splitWord body).2

/-- The arguments of an instruction. -/
def splitArguments (text : List Char) : Arguments :=
  if text.isEmpty then [] else (Text.pieces (· == ',') text).map Text.trim

/-- The text of an instruction and the comment after its first `#`. -/
def splitComment (cs : List Char) : List Char × List Char :=
  (Text.splitFirst? (· == '#') cs).getD (cs, [])

/-- The address that a disassembler's comment starts with, if `Text.numeral?` reads one there. -/
def commentTarget? (comment : List Char) : Option Word :=
  (Text.numeral? (Text.trim comment)).map (·.1)

/-- The footprint of an instruction taken apart. A string operation under a prefix that repeats (`isRepeatPrefix`)
also counts down its counter. -/
def Anatomy.footprint (parts : Anatomy) (ctx : Context) (lastReturn : Word) : Footprint :=
  if isPrefixWord parts.mnemonic then {}
  else
    match effect? (String.ofList parts.mnemonic) with
    | none => {}
    | some effect =>
      let found := ctx.footprint (splitArguments parts.arguments) lastReturn effect
      match effect with
      | .string _ _ =>
        if parts.leading.any Instruction.isRepeatPrefix then
          { found with uses := found.uses ++ ctx.register ctx.arch.counter .both }
        else found
      | _ => found

/-- The instruction at `pc` with the given text, on a machine in the state `view` shows. `lastReturn` is the return
register one step later, which a system call has set. -/
def decode (arch : Description) (view : View) (lastReturn : Word) (pc : Word) (text : String) :
    Instruction :=
  let (body, comment) := splitComment text.toList
  let body := Text.trim body
  let parts := anatomy body
  let ctx : Context := { arch, view, target := commentTarget? comment }
  let found := parts.footprint ctx lastReturn
  let insn := (Instruction.ofText pc (String.ofList body) parts.leading
    (String.ofList parts.mnemonic)).addUses found.uses
  match found.note with
  | some note => insn.annotate note
  | none => insn

end TraceSlice.Decode
