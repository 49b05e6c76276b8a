import Mathlib.Data.List.Forall2
import TraceSlice.Proofs.JsonText
import TraceSlice.Recording.Format

/-!
# The text of a recording is read back as the recording

A word has several notations: decimal digits, a string of hexadecimal digits after `0x` or `0X`, and a negative integer
if its top bit is set. `Recording.Spelled` relates a recording to the documents that differ from the one it is written
as in the notation of words only, each word on its own. Every such document is read back as the recording
(`Recording.parse?_render_spelled`), by way of `Describes`: a reader that gets the value back from all its notations,
which lists, pairs and records inherit from their parts.
-/

namespace TraceSlice

/-! ### Readers and notations -/

/-- The reader gets every value back from each of its notations. -/
structure Describes {α : Type} (read : Json → Option α) (Spelled : α → Json → Prop) : Prop where
  proper {x : α} {json : Json} : Spelled x json → json.Proper
  read_eq {x : α} {json : Json} : Spelled x json → read json = some x

namespace Json

/-- An array with a notation (`Spelled`) of each member of a list. -/
inductive ListOf {α : Type} (Spelled : α → Json → Prop) : List α → Json → Prop
  | intro {xs : List α} {elements : List Json} :
      List.Forall₂ Spelled xs elements → ListOf Spelled xs (.array elements)

/-- An array with a notation of each component of a pair. -/
inductive PairOf {α β : Type} (First : α → Json → Prop) (Second : β → Json → Prop) : α × β → Json → Prop
  | intro {x : α} {y : β} {first second : Json} :
      First x first → Second y second → PairOf First Second (x, y) (.array [first, second])

/-- The one notation of a value. -/
def Only {α : Type} (write : α → Json) (x : α) (json : Json) : Prop := json = write x

theorem only_self {α : Type} (write : α → Json) (x : α) : Only write x (write x) := rfl

theorem mapM_of_forall₂ {α β : Type} {read : α → Option β} {xs : List β} {ys : List α}
    (h : List.Forall₂ (fun x y => read y = some x) xs ys) : ys.mapM read = some xs := by
  induction h with
  | nil => rfl
  | cons hhead _ ih => simp [List.mapM_cons, hhead, ih]

theorem forall₂_exists_left {α β : Type} {R : α → β → Prop} {xs : List α} {ys : List β} (h : List.Forall₂ R xs ys) :
    ∀ y ∈ ys, ∃ x, R x y := by
  induction h with
  | nil => simp
  | cons hhead _ ih => simpa using ⟨⟨_, hhead⟩, ih⟩

theorem describes_list {α : Type} {read : Json → Option α} {Spelled : α → Json → Prop} (h : Describes read Spelled) :
    Describes (list? read) (ListOf Spelled) where
  proper := by
    rintro _ _ ⟨helements⟩
    refine .array fun element hmem => ?_
    obtain ⟨x, hx⟩ := forall₂_exists_left helements element hmem
    exact h.proper hx
  read_eq := by
    rintro _ _ ⟨helements⟩
    exact mapM_of_forall₂ (helements.imp fun _ _ => h.read_eq)

theorem describes_pair {α β : Type} {readFirst : Json → Option α} {readSecond : Json → Option β}
    {First : α → Json → Prop} {Second : β → Json → Prop} (hfirst : Describes readFirst First)
    (hsecond : Describes readSecond Second) : Describes (pair? readFirst readSecond) (PairOf First Second) where
  proper := by
    rintro _ _ ⟨hx, hy⟩
    refine .array fun element hmem => ?_
    simp only [List.mem_cons, List.not_mem_nil, or_false] at hmem
    rcases hmem with rfl | rfl
    · exact hfirst.proper hx
    · exact hsecond.proper hy
  read_eq := by
    rintro _ _ ⟨hx, hy⟩
    simp [pair?, hfirst.read_eq hx, hsecond.read_eq hy]

theorem describes_text : Describes text? (Only ofString) where
  proper := by
    rintro _ _ rfl
    exact .string _
  read_eq := by
    rintro _ _ rfl
    rfl

theorem ListOf.map {α : Type} {Spelled : α → Json → Prop} {write : α → Json} (h : ∀ x, Spelled x (write x))
    (xs : List α) : ListOf Spelled xs (.array (xs.map write)) :=
  ⟨List.forall₂_map_right_iff.mpr (List.forall₂_same.mpr fun x _ => h x)⟩

/-! ### Records -/

theorem proper_ofMembers {entries : List (String × Json)} (h : ∀ entry ∈ entries, entry.2.Proper) :
    (ofMembers entries).Proper := by
  refine .object fun member hmem => ?_
  obtain ⟨entry, hentry, rfl⟩ := List.mem_map.mp hmem
  exact h entry hentry

theorem valuesOf_eq_nil {key : String} {entries : List (String × Json)} (h : key ∉ entries.map Prod.fst) :
    valuesOf key (entries.map fun (key, value) => (some key, value)) = [] := by
  simp only [valuesOf, List.filterMap_map, List.filterMap_eq_nil_iff]
  rintro ⟨other, value⟩ hmem
  have hne : other ≠ key := by
    rintro rfl
    exact h (List.mem_map_of_mem hmem)
  simp [hne]

theorem valuesOf_ofMembers {entries : List (String × Json)} (h : (entries.map Prod.fst).Nodup) :
    ∀ entry ∈ entries, valuesOf entry.1 (entries.map fun (key, value) => (some key, value)) = [entry.2] := by
  induction entries with
  | nil => simp
  | cons head rest ih =>
      obtain ⟨hhead, hrest⟩ := List.nodup_cons.mp h
      have hcons (key : String) : valuesOf key ((head :: rest).map fun (key, value) => (some key, value)) =
          (if head.1 = key then [head.2] else []) ++
            valuesOf key (rest.map fun (key, value) => (some key, value)) := by
        by_cases hkey : head.1 = key
        · simp [valuesOf, hkey]
        · simp [valuesOf, hkey]
      intro entry hmem
      rw [hcons]
      rcases List.mem_cons.mp hmem with rfl | hmem
      · rw [if_pos rfl, valuesOf_eq_nil hhead, List.append_nil]
      · have hne : head.1 ≠ entry.1 := by
          intro heq
          rw [heq] at hhead
          exact hhead (List.mem_map_of_mem hmem)
        rw [if_neg hne, ih hrest entry hmem, List.nil_append]

/-- `fields?` of an object that gives each field once. -/
theorem fields?_ofMembers {names : List String} {entries : List (String × Json)} (hnames : entries.map Prod.fst = names)
    (h : names.Nodup) : fields? names (ofMembers entries) = some (entries.map fun entry => some entry.2) := by
  subst hnames
  have hfield (entry : String × Json) (hmem : entry ∈ entries) :
      field? (entries.map fun (key, value) => (some key, value)) entry.1 = some (some entry.2) := by
    rw [field?, valuesOf_ofMembers h entry hmem]
  have hall : (entries.map fun (key, value) => (some key, value)).all (fun member => member.1.isSome) = true := by
    simp
  rw [ofMembers, fields?, if_pos hall]
  apply mapM_of_forall₂
  rw [List.forall₂_map_left_iff, List.forall₂_map_right_iff, List.forall₂_same]
  exact hfield

end Json

/-! ### Words and other numbers -/

/-- The notations of a word. -/
inductive Word.Spelled (w : Word) : Json → Prop
  | decimal : Spelled w (.ofNat w.toNat)
  | hexadecimal {x : Char} {digits : List Char} : x ∈ ['x', 'X'] → Text.Numeral 16 digits w.toNat →
      Spelled w (.ofString (String.ofList ('0' :: x :: digits)))
  | negative : 0x8000000000000000 ≤ w.toNat → Spelled w (.ofInt ((w.toNat : Int) - UInt64.size))

theorem Word.ofHexDigits?_of_numeral {digits : List Char} {w : Word} (h : Text.Numeral 16 digits w.toNat) :
    Word.ofHexDigits? digits = some w := by
  obtain ⟨hne, hall, hvalue⟩ := (Text.numeral_iff (Nat.le_refl 16)).mp h
  have hplus : "+".toList.isPrefixOf digits = false := by
    cases digits with
    | nil => rfl
    | cons c digits =>
        have hc : '+' ≠ c := by
          rintro rfl
          cases hall '+' (by simp)
        simp only [String.reduceToList, List.isPrefixOf, beq_eq_false_iff_ne.mpr hc, Bool.false_and]
  have hdigits : (digits.all (Text.isDigitIn 16) && !digits.isEmpty) = true := by
    simp [List.all_eq_true.mpr hall, hne]
  simp only [Word.ofHexDigits?, hplus, Bool.false_eq_true, if_false]
  rw [if_pos hdigits, Word.ofNat?_eq_some_iff, hvalue]

theorem Word.ofJson?_ofInt {i : Int} (hlow : -0x8000000000000000 ≤ i) (hhigh : i < 0x10000000000000000) :
    Word.ofJson? (.ofInt i) = some (UInt64.ofInt i) := by
  have hint := Json.int?_ofInt hlow hhigh
  simp only [Json.ofInt] at hint
  simp [Word.ofJson?, Json.ofInt, hint]

theorem describes_word : Describes Word.ofJson? Word.Spelled where
  proper := by
    intro w json h
    cases h with
    | decimal => exact .number (Json.isNumber_decimal _)
    | hexadecimal => exact .string _
    | negative => exact .number (Json.isNumber_signedDecimal _)
  read_eq := by
    intro w json h
    have hlt := w.toNat_lt
    cases h with
    | decimal =>
        rw [Json.ofNat_eq_ofInt, Word.ofJson?_ofInt (by omega) (by omega), Option.some.injEq, eq_comm,
          Word.eq_ofInt_iff]
        exact (Int.emod_eq_of_lt (by omega) (by exact_mod_cast hlt)).symm
    | hexadecimal hx hdigits =>
        have hread := Word.ofHexDigits?_of_numeral hdigits
        simp only [List.mem_cons, List.not_mem_nil, or_false] at hx
        rcases hx with rfl | rfl
        · simpa [Word.ofJson?, Json.ofString, Word.ofText?] using hread
        · simpa [Word.ofJson?, Json.ofString, Word.ofText?] using hread
    | negative hbig =>
        -- the two integers differ by the modulus
        have hsize : (UInt64.size : Int) = 0x10000000000000000 := rfl
        rw [Word.ofJson?_ofInt (by omega) (by omega), Option.some.injEq, eq_comm, Word.eq_ofInt_iff, hsize]
        omega

/-- Numbers of a type whose bounds the reader checks (`intBetween?`). -/
theorem describes_integer {α : Type} {low high : Int} {toInt : α → Int} {ofInt : Int → α}
    (hlow : ∀ x, -0x8000000000000000 ≤ low ∧ low ≤ toInt x) (hhigh : ∀ x, toInt x ≤ high ∧ high < 0x10000000000000000)
    (hinverse : ∀ x, ofInt (toInt x) = x) :
    Describes (fun json => (json.intBetween? low high).map ofInt) (Json.Only fun x => .ofInt (toInt x)) where
  proper := by
    rintro x _ rfl
    exact .number (Json.isNumber_signedDecimal _)
  read_eq := by
    rintro x _ rfl
    obtain ⟨hmin, hlow⟩ := hlow x
    obtain ⟨hhigh, hmax⟩ := hhigh x
    simp only [Json.intBetween?, Json.int?_ofInt (Int.le_trans hmin hlow) (Int.lt_of_le_of_lt hhigh hmax)]
    rw [if_pos ⟨hlow, hhigh⟩, Option.map_some, hinverse]

theorem describes_byte : Describes Byte.ofJson? (Json.Only Byte.toJson) := by
  have hwrite : Byte.toJson = fun b => .ofInt b.toNat := funext fun b => Json.ofNat_eq_ofInt b.toNat
  rw [hwrite]
  refine describes_integer (fun b => ⟨by omega, by omega⟩) (fun b => ⟨?_, by omega⟩) (fun b => by simp)
  have hlt := b.toNat_lt
  omega

theorem describes_line : Describes lineOfJson? (Json.Only fun line => .ofNat line.toNat) := by
  simp only [Json.ofNat_eq_ofInt]
  refine describes_integer (fun line => ⟨by omega, by omega⟩) (fun line => ⟨?_, by omega⟩) (fun line => by simp)
  have hlt := line.toNat_lt
  omega

/-- A signal, or `null`. -/
def signalToJson : Option Int32 → Json
  | some signal => .ofInt signal.toInt
  | none => .null

theorem describes_signal : Describes (Json.nullable? signalOfJson?) (Json.Only signalToJson) := by
  have hsignal : Describes signalOfJson? (Json.Only fun signal => .ofInt signal.toInt) := by
    refine describes_integer (fun signal => ⟨by omega, ?_⟩) (fun signal => ⟨?_, by omega⟩) (fun signal => by simp)
    · have hlow := signal.le_toInt
      omega
    · have hlt := signal.toInt_lt
      omega
  constructor
  · rintro signal _ rfl
    cases signal with
    | none => exact .null
    | some signal => exact hsignal.proper rfl
  · rintro signal _ rfl
    cases signal with
    | none => rfl
    | some signal => simpa [signalToJson, Json.nullable?, Json.ofInt] using hsignal.read_eq rfl

/-! ### Registers and lists of bytes -/

/-- The notations of a list of bytes with their addresses. -/
abbrev BytesSpelled : List (Word × Byte) → Json → Prop :=
  Json.ListOf (Json.PairOf Word.Spelled (Json.Only Byte.toJson))

theorem describes_bytes : Describes bytesOfJson? BytesSpelled :=
  Json.describes_list (Json.describes_pair describes_word describes_byte)

namespace Registers

/-- The notations of register values: `entries` in their order, each value by `Word.Spelled`. -/
inductive Spelled : Registers → Json → Prop
  | intro {registers : Registers} {members : List (Option String × Json)} :
      List.Forall₂ (fun entry member => member.1 = some entry.1 ∧ Word.Spelled entry.2 member.2)
        registers.entries members →
      Spelled registers (.object members)

theorem describes_registers : Describes Registers.ofJson? Spelled where
  proper := by
    rintro _ _ ⟨hmembers⟩
    refine .object fun member hmem => ?_
    obtain ⟨entry, -, hword⟩ := Json.forall₂_exists_left hmembers member hmem
    exact describes_word.proper hword
  read_eq := by
    rintro registers _ ⟨hmembers⟩
    have hread := hmembers.imp fun entry member h => show entryOfJson? member = some entry by
      obtain ⟨hname, hword⟩ := h
      obtain ⟨key, value⟩ := member
      obtain rfl : key = some entry.1 := hname
      simp [entryOfJson?, describes_word.read_eq hword]
    simp [Registers.ofJson?, Json.mapM_of_forall₂ hread]

end Registers

/-! ### Records of the format -/

theorem describes_frame : Describes Frame.ofJson? (Json.Only Frame.toJson) where
  proper := by
    rintro frame _ rfl
    apply Json.proper_ofMembers
    simp [Json.describes_text.proper rfl]
  read_eq := by
    rintro frame _ rfl
    rw [Frame.ofJson?, Frame.toJson, Json.fields?_ofMembers (by rfl) (by decide)]
    simp [Json.optional?, Json.describes_text.read_eq rfl]

/-- The notations of a symbol. -/
inductive Symbol.Spelled (symbol : Symbol) : Json → Prop
  | intro {first finish : Json} : Word.Spelled symbol.first first → Word.Spelled symbol.finish finish →
      Spelled symbol (.ofMembers [("name", .ofString symbol.name), ("start", first), ("end", finish)])

theorem describes_symbol : Describes Symbol.ofJson? Symbol.Spelled where
  proper := by
    rintro symbol _ ⟨hfirst, hfinish⟩
    apply Json.proper_ofMembers
    simp [Json.describes_text.proper rfl, describes_word.proper hfirst, describes_word.proper hfinish]
  read_eq := by
    rintro symbol _ ⟨hfirst, hfinish⟩
    rw [Symbol.ofJson?, Json.fields?_ofMembers (by rfl) (by decide)]
    simp [Json.required?, Json.describes_text.read_eq rfl, describes_word.read_eq hfirst,
      describes_word.read_eq hfinish]

/-- The notations of a step. -/
inductive Step.Spelled (step : Step) : Json → Prop
  | intro {pc registers writes : Json} : Word.Spelled step.pc pc → Registers.Spelled step.registers registers →
      BytesSpelled step.writes writes →
      Spelled step (.ofMembers [("pc", pc), ("asm", .ofString step.asm), ("registers", registers), ("writes", writes),
        ("file", .ofString step.file), ("line", .ofNat step.line.toNat),
        ("frames", .array (step.frames.map Frame.toJson))])

theorem describes_frames (frames : List Frame) :
    (Json.array (frames.map Frame.toJson)).Proper ∧
      Json.list? Frame.ofJson? (.array (frames.map Frame.toJson)) = some frames := by
  have hframes : Json.ListOf (Json.Only Frame.toJson) frames (.array (frames.map Frame.toJson)) :=
    Json.ListOf.map (Json.only_self _) frames
  exact ⟨(Json.describes_list describes_frame).proper hframes, (Json.describes_list describes_frame).read_eq hframes⟩

theorem describes_step : Describes Step.ofJson? Step.Spelled where
  proper := by
    rintro step _ ⟨hpc, hregisters, hwrites⟩
    apply Json.proper_ofMembers
    simp [Json.describes_text.proper rfl, describes_word.proper hpc,
      Registers.describes_registers.proper hregisters, describes_bytes.proper hwrites,
      describes_line.proper rfl, (describes_frames step.frames).1]
  read_eq := by
    rintro step _ ⟨hpc, hregisters, hwrites⟩
    rw [Step.ofJson?, Json.fields?_ofMembers (by rfl) (by decide)]
    simp [Json.optional?, Json.describes_text.read_eq rfl, describes_word.read_eq hpc,
      Registers.describes_registers.read_eq hregisters, describes_bytes.read_eq hwrites,
      describes_line.read_eq rfl, (describes_frames step.frames).2]

/-- The documents that write a recording, each of its words in a notation of its own (`Word.Spelled`). -/
inductive Recording.Spelled (recording : Recording) : Json → Prop
  | intro {executable symbols memory steps : Json} :
      Json.ListOf (Json.PairOf Word.Spelled Word.Spelled) recording.executable executable →
      Json.ListOf Symbol.Spelled recording.symbols symbols → BytesSpelled recording.memory memory →
      Json.ListOf Step.Spelled recording.steps steps →
      Spelled recording (.ofMembers [("arch", .ofString recording.archName), ("signal", signalToJson recording.signal),
        ("executable", executable), ("symbols", symbols), ("memory", memory), ("steps", steps)])

theorem describes_recording : Describes Recording.ofJson? Recording.Spelled where
  proper := by
    rintro recording _ ⟨hexecutable, hsymbols, hmemory, hsteps⟩
    apply Json.proper_ofMembers
    simp [Json.describes_text.proper rfl, describes_signal.proper rfl,
      (Json.describes_list (Json.describes_pair describes_word describes_word)).proper hexecutable,
      (Json.describes_list describes_symbol).proper hsymbols, describes_bytes.proper hmemory,
      (Json.describes_list describes_step).proper hsteps]
  read_eq := by
    rintro recording _ ⟨hexecutable, hsymbols, hmemory, hsteps⟩
    rw [Recording.ofJson?, Json.fields?_ofMembers (by rfl) (by decide)]
    simp [Json.required?, Json.optional?, Json.describes_text.read_eq rfl, describes_signal.read_eq rfl,
      (Json.describes_list (Json.describes_pair describes_word describes_word)).read_eq hexecutable,
      (Json.describes_list describes_symbol).read_eq hsymbols, describes_bytes.read_eq hmemory,
      (Json.describes_list describes_step).read_eq hsteps]

/-! ### The written notation -/

theorem spelled_bytesToJson (bytes : List (Word × Byte)) : BytesSpelled bytes (bytesToJson bytes) :=
  Json.ListOf.map (fun _ => ⟨.decimal, rfl⟩) bytes

theorem Registers.spelled_toJson (registers : Registers) : registers.Spelled registers.toJson := by
  refine ⟨?_⟩
  rw [List.map_map, List.forall₂_map_right_iff, List.forall₂_same]
  exact fun entry _ => ⟨rfl, .decimal⟩

theorem Step.spelled_toJson (step : Step) : step.Spelled step.toJson :=
  ⟨.decimal, step.registers.spelled_toJson, spelled_bytesToJson step.writes⟩

theorem Recording.spelled_toJson (recording : Recording) : recording.Spelled recording.toJson :=
  ⟨Json.ListOf.map (fun _ => ⟨.decimal, .decimal⟩) recording.executable,
    Json.ListOf.map (fun _ => ⟨.decimal, .decimal⟩) recording.symbols, spelled_bytesToJson recording.memory,
    Json.ListOf.map Step.spelled_toJson recording.steps⟩

/-- **Recordings are read back.** `parse?` gets every recording back from its text, and from every text that writes
its words in other notations. -/
theorem Recording.parse?_render_spelled (recording : Recording) :
    recording.Spelled recording.toJson ∧ parse? recording.render = some recording ∧
      ∀ json, recording.Spelled json → parse? json.render = some recording := by
  have hread (json : Json) (h : recording.Spelled json) : parse? json.render = some recording := by
    rw [parse?, Json.parse?_render (describes_recording.proper h)]
    exact describes_recording.read_eq h
  exact ⟨recording.spelled_toJson, hread _ recording.spelled_toJson, hread⟩

/-- A recording of one step at a kernel address. -/
def kernelStep : Recording where
  archName := "amd64"
  signal := some 11
  executable := [(0x400000, 0xffffffff82000000)]
  symbols := [⟨"main", 0x400000, 0x400100⟩]
  memory := [(0xffffffffffffff00, 7)]
  steps := [{ pc := 0xffffffff81000000, asm := "mov\teax, \"7\""
              registers := .ofList [("rax", 0xffffffffffffffff), ("rbx", 0)], writes := [(0x1f, 255)]
              line := 3, frames := [⟨"main", "a.c"⟩] }]

/-- The same recording with its words in three notations. -/
def kernelStepRespelled : Json :=
  .ofMembers [("arch", .ofString "amd64"), ("signal", .ofInt 11),
    ("executable", .array [.array [.ofString "0x00400000", .ofInt (-0x7e000000)]]),
    ("symbols", .array [.ofMembers [("name", .ofString "main"), ("start", .ofNat 0x400000),
      ("end", .ofString "0X400100")]]),
    ("memory", .array [.array [.ofInt (-0x100), .ofNat 7]]),
    ("steps", .array [.ofMembers [("pc", .ofString "0XffffFFFF81000000"), ("asm", .ofString "mov\teax, \"7\""),
      ("registers", .ofMembers [("rax", .ofInt (-1)), ("rbx", .ofNat 0)]),
      ("writes", .array [.array [.ofString "0x1F", .ofNat 255]]), ("file", .ofString ""), ("line", .ofNat 3),
      ("frames", .array [.ofMembers [("function", .ofString "main"), ("file", .ofString "a.c")]])]])]

theorem kernelStep_spelled : kernelStep.Spelled kernelStepRespelled := by
  have hhex {w : Word} {x : Char} (hx : x ∈ ['x', 'X']) (digits : List Char)
      (hdigits : digits ≠ [] ∧ digits.all (Text.isDigitIn 16) = true ∧ Text.valueOf 16 digits = w.toNat) :
      Word.Spelled w (.ofString (String.ofList ('0' :: x :: digits))) :=
    .hexadecimal hx ((Text.numeral_iff (by decide)).mpr ⟨hdigits.1, List.all_eq_true.mp hdigits.2.1, hdigits.2.2⟩)
  refine ⟨⟨.cons ⟨hhex (x := 'x') (by simp) "00400000".toList (by decide), .negative (by decide)⟩ .nil⟩,
    ⟨.cons ⟨.decimal, hhex (x := 'X') (by simp) "400100".toList (by decide)⟩ .nil⟩,
    ⟨.cons ⟨.negative (by decide), rfl⟩ .nil⟩, ⟨.cons ⟨?_, ⟨?_⟩, ⟨.cons ⟨?_, rfl⟩ .nil⟩⟩ .nil⟩⟩
  · exact hhex (x := 'X') (by simp) "ffffFFFF81000000".toList (by decide)
  · exact .cons ⟨rfl, .negative (by decide)⟩ (.cons ⟨rfl, .decimal⟩ .nil)
  · exact hhex (x := 'x') (by simp) "1F".toList (by decide)

theorem Recording.parse?_render_kernelStep :
    parse? kernelStep.render = some kernelStep ∧ parse? kernelStepRespelled.render = some kernelStep := by
  obtain ⟨-, hrender, hspelled⟩ := Recording.parse?_render_spelled kernelStep
  exact ⟨hrender, hspelled _ kernelStep_spelled⟩

end TraceSlice
