import TraceSlice.Proofs.Bytes
import TraceSlice.Proofs.Exactness

/-!
# Saving and restoring on the stack

An instruction that saves, such as a push or a call, writes bytes below the top of the stack (`SavesSlots`); one that
restores, such as a pop or a return, reads them again from where the stack pointer or the frame pointer stands by then
(`RestoresSlots`). The two are decoded apart, from offsets of opposite sign, and the slots of all registers come in
opposite orders. They touch the same bytes nevertheless (`restore_reads_saved_bytes`), so a slice that holds the
second instruction holds the first, as long as some byte between them is left alone.
-/

namespace TraceSlice

open TraceSlice.Expr (Tree)

/-! ### Slots -/

/-- Slots next to each other make up one stretch. -/
theorem exists_slot_iff {count width : Nat} {P : Nat → Prop} :
    (∃ index < count, ∃ k < width, P (index * width + k)) ↔ ∃ j < count * width, P j := by
  constructor
  · intro h
    obtain ⟨index, hindex, k, hk, hP⟩ := h
    refine ⟨index * width + k, ?_, hP⟩
    calc index * width + k < index * width + width := Nat.add_lt_add_left hk _
      _ = (index + 1) * width := (Nat.succ_mul index width).symm
      _ ≤ count * width := Nat.mul_le_mul_right width hindex
  · intro h
    obtain ⟨j, hj, hP⟩ := h
    have hwidth : 0 < width := Nat.pos_of_ne_zero fun hzero => by simp [hzero] at hj
    refine ⟨j / width, (Nat.div_lt_iff_lt_mul hwidth).mpr hj, j % width, Nat.mod_lt j hwidth, ?_⟩
    rwa [Nat.div_add_mod']

/-- Slots that are counted down from the top of a stretch are those counted up from its bottom. -/
theorem slot_below {count index : Nat} (h : index < count) (top : Int) (width k : Nat) :
    top + -((index + 1 : Nat) * width : Int) + k =
      top - (count * width : Nat) + ((count - 1 - index) * width + k : Nat) := by
  obtain ⟨above, rfl⟩ : ∃ above, count = index + 1 + above := ⟨count - (index + 1), by omega⟩
  rw [show index + 1 + above - 1 - index = above by omega]
  push_cast
  ring

/-! ### Effects and their counterparts -/

namespace Decode

/-- Below the top of the stack, the effect writes `count` slots, each below the one before; it writes no other memory.
-/
structure Effect.SavesSlots (arch : Description) (effect : Effect) (count width : Nat) : Prop where
  implied : ∀ args, Reference.implied arch args effect =
    (List.range count).map fun index => Reference.slot arch (-((index + 1 : Nat) * width : Int)) width .destination
  directions : ∀ args, ∀ direction ∈ Reference.directions args effect, direction.writes = false
  calls : ∀ args, Reference.callsSystem arch args effect = false

/-- From the top of the stack on, the effect reads `count` slots, each above the one before; it reads no other memory.
-/
structure Effect.RestoresSlots (arch : Description) (effect : Effect) (count width : Nat) : Prop where
  implied : ∀ args, Reference.implied arch args effect = Reference.popped arch count width
  directions : ∀ args, ∀ direction ∈ Reference.directions args effect, direction.reads = false
  calls : ∀ args, Reference.callsSystem arch args effect = false

namespace Effect

variable {arch : Description} {effect : Effect}

theorem savesSlots_of_mem (h : effect ∈ [Effect.push, .pushFlags, .call, .enter]) :
    effect.SavesSlots arch 1 arch.pointerWidth := by
  simp only [List.mem_cons, List.not_mem_nil, or_false] at h
  obtain rfl | rfl | rfl | rfl := h <;>
    constructor <;>
    simp [Reference.implied, Reference.pushed, Reference.directions, Reference.callsSystem, Direction.writes]

theorem savesSlots_pushAll (h : arch.pointerWidth = 4) (slot : Nat) : (pushAll slot).SavesSlots arch 8 slot := by
  constructor <;> simp [Reference.implied, Reference.directions, Reference.callsSystem, h]

theorem restoresSlots_of_mem (h : effect ∈ [Effect.pop, .popFlags, .nearReturn]) :
    effect.RestoresSlots arch 1 arch.pointerWidth := by
  simp only [List.mem_cons, List.not_mem_nil, or_false] at h
  obtain rfl | rfl | rfl := h <;>
    constructor <;> simp [Reference.implied, Reference.directions, Reference.callsSystem, Direction.reads]

theorem restoresSlots_popAll (h : arch.pointerWidth = 4) (slot : Nat) : (popAll slot).RestoresSlots arch 8 slot := by
  constructor <;> simp [Reference.implied, Reference.directions, Reference.callsSystem, h]

end Effect

/-- The mnemonics that save one slot on the stack. -/
def slotSavers : List String := ["push", "pushf", "pushfd", "pushfq", "call", "callf", "calln"]

/-- The mnemonics that restore one slot from the stack. -/
def slotRestorers : List String := ["pop", "popf", "popfd", "popfq", "ret", "retn"]

/-- A mnemonic that saves and one that restores, the pointer from which the second starts and the number of bytes. -/
inductive Counterparts (arch : Description) : String → String → String → Nat → Prop
  /-- A value, the flags or a return address. -/
  | slot {save restore : String} (hsave : save ∈ slotSavers) (hrestore : restore ∈ slotRestorers) :
      Counterparts arch save restore arch.stackPointer arch.pointerWidth
  /-- A frame pointer. -/
  | frame : Counterparts arch "enter" "leave" arch.framePointer arch.pointerWidth
  /-- The lower halves of all registers. -/
  | words (hwidth : arch.pointerWidth = 4) : Counterparts arch "pusha" "popa" arch.stackPointer 16
  /-- All registers. -/
  | doublewords (hwidth : arch.pointerWidth = 4) : Counterparts arch "pushad" "popad" arch.stackPointer 32

theorem exists_means_of_slotSaver {mnemonic : String} (h : mnemonic ∈ slotSavers) :
    ∃ effect ∈ [Effect.push, .pushFlags, .call, .enter], Means mnemonic effect := by
  have htable : ∀ mnemonic ∈ slotSavers,
      ∃ effect ∈ [Effect.push, .pushFlags, .call, .enter], Means mnemonic effect := by
    decide +kernel
  exact htable mnemonic h

theorem exists_means_of_slotRestorer {mnemonic : String} (h : mnemonic ∈ slotRestorers) :
    ∃ effect ∈ [Effect.pop, .popFlags, .nearReturn], Means mnemonic effect := by
  have htable : ∀ mnemonic ∈ slotRestorers, ∃ effect ∈ [Effect.pop, .popFlags, .nearReturn], Means mnemonic effect := by
    decide +kernel
  exact htable mnemonic h

/-- The other mnemonics that save or restore, and the effects that they `Means`. -/
theorem means_of_mem {mnemonic : String} {effect : Effect}
    (h : (mnemonic, effect) ∈ [("enter", Effect.enter), ("leave", .leave), ("pusha", .pushAll 2), ("popa", .popAll 2),
      ("pushad", .pushAll 4), ("popad", .popAll 4)]) : Means mnemonic effect := by
  have htable : ∀ entry ∈ [("enter", Effect.enter), ("leave", .leave), ("pusha", .pushAll 2), ("popa", .popAll 2),
      ("pushad", .pushAll 4), ("popad", .popAll 4)], Means entry.1 entry.2 := by
    decide +kernel
  exact htable (mnemonic, effect) h

end Decode

/-! ### All registers at once -/

namespace Decode.Context

variable {ctx : Context} {name : String} {direction : Direction} {use : Use} {r : Register} {slot : Nat}

theorem mem_register : use ∈ ctx.register name direction ↔
    ∃ r, ctx.arch.register? name = some r ∧
      use = ⟨direction, .ofRegister r (ctx.view.evaluate (registerExpression r.name))⟩ := by
  unfold register registerOperand?
  cases ctx.arch.register? name <;> simp

theorem direction_of_mem_stackSlot {offset : Int} {width : Nat} (h : use ∈ ctx.stackSlot offset width .source) :
    use.direction = .source := by
  have href : use ∈ ctx.refer (Reference.slot ctx.arch offset width .source) := h
  obtain ⟨r, -, rfl⟩ | ⟨-, k, -, rfl⟩ := mem_refer.mp href <;> rfl

theorem exists_register_of_mem_popAll (huse : use ∈ ctx.popAll slot) (hwrites : use.direction.writes = true)
    (hr : use.operand.register? = some r) :
    ∃ name ∈ ctx.arch.stackPointer :: savedRegisters slot, ctx.arch.register? name = some r := by
  obtain hslot | hpointer := List.mem_append.mp huse
  · obtain ⟨⟨name, index⟩, hentry, huse⟩ := List.mem_flatMap.mp hslot
    have hname : name ∈ savedRegisters slot := List.mem_reverse.mp (List.fst_mem_of_mem_zipIdx hentry)
    obtain hread | hrestored := List.mem_append.mp huse
    · rw [direction_of_mem_stackSlot hread] at hwrites
      cases hwrites
    · split at hrestored
      · cases hrestored
      · obtain ⟨other, hother, rfl⟩ := mem_register.mp hrestored
        exact ⟨name, List.mem_cons_of_mem _ hname, hother.trans hr⟩
  · obtain ⟨other, hother, rfl⟩ := mem_register.mp hpointer
    exact ⟨_, List.mem_cons_self, hother.trans hr⟩

theorem exists_mem_pushAll_of_saved (hname : name ∈ savedRegisters slot) (hr : ctx.arch.register? name = some r) :
    ∃ use ∈ ctx.pushAll slot, use.direction.reads = true ∧ use.operand.register? = some r := by
  obtain ⟨index, hindex⟩ := List.mem_iff_getElem?.mp hname
  have hentry : (name, index) ∈ (savedRegisters slot).zipIdx := List.mem_zipIdx_iff_getElem?.mpr hindex
  have huse : (⟨.source, .ofRegister r (ctx.view.evaluate (registerExpression r.name))⟩ : Use) ∈ ctx.pushAll slot := by
    refine List.mem_append_left _ (List.mem_flatMap.mpr ⟨_, hentry, ?_⟩)
    exact List.mem_append_right _ (mem_register.mpr ⟨r, hr, rfl⟩)
  exact ⟨_, huse, rfl, rfl⟩

end Decode.Context

/-! ### Bytes of stack slots -/

namespace Replay

open Decode

variable {replay : Replay} {lastReturn pc : Word} {text : String} {effect : Effect} {count width : Nat} {r : Register}
  {top a : Word}

theorem touches_slot {offset : Int} (hoffset : offset.natAbs < UInt64.size) {direction : Direction}
    (htop : replay.registerValue? replay.arch.description.stackPointer = some top) :
    (contextOf replay.arch.description (Backend.view replay) text).Touches
        (Reference.slot replay.arch.description offset width direction) a ↔
      ∃ k < width, a = UInt64.ofInt (top.toNat + offset + k) := by
  obtain ⟨r, hr, -, hrelative⟩ := replay.arch.pointer_of_role List.mem_cons_self
  exact touches_displaced (Reference.written_slot hr hoffset width direction) hr hrelative htop

/-- What is saved (`SavesSlots`) fills the stretch below the top of the stack. -/
theorem mem_writtenBytes_of_saves (hmeans : Means (replay.decoded lastReturn pc text).mnemonic effect)
    (hsaves : effect.SavesSlots replay.arch.description count width) (hsize : count * width < UInt64.size)
    (htop : replay.registerValue? replay.arch.description.stackPointer = some top) :
    a ∈ (replay.decoded lastReturn pc text).writtenBytes ↔
      a ∈ bytesFrom (top - UInt64.ofNat (count * width)) (count * width) := by
  have hbottom : top - UInt64.ofNat (count * width) = UInt64.ofInt (top.toNat - (count * width : Nat)) := by
    rw [Int.sub_eq_add_neg, UInt64.ofInt_add, UInt64.ofInt_neg, Expr.ofInt_toNat, ofInt_natCast, UInt64.sub_eq_add_neg]
  -- slots are counted from the bottom here, while the instruction fills them from the top down
  have hslot : ∀ index < count,
      ((contextOf replay.arch.description (Backend.view replay) text).Touches
          (Reference.slot replay.arch.description (-((index + 1 : Nat) * width : Int)) width .destination) a ↔
        ∃ k < width,
          a = UInt64.ofInt (top.toNat - (count * width : Nat) + ((count - 1 - index) * width + k : Nat))) := by
    intro index hindex
    have hle : (index + 1) * width ≤ count * width := Nat.mul_le_mul_right width hindex
    have hoffset : (-((index + 1 : Nat) * width : Int)).natAbs < UInt64.size := by
      rw [Int.natAbs_neg]
      exact Nat.lt_of_le_of_lt (by exact_mod_cast hle) hsize
    simp only [touches_slot hoffset htop, slot_below hindex]
  rw [decoded, mem_writtenBytes_of_means hmeans (hsaves.directions _) (hsaves.calls _), hsaves.implied, hbottom,
    mem_bytesFrom_ofInt, ← exists_slot_iff]
  constructor
  · intro h
    obtain ⟨ref, href, -, htouches⟩ := h
    obtain ⟨index, hindex, rfl⟩ := List.mem_map.mp href
    have hlt := List.mem_range.mp hindex
    exact ⟨count - 1 - index, by omega, (hslot index hlt).mp htouches⟩
  · intro h
    obtain ⟨index, hindex, hbyte⟩ := h
    have hback : count - 1 - (count - 1 - index) = index := by omega
    refine ⟨_, List.mem_map.mpr ⟨count - 1 - index, List.mem_range.mpr (by omega), rfl⟩, rfl, ?_⟩
    rw [hslot _ (by omega), hback]
    exact hbyte

/-- What is restored (`RestoresSlots`) fills the stretch from the top of the stack on. -/
theorem mem_readBytes_of_restores (hmeans : Means (replay.decoded lastReturn pc text).mnemonic effect)
    (hrestores : effect.RestoresSlots replay.arch.description count width) (hsize : count * width < UInt64.size)
    (htop : replay.registerValue? replay.arch.description.stackPointer = some top) :
    a ∈ (replay.decoded lastReturn pc text).readBytes ↔ a ∈ bytesFrom top (count * width) := by
  have hslot : ∀ index < count,
      ((contextOf replay.arch.description (Backend.view replay) text).Touches
          (Reference.slot replay.arch.description ((index * width : Nat) : Int) width .source) a ↔
        ∃ k < width, a = UInt64.ofInt (top.toNat + (index * width + k : Nat))) := by
    intro index hindex
    have hle : index * width ≤ count * width := Nat.mul_le_mul_right width (Nat.le_of_lt hindex)
    have hoffset : ((index * width : Nat) : Int).natAbs < UInt64.size := by
      rw [Int.natAbs_natCast]
      exact Nat.lt_of_le_of_lt hle hsize
    simp only [touches_slot hoffset htop, Int.add_assoc, Int.natCast_add]
  rw [decoded, mem_readBytes_of_means hmeans (hrestores.directions _) (hrestores.calls _), hrestores.implied,
    ← Expr.ofInt_toNat top, mem_bytesFrom_ofInt, ← exists_slot_iff]
  constructor
  · intro h
    obtain ⟨ref, href, -, htouches⟩ := h
    obtain ⟨index, hindex, rfl⟩ := List.mem_map.mp href
    have hlt := List.mem_range.mp hindex
    exact ⟨index, hlt, (hslot index hlt).mp htouches⟩
  · intro h
    obtain ⟨index, hindex, hbyte⟩ := h
    exact ⟨_, List.mem_map.mpr ⟨index, List.mem_range.mpr hindex, rfl⟩, rfl, (hslot index hindex).mpr hbyte⟩

/-- `leave` reads the slot that the frame pointer points at. -/
theorem mem_readBytes_of_leave (hmeans : Means (replay.decoded lastReturn pc text).mnemonic .leave)
    (htop : replay.registerValue? replay.arch.description.framePointer = some top) :
    a ∈ (replay.decoded lastReturn pc text).readBytes ↔ a ∈ bytesFrom top replay.arch.description.pointerWidth := by
  obtain ⟨r, hr, -, hrelative⟩ := replay.arch.pointer_of_role (List.mem_cons_of_mem _ List.mem_cons_self)
  have hslot : (contextOf replay.arch.description (Backend.view replay) text).Touches
      (Reference.through replay.arch.description.framePointer replay.arch.description.pointerWidth .source) a ↔
        ∃ k < replay.arch.description.pointerWidth, a = UInt64.ofInt (top.toNat + (0 : Int) + k) :=
    touches_displaced (Reference.written_through hr _ .source) hr hrelative htop
  rw [Int.add_zero] at hslot
  rw [decoded, mem_readBytes_of_means hmeans (by simp [Reference.directions]) rfl, ← Expr.ofInt_toNat top,
    mem_bytesFrom_ofInt, ← hslot]
  constructor
  · intro h
    obtain ⟨ref, href, -, htouches⟩ := h
    rwa [List.mem_singleton.mp href] at htouches
  · intro h
    exact ⟨_, List.mem_cons_self, rfl, h⟩

/-! ### Registers -/

/-- Whatever saves on the stack (`SavesSlots`) reads the stack pointer, which forms the addresses. -/
theorem stackPointer_mem_readRegisters (hmeans : Means (replay.decoded lastReturn pc text).mnemonic effect)
    (hsaves : effect.SavesSlots replay.arch.description count width) (hcount : 0 < count) (hwidth : width < UInt64.size)
    (hr : replay.arch.description.register? replay.arch.description.stackPointer = some r) :
    r ∈ (replay.decoded lastReturn pc text).readRegisters := by
  have hoffset : (-((0 + 1 : Nat) * width : Int)).natAbs < UInt64.size := by simpa using hwidth
  have hregisters := Reference.registers_of_written replay.arch.legible
    (Reference.written_slot hr hoffset width .destination)
  rw [Tree.registers_displaced hr] at hregisters
  have href : Reference.slot replay.arch.description (-((0 + 1 : Nat) * width : Int)) width .destination ∈
      Decode.references replay.arch.description (Backend.view replay) lastReturn text := by
    refine mem_references_of_implied hmeans ?_
    rw [hsaves.implied]
    exact List.mem_map.mpr ⟨0, List.mem_range.mpr hcount, rfl⟩
  have huse : (⟨.source, .addressRegister r (addressValue replay.arch.description (Backend.view replay) r)⟩ : Use) ∈
      (contextOf replay.arch.description (Backend.view replay) text).refer
        (Reference.slot replay.arch.description (-((0 + 1 : Nat) * width : Int)) width .destination) :=
    Context.mem_refer.mpr (.inl ⟨r, hregisters.symm ▸ List.mem_singleton_self r, rfl⟩)
  exact List.mem_filterMap.mpr ⟨_, (mem_sources_decode rfl).mpr ⟨_, href, _, huse, rfl, rfl⟩, rfl⟩

variable {saving restoring : Replay} {lastReturn' pc' : Word} {text' : String}

/-- When all registers are restored (`popAll`), each register that is written was read when all were saved
(`pushAll`). -/
theorem writtenRegisters_subset_readRegisters (harch : restoring.arch = saving.arch)
    (hpointer : saving.arch.description.pointerWidth = 4) {slot : Nat} (hslot : slot < UInt64.size)
    (hsaves : Means (saving.decoded lastReturn pc text).mnemonic (.pushAll slot))
    (hrestores : Means (restoring.decoded lastReturn' pc' text').mnemonic (.popAll slot)) :
    (restoring.decoded lastReturn' pc' text').writtenRegisters ⊆ (saving.decoded lastReturn pc text).readRegisters := by
  intro r hr
  obtain ⟨operand, hoperand, hregister⟩ := List.mem_filterMap.mp hr
  rw [decoded, destinations_decode, uses_of_means hrestores (by simp)] at hoperand
  obtain ⟨use, hfiltered, rfl⟩ := List.mem_map.mp hoperand
  obtain ⟨huse, hwrites⟩ := List.mem_filter.mp hfiltered
  simp only [Context.footprint, Context.uses, contextOf, harch, hpointer, if_true] at huse
  obtain ⟨name, hname, hfound⟩ := Context.exists_register_of_mem_popAll huse hwrites hregister
  obtain rfl | hsaved := List.mem_cons.mp hname
  · exact stackPointer_mem_readRegisters hsaves (Effect.savesSlots_pushAll hpointer slot) (by decide) hslot hfound
  · have hread : ∃ use ∈ (contextOf saving.arch.description (Backend.view saving) text).pushAll slot,
        use.direction.reads = true ∧ use.operand.register? = some r :=
      Context.exists_mem_pushAll_of_saved hsaved hfound
    obtain ⟨use, huse, hreads, hregister⟩ := hread
    refine List.mem_filterMap.mpr ⟨use.operand, ?_, hregister⟩
    rw [decoded, sources_decode, uses_of_means hsaves (by simp)]
    refine List.mem_map.mpr ⟨use, List.mem_filter.mpr ⟨?_, hreads⟩, rfl⟩
    simpa [Context.footprint, Context.uses, contextOf, hpointer] using huse

/-! ### Counterparts -/

variable {save restore pointer : String} {size : Nat}

/-- An instruction that saves writes the bytes below the top of the stack: `Counterparts` by cases. -/
theorem mem_writtenBytes_of_counterparts (hpair : Counterparts replay.arch.description save restore pointer size)
    (hmnemonic : (replay.decoded lastReturn pc text).mnemonic = save)
    (htop : replay.registerValue? replay.arch.description.stackPointer = some top) :
    a ∈ (replay.decoded lastReturn pc text).writtenBytes ↔ a ∈ bytesFrom (top - UInt64.ofNat size) size := by
  have hone (effect : Effect) (heffect : effect ∈ [Effect.push, .pushFlags, .call, .enter])
      (hmeans : Means save effect) :
      a ∈ (replay.decoded lastReturn pc text).writtenBytes ↔
        a ∈ bytesFrom (top - UInt64.ofNat replay.arch.description.pointerWidth)
          replay.arch.description.pointerWidth := by
    have hsmall : 1 * replay.arch.description.pointerWidth < UInt64.size := by cases replay.arch <;> decide
    rw [← hmnemonic] at hmeans
    simpa using mem_writtenBytes_of_saves (a := a) hmeans (Effect.savesSlots_of_mem heffect) hsmall htop
  have hall (slot : Nat) (hwidth : replay.arch.description.pointerWidth = 4) (hslot : 8 * slot < UInt64.size)
      (hmeans : Means save (.pushAll slot)) :
      a ∈ (replay.decoded lastReturn pc text).writtenBytes ↔
        a ∈ bytesFrom (top - UInt64.ofNat (8 * slot)) (8 * slot) := by
    rw [← hmnemonic] at hmeans
    exact mem_writtenBytes_of_saves hmeans (Effect.savesSlots_pushAll hwidth slot) hslot htop
  cases hpair with
  | slot hsave hrestore =>
      obtain ⟨effect, heffect, hmeans⟩ := exists_means_of_slotSaver hsave
      exact hone effect heffect hmeans
  | frame => exact hone .enter (by simp) (means_of_mem (by simp))
  | words hwidth => exact hall 2 hwidth (by decide) (means_of_mem (by simp))
  | doublewords hwidth => exact hall 4 hwidth (by decide) (means_of_mem (by simp))

/-- An instruction that restores reads the bytes from its pointer on: `Counterparts` by cases. -/
theorem mem_readBytes_of_counterparts (hpair : Counterparts replay.arch.description save restore pointer size)
    (hmnemonic : (replay.decoded lastReturn pc text).mnemonic = restore)
    (htop : replay.registerValue? pointer = some top) :
    a ∈ (replay.decoded lastReturn pc text).readBytes ↔ a ∈ bytesFrom top size := by
  have hall (slot : Nat) (hwidth : replay.arch.description.pointerWidth = 4) (hslot : 8 * slot < UInt64.size)
      (hmeans : Means restore (.popAll slot))
      (htop : replay.registerValue? replay.arch.description.stackPointer = some top) :
      a ∈ (replay.decoded lastReturn pc text).readBytes ↔ a ∈ bytesFrom top (8 * slot) := by
    rw [← hmnemonic] at hmeans
    exact mem_readBytes_of_restores hmeans (Effect.restoresSlots_popAll hwidth slot) hslot htop
  cases hpair with
  | slot hsave hrestore =>
      obtain ⟨effect, heffect, hmeans⟩ := exists_means_of_slotRestorer hrestore
      have hsmall : 1 * replay.arch.description.pointerWidth < UInt64.size := by cases replay.arch <;> decide
      rw [← hmnemonic] at hmeans
      simpa using mem_readBytes_of_restores (a := a) hmeans (Effect.restoresSlots_of_mem heffect) hsmall htop
  | frame =>
      refine mem_readBytes_of_leave ?_ htop
      rw [hmnemonic]
      exact means_of_mem (by simp)
  | words hwidth => exact hall 2 hwidth (by decide) (means_of_mem (by simp)) htop
  | doublewords hwidth => exact hall 4 hwidth (by decide) (means_of_mem (by simp)) htop

/-- An instruction that restores all registers writes only registers that its counterpart reads. -/
theorem writtenRegisters_of_counterparts (harch : restoring.arch = saving.arch)
    (hpair : Counterparts saving.arch.description save restore pointer size) (hall : restore ∈ ["popa", "popad"])
    (hsave : (saving.decoded lastReturn pc text).mnemonic = save)
    (hrestore : (restoring.decoded lastReturn' pc' text').mnemonic = restore) :
    (restoring.decoded lastReturn' pc' text').writtenRegisters ⊆ (saving.decoded lastReturn pc text).readRegisters := by
  have hslots (slot : Nat) (hwidth : saving.arch.description.pointerWidth = 4) (hslot : slot < UInt64.size)
      (hsaves : Means save (.pushAll slot)) (hrestores : Means restore (.popAll slot)) :
      (restoring.decoded lastReturn' pc' text').writtenRegisters ⊆
        (saving.decoded lastReturn pc text).readRegisters := by
    rw [← hsave] at hsaves
    rw [← hrestore] at hrestores
    exact writtenRegisters_subset_readRegisters harch hwidth hslot hsaves hrestores
  cases hpair with
  | slot hsaver hrestorer =>
      have hother : ∀ mnemonic ∈ slotRestorers, mnemonic ∉ ["popa", "popad"] := by decide +kernel
      exact absurd hall (hother restore hrestorer)
  | frame => exact absurd hall (by decide)
  | words hwidth => exact hslots 2 hwidth (by decide) (means_of_mem (by simp)) (means_of_mem (by simp))
  | doublewords hwidth => exact hslots 4 hwidth (by decide) (means_of_mem (by simp)) (means_of_mem (by simp))

theorem arch_rewoundTo (replay : Replay) (p : Nat) : (replay.rewoundTo p).arch = replay.arch := by
  unfold rewoundTo
  induction replay.position - p with
  | zero => rfl
  | succ n ih => rw [Function.iterate_succ_apply', arch_back, ih]

end Replay

/-! ### Through a slice -/

theorem Operand.place?_eq_byte_iff {operand : Operand} {a : Word} :
    operand.place? = some (.byte a) ↔ operand.address? = some a := by
  unfold Operand.place? Operand.address?
  cases operand.location <;> simp [Location.place?]

namespace Session

variable {s : Session Replay} {p q : Nat} {a top : Word}

theorem insnAt_eq_decoded (harch : s.arch = s.backend.arch) (p : Nat) :
    ∃ lastReturn pc text, s.insnAt p = (s.backend.rewoundTo p).decoded lastReturn pc text := by
  unfold insnAt instructionAt Replay.decoded
  rw [Replay.arch_rewoundTo, ← harch]
  exact ⟨_, _, _, rfl⟩

theorem byte_mem_defsAt : .byte a ∈ s.defsAt p ↔ a ∈ (s.insnAt p).writtenBytes := by
  simp only [defsAt, mem_placesOf, Instruction.writtenBytes, List.mem_filterMap, Operand.place?_eq_byte_iff]

/-- No byte of memory is ignored, so `usesAt` has all that are read. -/
theorem byte_mem_usesAt (h : a ∈ (s.insnAt p).readBytes) : .byte a ∈ s.usesAt p := by
  obtain ⟨operand, hoperand, haddress⟩ := List.mem_filterMap.mp h
  have hplace := Operand.place?_eq_byte_iff.mpr haddress
  have hregister : operand.register? = none := by
    unfold Operand.address? at haddress
    unfold Operand.register?
    split at haddress
    · next hlocation => rw [hlocation]
    · cases haddress
  have hkept : (s.standing p).isIgnored operand = false := by
    simp [isIgnored, Operand.isImmediate, hplace, hregister]
  exact mem_placesOf.mpr ⟨operand, List.mem_filter.mpr ⟨hoperand, by simp [hkept]⟩, hplace⟩

/-- **What is saved on the stack is what is restored.** Let a mnemonic that saves and one that restores be counterparts.
Decoded with the stack pointer at `top`, the first writes the bytes below `top`, and no others, whatever its arguments
are. Decoded with its pointer as far below `top` as those bytes go, the second reads these bytes, and no others. If it
restores all registers, it writes only registers that the first reads. So if both stand on the way of a session, the
second belongs to its slice and some byte is not written between them, then the first belongs to the slice, and a walk
that runs on and reaches the first adds both. -/
theorem restore_reads_saved_bytes (arch : Arch) {save restore pointer : String} {size : Nat}
    (hpair : Decode.Counterparts arch.description save restore pointer size) (top : Word) :
    (∀ (saving restoring : Replay) (lastReturn lastReturn' pc pc' : Word) (text text' : String),
      saving.arch = arch → restoring.arch = arch →
      saving.registerValue? arch.description.stackPointer = some top →
      restoring.registerValue? pointer = some (top - UInt64.ofNat size) →
      let saved := saving.decoded lastReturn pc text
      let restored := restoring.decoded lastReturn' pc' text'
      saved.mnemonic = save → restored.mnemonic = restore →
      (∀ a, a ∈ saved.writtenBytes ↔ a ∈ bytesFrom (top - UInt64.ofNat size) size) ∧
        (∀ a, a ∈ restored.readBytes ↔ a ∈ saved.writtenBytes) ∧
        (restore ∈ ["popa", "popad"] → restored.writtenRegisters ⊆ saved.readRegisters)) ∧
    ∀ (s : Session Replay) (p q : Nat), s.arch = arch → s.backend.arch = arch →
      (s.backend.rewoundTo p).registerValue? arch.description.stackPointer = some top →
      (s.backend.rewoundTo q).registerValue? pointer = some (top - UInt64.ofNat size) →
      (s.insnAt p).mnemonic = save → (s.insnAt q).mnemonic = restore →
      p < q → s.Visitable p → s.Sliced q →
      (∃ a ∈ bytesFrom (top - UInt64.ofNat size) size, ∀ r, p < r → r < q → .byte a ∉ s.defsAt r) →
      s.Sliced p ∧
        (s.HookFree → s.Clean → s.Reached p →
          ∃ ps : List Nat, ps.Pairwise (· > ·) ∧ p ∈ ps ∧ q ∈ ps ∧
            (s.compute [] .run).1.slice.instructions = s.slice.instructions ++ ps.map s.locatedAt) := by
  constructor
  · intro saving restoring lastReturn lastReturn' pc pc' text text' hsaving hrestoring htop hbottom saved restored
      hsave hrestore
    subst hsaving
    have hpair' := hpair
    rw [← hrestoring] at hpair'
    have hwritten (a : Word) := Replay.mem_writtenBytes_of_counterparts (a := a) hpair hsave htop
    refine ⟨hwritten, fun a => ?_, fun hall => ?_⟩
    · rw [hwritten a, Replay.mem_readBytes_of_counterparts hpair' hrestore hbottom]
    · exact Replay.writtenRegisters_of_counterparts hrestoring hpair hall hsave hrestore
  · intro s p q hsession hbackend htop hbottom hsave hrestore hlt hvisit hsliced hleft
    obtain ⟨a, ha, hnewest⟩ := hleft
    have harch : s.arch = s.backend.arch := hsession.trans hbackend.symm
    have hpair' (p : Nat) : Decode.Counterparts (s.backend.rewoundTo p).arch.description save restore pointer size := by
      rwa [Replay.arch_rewoundTo, hbackend]
    obtain ⟨lastReturn, pc, text, hinsn⟩ := insnAt_eq_decoded harch p
    obtain ⟨lastReturn', pc', text', hinsn'⟩ := insnAt_eq_decoded harch q
    rw [← hbackend, ← s.backend.arch_rewoundTo p] at htop
    -- one byte that nothing in between writes is enough to link the two positions
    have hdef : .byte a ∈ s.defsAt p := by
      rw [byte_mem_defsAt, hinsn, Replay.mem_writtenBytes_of_counterparts (hpair' p) (hinsn ▸ hsave) htop]
      exact ha
    have huse : .byte a ∈ s.usesAt q := by
      refine byte_mem_usesAt ?_
      rw [hinsn', Replay.mem_readBytes_of_counterparts (hpair' q) (hinsn' ▸ hrestore) hbottom]
      exact ha
    have hsaves : s.Sliced p := .source hvisit hdef hsliced hlt huse hnewest
    refine ⟨hsaves, fun hfree hclean hreached => ?_⟩
    obtain ⟨ps, hsorted, hmem, hinsns⟩ := hfree.instructions_compute hclean
    have hlater : s.Reached q := hreached.mono (Nat.le_of_lt hlt) hsliced.visitable.1
    exact ⟨ps, hsorted, (hmem p).mpr ⟨hsaves, hreached⟩, (hmem q).mpr ⟨hsliced, hlater⟩, hinsns⟩

end Session

/-- All registers are saved, one is overwritten, and all are restored. -/
def savedAndRestored : Recording where
  archName := "i386"
  steps :=
    [{ pc := 0x1000, asm := "pusha", registers := .ofList [("esp", 8), ("ebx", 7), ("ecx", 0)] },
      { pc := 0x1001, asm := "mov ebx,ecx", registers := .ofList [("esp", 0xfffffffffffffff8)] },
      { pc := 0x1003, asm := "popa", registers := .ofList [("ebx", 0)] }]

namespace Session

/-- The overwritten register is tracked, which the last step restores: the first step belongs to its slice, through
bytes of which the lowest lie at the end of the address space. -/
theorem restore_reads_saved_bytes_of_all_registers :
    ∃ s ∈ (ofRecording? savedAndRestored {}).map (·.serveAll [.track "$ebx"]),
      (s.insnAt 0).text = "pusha" ∧ (s.insnAt 2).text = "popa" ∧
      (let saved := (s.backend.rewoundTo 0).decoded 0 0x1000 "pusha"
        let restored := (s.backend.rewoundTo 2).decoded 0 0x1003 "popa"
        (∀ a, a ∈ restored.readBytes ↔ a ∈ saved.writtenBytes) ∧
          restored.writtenRegisters ⊆ saved.readRegisters ∧ restored.writtenRegisters.length = 8) ∧
      s.Sliced 2 ∧ .byte 0xfffffffffffffff8 ∈ s.defsAt 0 ∧ s.Sliced 0 ∧
      ∃ ps : List Nat, ps.Pairwise (· > ·) ∧ 0 ∈ ps ∧ 2 ∈ ps ∧
        (s.compute [] .run).1.slice.instructions = s.slice.instructions ++ ps.map s.locatedAt := by
  have hready : ∃ s ∈ (ofRecording? savedAndRestored {}).map (·.serveAll [.track "$ebx"]),
      (s.insnAt 0).text = "pusha" ∧ (s.insnAt 2).text = "popa" ∧ s.backend.position = 2 ∧
      s.arch = .x86 ∧ s.backend.arch = .x86 ∧
      (s.backend.rewoundTo 0).registerValue? Arch.x86.description.stackPointer = some 8 ∧
      (s.backend.rewoundTo 2).registerValue? Arch.x86.description.stackPointer = some (8 - UInt64.ofNat 16) ∧
      (s.insnAt 0).mnemonic = "pusha" ∧ (s.insnAt 2).mnemonic = "popa" ∧
      ((s.backend.rewoundTo 0).decoded 0 0x1000 "pusha").mnemonic = "pusha" ∧
      ((s.backend.rewoundTo 2).decoded 0 0x1003 "popa").mnemonic = "popa" ∧
      ((s.backend.rewoundTo 2).decoded 0 0x1003 "popa").writtenRegisters.length = 8 ∧
      (∃ x ∈ s.slice.tracked.places, x ∈ s.defsAt 2) ∧ .byte 0xfffffffffffffff8 ∉ s.defsAt 1 ∧
      .byte 0xfffffffffffffff8 ∈ s.defsAt 0 ∧
      ((s.standing 1).remember (s.insnAt 1)).moves = true ∧ ((s.standing 2).remember (s.insnAt 2)).moves = true ∧
      s.HookFree ∧ s.Clean ∧ s.slice.followed = none := by
    decide +kernel
  obtain ⟨s, hs, hpusha, hpopa, hposition, harch, hbackend, htop, hbottom, hsave, hrestore, hsave', hrestore', height,
    ⟨x, hx, hdef⟩, hbetween, hbyte, hone, htwo, hfree, hclean, hnone⟩ := hready
  have hvisit : s.Visitable 0 := by
    refine ⟨by omega, fun q hlt hq => ?_⟩
    rw [reverseStep_eq]
    obtain rfl | rfl : q = 1 ∨ q = 2 := by omega
    · rw [hone]
    · rw [htwo]
  have hsliced : s.Sliced 2 := .seed ⟨by omega, fun q hlt hq => by omega⟩ hdef hx fun q hlt hq => by omega
  obtain ⟨hreplays, hsession⟩ := restore_reads_saved_bytes .x86 (.words rfl) 8
  obtain ⟨-, hbytes, hregisters⟩ := hreplays _ _ 0 0 0x1000 0x1003 "pusha" "popa"
    ((Replay.arch_rewoundTo _ 0).trans hbackend) ((Replay.arch_rewoundTo _ 2).trans hbackend) htop hbottom hsave'
    hrestore'
  -- the stack pointer is eight, so the sixteen saved bytes wrap around zero; the link is one of those below
  have hleft : ∀ r, 0 < r → r < 2 → .byte 0xfffffffffffffff8 ∉ s.defsAt r := by
    intro r hlt hr
    obtain rfl : r = 1 := by omega
    exact hbetween
  obtain ⟨hsaved, hwalk⟩ := hsession s 0 2 harch hbackend htop hbottom hsave hrestore (by omega) hvisit hsliced
    ⟨0xfffffffffffffff8, by decide +kernel, hleft⟩
  exact ⟨s, hs, hpusha, hpopa, ⟨hbytes, hregisters (by decide), height⟩, hsliced, hbyte, hsaved,
    hwalk hfree hclean ((reached_iff_visitable hnone).mpr hvisit)⟩

end Session

end TraceSlice
