import DotMatrix.Proofs.Hardware.Changes
import DotMatrix.Proofs.Memory.Slots

/-!
# What leaves memory alone

The timers and the display keep their state in registers, so the time that passes changes neither
the memory of the machine nor the palettes; nor does turning the display on or off, serving an
interrupt or pressing a button.

* `KeepsMemory` — the relation, and `allowsTurns_memory`, that time keeps it.
* `Reachable.keepsMemory` — so does every operation but a write.
* `byteIn_write` — a write changes the slot that it goes to and no other.
-/

set_option autoImplicit false

namespace DotMatrix.Hardware

/-- Memory and palettes stay as they are. -/
structure KeepsMemory (hw : Hardware) (_ : Array Record) (hw' : Hardware) : Prop where
  video : hw'.bus.video = hw.bus.video
  work : hw'.bus.work = hw.bus.work
  sprites : hw'.bus.sprites = hw.bus.sprites
  palettes : hw'.bus.palettes = hw.bus.palettes

theorem keepsMemory_chains : Exec.Chains KeepsMemory where
  refl _ := ⟨rfl, rfl, rfl, rfl⟩
  trans h h' := ⟨h'.video.trans h.video, h'.work.trans h.work, h'.sprites.trans h.sprites,
    h'.palettes.trans h.palettes⟩

section

variable {hw hw' : Hardware} {records : Array Record}

theorem KeepsMemory.byteIn (h : KeepsMemory hw records hw') (slot : Slot) :
    hw'.bus.byteIn slot = hw.bus.byteIn slot := by
  cases slot with
  | video bank offset => simp only [Bus.byteIn, Slot.cell, Bus.cell, h.video]
  | work bank offset => simp only [Bus.byteIn, Slot.cell, Bus.cell, h.work]
  | sprite offset => simp only [Bus.byteIn, Slot.cell, Bus.cell, h.sprites]

end

/-! ## Time -/

/-- The display and the timers leave memory alone. -/
theorem keepsMemory_covers : CoversTime fun hw hw' ↦ ∀ records, KeepsMemory hw records hw' where
  refl _ _ := ⟨rfl, rfl, rfl, rfl⟩
  trans h h' records := by
    have ht := keepsMemory_chains.trans (h #[]) (h' records)
    rwa [Array.empty_append] at ht
  clock _ _ _ := ⟨rfl, rfl, rfl, rfl⟩
  showing _ _ _ := ⟨rfl, rfl, rfl, rfl⟩
  line _ _ _ := ⟨rfl, rfl, rfl, rfl⟩
  status _ _ := ⟨rfl, rfl, rfl, rfl⟩
  requesting _ _ _ := ⟨rfl, rfl, rfl, rfl⟩
  divider _ _ _ := ⟨rfl, rfl, rfl, rfl⟩
  counter _ _ _ := ⟨rfl, rfl, rfl, rfl⟩
  calendar _ _ := ⟨rfl, rfl, rfl, rfl⟩

/-- Time leaves memory alone. -/
theorem allowsTurns_memory : AllowsTurns KeepsMemory where
  toChains := keepsMemory_chains
  moment _ _ _ := ⟨rfl, rfl, rfl, rfl⟩
  turn h := keepsMemory_covers.allowsTurns.turn h _

/-! ## Operations -/

theorem keepsMemory_press (button : Button) (pressed : Bool) (hw : Hardware) :
    KeepsMemory hw (press button pressed hw).records (press button pressed hw).state := by
  rw [press, Exec.bind_gets]
  split <;> exact ⟨rfl, rfl, rfl, rfl⟩

/-- An operation that is no write leaves memory alone. -/
theorem Reachable.keepsMemory {hw : Hardware} (h : Reachable hw) {op : Operation}
    (hop : ∀ addr value, op ≠ .write addr value) :
    KeepsMemory hw (op.perform hw).records (op.perform hw).state := by
  cases op with
  | write addr value => exact absurd rfl (hop addr value)
  | advance cycles => exact allowsTurns_memory.advance h cycles
  | withdraw source => exact ⟨rfl, rfl, rfl, rfl⟩
  | press button pressed => exact keepsMemory_press button pressed hw

/-- A write stores its byte in the slot that its address selects, whoever listens to it. -/
theorem byteIn_write {hw : Hardware} (hl : DisplayListens hw) (addr : UInt16) (value : UInt8)
    (slot : Slot) :
    (write addr value hw).state.bus.byteIn slot =
      if hw.bus.slot? addr = some slot then value else hw.bus.byteIn slot := by
  by_cases hc : addr = Register.lcdControl
  · subst hc
    have hb := Bus.byteIn_write Register.lcdControl value hw.bus slot
    rw [Bus.write_lcdControl] at hb
    rw [write_lcdControl hl, ← hb]
    have hkept : KeepsMemory (hw.put Register.lcdControl value) #[] _ :=
      keepsMemory_covers.controlled _ value #[]
    exact hkept.byteIn slot
  · rw [write_of_ne hl hc]
    exact Bus.byteIn_write addr value hw.bus slot

end DotMatrix.Hardware
