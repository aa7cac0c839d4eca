import DotMatrix.Proofs.Hardware.Quiet

/-!
# The slots of memory

Memory is made of slots: two banks of video memory, eight of work memory and the sprites.  Which
slot an address selects is stated here in numbers, from the bytes in the two bank registers, and so
apart from the places that the bus keeps its memory in.

* `cell?_place` — an address selects the cell of its slot, or no cell.
* `byteIn_write` — a bus write changes the slot that its address selects and no other.
* `read_of_slot`, `videoByte_eq` — what is read is what is in the slot.
-/

set_option autoImplicit false

namespace DotMatrix

/-- A byte of memory. -/
inductive Slot where
  | video (bank : Fin 2) (offset : Fin 0x2000)
  | work (bank : Fin 8) (offset : Fin 0x1000)
  | sprite (offset : Fin 160)
  deriving DecidableEq

namespace Slot

/-- The bank of video memory that a select byte chooses by its lowest bit. -/
def videoBank (select : UInt8) : Fin 2 := Fin.ofNat 2 select.toNat

/-- The bank of work memory that a select byte chooses by its lowest three bits; 0 stands for 1. -/
def workBank (select : UInt8) : Fin 8 :=
  if select.toNat % 8 = 0 then 1 else Fin.ofNat 8 select.toNat

/-- The slot of video memory at the address `n`. -/
def ofVideo (bank : Fin 2) (n : Nat) : Slot := .video bank (Fin.ofNat 0x2000 (n - 0x8000))

/-- The slot of work memory at the address `n`; the lower half is always bank 0. -/
def ofWork (bank : Fin 8) (n : Nat) : Slot :=
  if n < 0xd000 then .work 0 (Fin.ofNat 0x1000 (n - 0xc000))
  else .work bank (Fin.ofNat 0x1000 (n - 0xd000))

/-- The slot that the address `n` selects, by the bytes in the two bank registers. -/
def select? (videoSelect workSelect : UInt8) (n : Nat) : Option Slot :=
  if 0x8000 ≤ n ∧ n < 0xa000 then some (ofVideo (videoBank videoSelect) n)
  else if 0xc000 ≤ n ∧ n < 0xe000 then some (ofWork (workBank workSelect) n)
  else if 0xe000 ≤ n ∧ n < 0xfe00 then some (ofWork (workBank workSelect) (n - 0x2000))
  else if 0xfe00 ≤ n ∧ n < 0xfea0 then some (.sprite (Fin.ofNat 160 (n - 0xfe00)))
  else none

/-- Every address of video memory, of work memory, of its echo and of the sprites selects a slot. -/
theorem exists_select?_eq_some (videoSelect workSelect : UInt8) {n : Nat}
    (h : (0x8000 ≤ n ∧ n < 0xa000) ∨ (0xc000 ≤ n ∧ n < 0xfea0)) :
    ∃ slot, select? videoSelect workSelect n = some slot := by
  rw [select?]
  split
  · exact ⟨_, rfl⟩
  split
  · exact ⟨_, rfl⟩
  split
  · exact ⟨_, rfl⟩
  split
  · exact ⟨_, rfl⟩
  · omega

/-- Where the bus keeps a slot: the banks lie behind one another. -/
def cell : Slot → Cell
  | .video bank offset => .video ⟨bank.val * 0x2000 + offset.val, by omega⟩
  | .work bank offset => .work ⟨bank.val * 0x1000 + offset.val, by omega⟩
  | .sprite offset => .sprite offset

/-- Different slots are kept in different places. -/
theorem cell_inj {x y : Slot} : x.cell = y.cell ↔ x = y := by
  refine ⟨fun h ↦ ?_, fun h ↦ by rw [h]⟩
  cases x with
  | video bank offset =>
    cases y with
    | video bank' offset' =>
      have hi : bank.val * 0x2000 + offset.val = bank'.val * 0x2000 + offset'.val :=
        Fin.mk.inj (Cell.video.inj h)
      have hb : bank = bank' := Fin.ext (by omega)
      have ho : offset = offset' := Fin.ext (by omega)
      rw [hb, ho]
    | work | sprite => cases h
  | work bank offset =>
    cases y with
    | work bank' offset' =>
      have hi : bank.val * 0x1000 + offset.val = bank'.val * 0x1000 + offset'.val :=
        Fin.mk.inj (Cell.work.inj h)
      have hb : bank = bank' := Fin.ext (by omega)
      have ho : offset = offset' := Fin.ext (by omega)
      rw [hb, ho]
    | video | sprite => cases h
  | sprite offset =>
    cases y with
    | sprite offset' => rw [Cell.sprite.inj h]
    | video | work => cases h

end Slot

/-- The cell that a place is. -/
def Place.cell? : Place → Option Cell
  | .cell x => some x
  | _ => none

namespace Bus

variable (b : Bus)

/-- The slot that an address selects. -/
def slot? (addr : UInt16) : Option Slot :=
  Slot.select? (b.register Register.videoBank) (b.register Register.workBank) addr.toNat

/-- The byte in a slot. -/
def byteIn (slot : Slot) : UInt8 := b.cell slot.cell

/-! ## Which cell an address selects -/

theorem toNat_and_one (x : UInt8) : (x &&& 1).toNat = x.toNat % 2 := by
  rw [UInt8.toNat_and]
  exact Nat.and_one_is_mod x.toNat

theorem toNat_and_seven (x : UInt8) : (x &&& 7).toNat = x.toNat % 8 := by
  rw [UInt8.toNat_and]
  exact Nat.and_two_pow_sub_one_eq_mod x.toNat 3

/-- A byte of video memory lies in the cell of its slot. -/
theorem videoIndex_eq (bank : UInt8) {addr : UInt16} (hge : 0x8000 ≤ addr.toNat)
    (hlt : addr.toNat < 0xa000) :
    Cell.video (videoIndex bank addr) =
      (Slot.ofVideo (Slot.videoBank bank) addr.toNat).cell := by
  have hoffset : (addr - 0x8000).toNat = addr.toNat - 0x8000 :=
    UInt16.toNat_sub_of_le _ _ (UInt16.le_iff_toNat_le.2 hge)
  refine congrArg Cell.video (Fin.ext ?_)
  show ((bank &&& 1).toNat * 0x2000 + (addr - 0x8000).toNat) % 0x4000 =
    bank.toNat % 2 * 0x2000 + (addr.toNat - 0x8000) % 0x2000
  rw [hoffset, toNat_and_one]
  omega

/-- The bank register chooses the same bank of work memory. -/
theorem toNat_workBank :
    (b.workBank &&& 7).toNat = (Slot.workBank (b.register Register.workBank)).val := by
  have hselect := toNat_and_seven (b.register Register.workBank)
  rw [workBank, Slot.workBank]
  by_cases h : b.register Register.workBank &&& 7 = 0
  · have h0 : (b.register Register.workBank).toNat % 8 = 0 := by
      rw [← hselect, h]
      rfl
    rw [if_pos h, if_pos h0]
    rfl
  · have hne : (b.register Register.workBank).toNat % 8 ≠ 0 := fun h0 ↦
      h (UInt8.toNat_inj.1 (hselect.trans h0))
    rw [if_neg h, if_neg hne, toNat_and_seven, hselect, Nat.mod_mod]
    rfl

/-- A byte of work memory lies in the cell of its slot. -/
theorem workCell_eq {addr : UInt16} (hge : 0xc000 ≤ addr.toNat) (hlt : addr.toNat < 0xe000) :
    b.workCell addr =
      (Slot.ofWork (Slot.workBank (b.register Register.workBank)) addr.toNat).cell := by
  rw [workCell, Slot.ofWork]
  by_cases h : addr.toNat < 0xd000
  · rw [if_pos (show addr < 0xd000 from UInt16.lt_iff_toNat_lt.2 h), if_pos h]
    refine congrArg Cell.work (Fin.ext ?_)
    show 0 * 0x1000 + addr.toNat % 0x1000 = 0 * 0x1000 + (addr.toNat - 0xc000) % 0x1000
    omega
  · rw [if_neg (fun hlt : addr < 0xd000 ↦ h (UInt16.lt_iff_toNat_lt.1 hlt)), if_neg h]
    refine congrArg Cell.work (Fin.ext ?_)
    show (b.workBank &&& 7).toNat * 0x1000 + addr.toNat % 0x1000 =
      (Slot.workBank (b.register Register.workBank)).val * 0x1000 + (addr.toNat - 0xd000) % 0x1000
    rw [toNat_workBank]
    omega

/-- **An address selects the cell of its slot**, and no cell when it has none. -/
theorem cell?_place (addr : UInt16) : (b.place addr).cell? = (b.slot? addr).map Slot.cell := by
  rw [place, slot?, Slot.select?]
  simp only [UInt16.lt_iff_toNat_lt, UInt16.reduceToNat]
  let n := addr.toNat
  by_cases h8 : n < 0x8000
  · rw [if_pos h8, if_neg (by omega), if_neg (by omega), if_neg (by omega), if_neg (by omega)]
    rfl
  rw [if_neg h8]
  by_cases ha : n < 0xa000
  · have hbank : Slot.videoBank b.videoBank = Slot.videoBank (b.register Register.videoBank) := by
      refine Fin.ext ?_
      show b.videoBank.toNat % 2 = _
      rw [videoBank, toNat_and_one, Nat.mod_mod]
      rfl
    rw [if_pos ha, if_pos ⟨Nat.le_of_not_lt h8, ha⟩, ← hbank]
    exact congrArg some (videoIndex_eq _ (Nat.le_of_not_lt h8) ha)
  rw [if_neg ha, if_neg (show ¬ (0x8000 ≤ n ∧ n < 0xa000) by omega)]
  by_cases hc : n < 0xc000
  · rw [if_pos hc, if_neg (by omega), if_neg (by omega), if_neg (by omega)]
    rfl
  rw [if_neg hc]
  by_cases he : n < 0xe000
  · rw [if_pos he, if_pos ⟨Nat.le_of_not_lt hc, he⟩]
    exact congrArg some (b.workCell_eq (Nat.le_of_not_lt hc) he)
  rw [if_neg he, if_neg (show ¬ (0xc000 ≤ n ∧ n < 0xe000) by omega)]
  by_cases hf : n < 0xfe00
  · have hecho : (addr - 0x2000).toNat = n - 0x2000 :=
      UInt16.toNat_sub_of_le _ _ (UInt16.le_iff_toNat_le.2 (show 0x2000 ≤ n by omega))
    rw [if_pos hf, if_pos ⟨Nat.le_of_not_lt he, hf⟩, ← hecho]
    exact congrArg some (b.workCell_eq (by omega) (by omega))
  rw [if_neg hf, if_neg (show ¬ (0xe000 ≤ n ∧ n < 0xfe00) by omega)]
  by_cases hs : n < 0xfea0
  · rw [if_pos hs, if_pos ⟨Nat.le_of_not_lt hf, hs⟩]
    rfl
  rw [if_neg hs, if_neg (show ¬ (0xfe00 ≤ n ∧ n < 0xfea0) by omega)]
  split <;> rfl

/-! ## Reading and writing -/

/-- What is stored in one slot is in that slot, and nothing else changes. -/
theorem byteIn_setCell (x y : Slot) (value : UInt8) :
    (b.setCell x.cell value).byteIn y = if x = y then value else b.byteIn y := by
  rw [byteIn, cell_setCell, byteIn]
  simp only [Slot.cell_inj, eq_comm]

/-- An address of a slot reads as the byte in it. -/
theorem read_of_slot {slot : Slot} {addr : UInt16} (h : b.slot? addr = some slot) :
    b.read addr = .ok (b.byteIn slot) := by
  have hcell := b.cell?_place addr
  rw [h, Option.map_some] at hcell
  cases hp : b.place addr <;> rw [hp] at hcell
  case cell x =>
    obtain rfl : x = slot.cell := Option.some.inj hcell
    rw [read, hp]
    rfl
  all_goals cases hcell

/-- A byte of an explicit bank is the byte in its slot. -/
theorem videoByte_eq (bank : UInt8) {addr : UInt16} (hge : 0x8000 ≤ addr.toNat)
    (hlt : addr.toNat < 0xa000) :
    b.videoByte bank addr = b.byteIn (Slot.ofVideo (Slot.videoBank bank) addr.toNat) := by
  rw [byteIn, ← videoIndex_eq bank hge hlt]
  rfl

/-- What is written neither to the cartridge nor to a cell leaves the cells alone. -/
theorem cell_writeRegister (addr : UInt16) (value : UInt8) (b : Bus) (x : Cell) :
    (writeRegister addr value b).state.cell x = b.cell x := by
  have hj : (writeJoypad value b).state.cell x = b.cell x := by
    rw [writeJoypad_apply]
    cases x <;> rfl
  unfold writeRegister
  repeat' split
  · exact hj
  all_goals cases x <;> rfl

/-- **A bus write stores its byte in the slot that its address selects** and leaves all others as
they are. -/
theorem byteIn_write (addr : UInt16) (value : UInt8) (b : Bus) (slot : Slot) :
    (write addr value b).state.byteIn slot =
      if b.slot? addr = some slot then value else b.byteIn slot := by
  have hcell := b.cell?_place addr
  have hnone : (b.place addr).cell? = none → ∀ {s : Bus}, s.cell slot.cell = b.cell slot.cell →
      s.byteIn slot = if b.slot? addr = some slot then value else b.byteIn slot := by
    intro hn s hs
    rw [hn, eq_comm, Option.map_eq_none_iff] at hcell
    rw [hcell, if_neg (by simp)]
    exact hs
  rw [write]
  cases hp : b.place addr with
  | image =>
    refine hnone (by rw [hp]; rfl) ?_
    obtain ⟨_, _, -, hc⟩ := exists_control addr value
    rw [hc]
    cases slot <;> rfl
  | external => exact hnone (by rw [hp]; rfl) (by cases slot <;> rfl)
  | cell x =>
    rw [hp] at hcell
    obtain ⟨s, hs, rfl⟩ := Option.map_eq_some_iff.1 hcell.symm
    rw [hs]
    simp only [Option.some.injEq]
    exact byteIn_setCell b s slot value
  | register => exact hnone (by rw [hp]; rfl) (cell_writeRegister addr value b slot.cell)
  | nothing => exact hnone (by rw [hp]; rfl) rfl

end Bus

end DotMatrix
