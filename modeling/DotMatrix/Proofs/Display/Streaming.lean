import Mathlib.Data.List.Induction
import DotMatrix.Proofs.Hardware.Quiet
import DotMatrix.Proofs.Display.Picture

/-!
# Streaming palettes

A palette table is filled through two registers: an index is written to one, and then byte after
byte to the other, with the index moving on round the table if its top bit asks for that.  Of all
the bytes that fall on an entry the last one stays.

* `LastOn` — which of a run of positions round a table is the last to fall on a place.
* `PaletteTable.data_streamed`, `PaletteTable.readIndex_streamed` — what a run of bytes leaves, by
  induction from its end.
* `LastOn.blocks`, `PaletteTable.fetch_streamed` — a run of palettes is a run of bytes, eight to a
  palette.
* `Bus.palettes_stream` — so the bus streams palettes.
-/

set_option autoImplicit false

namespace DotMatrix

/-! ## Positions round a table -/

/-- Of `count` positions from `start` on, round a table of so many places, this one is the last that
falls on a place. -/
structure LastOn (size start count place position : Nat) : Prop where
  lt : position < count
  falls : (start + position) % size = place
  last : ∀ later < count, position < later → (start + later) % size ≠ place

theorem LastOn.of_succ {size start count place position : Nat}
    (h : LastOn size start (count + 1) place position) (hne : position ≠ count) :
    LastOn size start count place position where
  lt := by
    have hlt := h.lt
    omega
  falls := h.falls
  last later hlt hafter := h.last later (Nat.lt_succ_of_lt hlt) hafter

/-! ## A run of bytes -/

namespace PaletteTable

/-- The table after bytes were written one after another. -/
def streamed (t : PaletteTable) (bytes : List UInt8) : PaletteTable := bytes.foldl writeData t

theorem streamed_concat (t : PaletteTable) (bytes : List UInt8) (byte : UInt8) :
    t.streamed (bytes ++ [byte]) = (t.streamed bytes).writeData byte := by
  rw [streamed, List.foldl_append]
  rfl

/-- A byte goes to the entry that the index points at. -/
theorem data_writeData (t : PaletteTable) (byte : UInt8) (j : Fin 64) :
    (t.writeData byte).data.get j = if t.index.toNat % 64 = j then byte else t.data.get j :=
  Vector.getElem_set (Nat.mod_lt _ (by decide)) j.isLt

/-- An index whose top bit is set moves on, round the table. -/
theorem toNat_index_writeData {t : PaletteTable} (h : 128 ≤ t.index.toNat) (byte : UInt8) :
    (t.writeData byte).index.toNat = 128 + (t.index.toNat + 1) % 64 := by
  have hnext : ∀ index : UInt8, 128 ≤ index.toNat →
      (if index &&& 0x80 = 0 then index else 0x80 ||| (index + 1 &&& 0x3f)).toNat =
        128 + (index.toNat + 1) % 64 :=
    forall_byte (by decide +kernel)
  exact hnext t.index h

/-- Any other index stays. -/
theorem index_writeData {t : PaletteTable} (h : t.index &&& 0x80 = 0) (byte : UInt8) :
    (t.writeData byte).index = t.index := if_pos h

theorem index_writeIndex (t : PaletteTable) (i : UInt8) :
    (i &&& 0x80 ≠ 0 → (t.writeIndex i).index.toNat = 128 + i.toNat % 64) ∧
    (i &&& 0x80 = 0 → (t.writeIndex i).index &&& 0x80 = 0 ∧
      (t.writeIndex i).index.toNat % 64 = i.toNat % 64 ∧
      (t.writeIndex i).readIndex = i ||| 0x40) := by
  have hstored : ∀ i : UInt8, (i &&& 0x80 ≠ 0 → (i &&& 0xbf).toNat = 128 + i.toNat % 64) ∧
      (i &&& 0x80 = 0 → i &&& 0xbf &&& 0x80 = 0 ∧ (i &&& 0xbf).toNat % 64 = i.toNat % 64 ∧
        i &&& 0xbf ||| 0x40 = i ||| 0x40) :=
    forall_byte (by decide +kernel)
  exact hstored i

variable {t : PaletteTable} {i : UInt8}

/-! ### With an index that moves on -/

theorem toNat_index_streamed (hi : i &&& 0x80 ≠ 0) (t : PaletteTable) (bytes : List UInt8) :
    ((t.writeIndex i).streamed bytes).index.toNat = 128 + (i.toNat + bytes.length) % 64 := by
  induction bytes using List.reverseRecOn with
  | nil => exact (t.index_writeIndex i).1 hi
  | append_singleton bytes byte ih =>
    rw [streamed_concat, toNat_index_writeData (by omega), ih, List.length_append,
      List.length_singleton]
    omega

theorem readIndex_streamed (hi : i &&& 0x80 ≠ 0) (t : PaletteTable) (bytes : List UInt8) :
    ((t.writeIndex i).streamed bytes).readIndex =
      0xc0 ||| UInt8.ofNat ((i.toNat + bytes.length) % 64) := by
  have hread : ∀ place : Fin 64,
      UInt8.ofNat (128 + place) ||| 0x40 = 0xc0 ||| UInt8.ofNat place := by
    decide +kernel
  have hindex : ((t.writeIndex i).streamed bytes).index =
      UInt8.ofNat (128 + (i.toNat + bytes.length) % 64) := by
    rw [← toNat_index_streamed hi t bytes, UInt8.ofNat_toNat]
  rw [readIndex, hindex]
  exact hread ⟨_, Nat.mod_lt _ (by decide)⟩

/-- On every entry the last byte that fell on it stays, and where none fell nothing changes. -/
theorem data_streamed (hi : i &&& 0x80 ≠ 0) (t : PaletteTable) (bytes : List UInt8) (j : Fin 64) :
    (∀ q, LastOn 64 i.toNat bytes.length j q →
      bytes[q]? = some (((t.writeIndex i).streamed bytes).data.get j)) ∧
    ((∀ q < bytes.length, (i.toNat + q) % 64 ≠ j) →
      ((t.writeIndex i).streamed bytes).data.get j = t.data.get j) := by
  induction bytes using List.reverseRecOn with
  | nil => exact ⟨fun q h ↦ absurd h.lt (Nat.not_lt_zero q), fun _ ↦ rfl⟩
  | append_singleton bytes byte ih =>
    have hindex : ((t.writeIndex i).streamed bytes).index.toNat % 64 =
        (i.toNat + bytes.length) % 64 := by
      rw [toNat_index_streamed hi t bytes]
      omega
    rw [streamed_concat, data_writeData, hindex, List.length_append, List.length_singleton]
    constructor
    · intro q h
      by_cases hq : q = bytes.length
      · rw [hq, if_pos (hq ▸ h.falls), List.getElem?_concat_length]
      · have hq' := h.of_succ hq
        rw [if_neg (h.last bytes.length (Nat.lt_succ_self _) hq'.lt),
          List.getElem?_append_left hq'.lt]
        exact ih.1 q hq'
    · intro h
      rw [if_neg (h bytes.length (Nat.lt_succ_self _))]
      exact ih.2 fun q hq ↦ h q (Nat.lt_succ_of_lt hq)

/-! ### With an index that stays -/

theorem index_streamed_of_fixed (hi : i &&& 0x80 = 0) (t : PaletteTable) (bytes : List UInt8) :
    ((t.writeIndex i).streamed bytes).index = (t.writeIndex i).index := by
  induction bytes using List.reverseRecOn with
  | nil => rfl
  | append_singleton bytes byte ih =>
    have htop := ((t.index_writeIndex i).2 hi).1
    rw [streamed_concat, index_writeData (by rwa [ih]), ih]

/-- Only the entry that the index points at changes, to the last byte. -/
theorem data_streamed_of_fixed (hi : i &&& 0x80 = 0) (t : PaletteTable) (bytes : List UInt8)
    (j : Fin 64) : ((t.writeIndex i).streamed bytes).data.get j =
      if i.toNat % 64 = j then bytes.getLast?.getD (t.data.get j) else t.data.get j := by
  induction bytes using List.reverseRecOn with
  | nil => exact (ite_self _).symm
  | append_singleton bytes byte ih =>
    obtain ⟨-, hplace, -⟩ := (t.index_writeIndex i).2 hi
    rw [streamed_concat, data_writeData, index_streamed_of_fixed hi, hplace, ih,
      List.getLast?_concat, Option.getD_some]
    split <;> rfl

end PaletteTable

/-! ## A run of palettes -/

/-- The bytes of words, each with its low byte first. -/
def littleEndianBytes (words : List UInt16) : List UInt8 :=
  words.flatMap fun w ↦ [lowByte w, highByte w]

/-- The bytes of palettes, each with its four colours in order. -/
def paletteBytes (palettes : List (Vector UInt16 4)) : List UInt8 :=
  palettes.flatMap fun palette ↦ littleEndianBytes palette.toList

/-- What stands where in a list that is put together from blocks of one size. -/
theorem getElem?_blocks {α β : Type} (size : Nat) {f : α → List β}
    (h : ∀ a, (f a).length = size) (blocks : List α) (n : Nat) {r : Nat} (hr : r < size) :
    (blocks.flatMap f)[size * n + r]? = blocks[n]?.bind fun a ↦ (f a)[r]? := by
  induction blocks generalizing n with
  | nil => rfl
  | cons a blocks ih =>
    rw [List.flatMap_cons]
    cases n with
    | zero =>
      rw [Nat.mul_zero, Nat.zero_add, List.getElem?_append_left (by rwa [h])]
      rfl
    | succ n =>
      have hsub : size * (n + 1) + r - size = size * n + r := by
        rw [Nat.mul_succ]
        omega
      rw [List.getElem?_append_right (by rw [h, Nat.mul_succ]; omega), h, hsub, ih]
      rfl

theorem length_blocks {α β : Type} (size : Nat) {f : α → List β}
    (h : ∀ a, (f a).length = size) (blocks : List α) :
    (blocks.flatMap f).length = size * blocks.length := by
  rw [List.length_flatMap, List.map_congr_left fun a _ ↦ h a, List.map_const',
    List.sum_replicate_nat, Nat.mul_comm]

theorem length_bytes (palette : Vector UInt16 4) :
    (littleEndianBytes palette.toList).length = 8 := by
  rw [littleEndianBytes, length_blocks 2 fun _ ↦ rfl, Vector.length_toList]

theorem length_paletteBytes (palettes : List (Vector UInt16 4)) :
    (paletteBytes palettes).length = 8 * palettes.length := length_blocks 8 length_bytes palettes

/-- The bytes of a colour of a palette. -/
theorem getElem?_paletteBytes (palettes : List (Vector UInt16 4)) (p : Nat) (color : Fin 4)
    {k : Nat} (hk : k < 2) : (paletteBytes palettes)[8 * p + (2 * color + k)]? =
      palettes[p]?.bind fun palette ↦ [lowByte palette[color], highByte palette[color]][k]? := by
  rw [paletteBytes, getElem?_blocks 8 length_bytes palettes p (by omega)]
  congr 1
  funext palette
  have hword : palette.toList[color.val]? = some palette[color] :=
    List.getElem?_eq_getElem (by rw [Vector.length_toList]; exact color.isLt)
  rw [littleEndianBytes, getElem?_blocks 2 (fun _ ↦ rfl) palette.toList color hk, hword]
  rfl

/-- The last palette on a slot brings the last bytes on the entries of the slot. -/
theorem LastOn.blocks {slot count place p : Nat} (h : LastOn 8 slot count place p) {r : Nat}
    (hr : r < 8) : LastOn 64 (128 + 8 * slot) (8 * count) (8 * place + r) (8 * p + r) := by
  obtain ⟨hlt, hfalls, hlast⟩ := h
  refine ⟨by omega, by omega, fun later hcount hafter hplace ↦ ?_⟩
  exact hlast (later / 8) (by omega) (by omega) (by omega)

/-- Where no palette falls on a slot, no byte falls on its entries. -/
theorem blocks_of_none {slot count place : Nat} (h : ∀ p < count, (slot + p) % 8 ≠ place) {r : Nat}
    (hr : r < 8) : ∀ q < 8 * count, (128 + 8 * slot + q) % 64 ≠ 8 * place + r :=
  fun q hq hplace ↦ h (q / 8) (by omega) (by omega)

namespace PaletteTable

/-- The index of the first entry of a slot, with the bit that makes it move on. -/
def slotIndex (slot : Fin 8) : UInt8 := 0x80 ||| 8 * UInt8.ofNat slot

theorem toNat_slotIndex (slot : Fin 8) : (slotIndex slot).toNat = 128 + 8 * slot := by
  revert slot
  decide

theorem slotIndex_moves (slot : Fin 8) : slotIndex slot &&& 0x80 ≠ 0 := by
  revert slot
  decide

/-- Every slot holds the last palette that fell on it, or what it held before. -/
theorem fetch_streamed (t : PaletteTable) (first : Fin 8) (palettes : List (Vector UInt16 4))
    (slot color : UInt8) :
    (∀ p, LastOn 8 first palettes.length (slot.toNat % 8) p →
      palettes[p]?.map (·[Fin.ofNat 4 color.toNat]) = some
        (((t.writeIndex (slotIndex first)).streamed (paletteBytes palettes)).fetch slot color)) ∧
    ((∀ p < palettes.length, (first + p) % 8 ≠ slot.toNat % 8) →
      ((t.writeIndex (slotIndex first)).streamed (paletteBytes palettes)).fetch slot color =
        t.fetch slot color) := by
  let c : Fin 4 := Fin.ofNat 4 color.toNat
  have hdata := data_streamed (slotIndex_moves first) t (paletteBytes palettes)
  rw [toNat_slotIndex, length_paletteBytes] at hdata
  -- The two entries of the colour, among the eight of the slot.
  let low : Fin 64 := ⟨8 * (slot.toNat % 8) + 2 * (color.toNat % 4), by omega⟩
  let high : Fin 64 := ⟨8 * (slot.toNat % 8) + 2 * (color.toNat % 4) + 1, by omega⟩
  rw [fetch_eq, fetch_eq, word, word]
  constructor
  · intro p hp
    have hlow := (getElem?_paletteBytes palettes p c (k := 0) (by decide)).symm.trans
      ((hdata low).1 _ (hp.blocks (by omega)))
    have hhigh := (getElem?_paletteBytes palettes p c (k := 1) (by decide)).symm.trans
      ((hdata high).1 _ (hp.blocks (r := 2 * (color.toNat % 4) + 1) (by omega)))
    rw [List.getElem?_eq_getElem hp.lt] at hlow hhigh ⊢
    have hlow' := Option.some.inj hlow
    have hhigh' := Option.some.inj hhigh
    refine congrArg some ((wordOfBytes_highByte_lowByte _).symm.trans ?_)
    exact congrArg₂ wordOfBytes hhigh' hlow'
  · intro hnone
    have hlow := (hdata low).2 (blocks_of_none hnone (by omega))
    have hhigh := (hdata high).2
      (blocks_of_none hnone (r := 2 * (color.toNat % 4) + 1) (by omega))
    exact congrArg₂ wordOfBytes hhigh hlow

end PaletteTable

/-! ## On the bus -/

/-- What has a palette table of its own. -/
inductive Layer where
  | background
  | object

namespace Layer

/-- The index register of the layer's table. -/
def indexRegister : Layer → UInt16
  | .background => Register.backgroundIndex
  | .object => Register.objectIndex

/-- The data register of the layer's table. -/
def dataRegister : Layer → UInt16
  | .background => Register.backgroundData
  | .object => Register.objectData

/-- The other layer. -/
def other : Layer → Layer
  | .background => .object
  | .object => .background

end Layer

namespace Palettes

/-- The table of a layer. -/
def table (p : Palettes) : Layer → PaletteTable
  | .background => p.background
  | .object => p.object

/-- The tables with that of one layer replaced. -/
def withTable (p : Palettes) (t : PaletteTable) : Layer → Palettes
  | .background => { p with background := t }
  | .object => { p with object := t }

theorem table_withTable (p : Palettes) (t : PaletteTable) (layer : Layer) :
    (p.withTable t layer).table layer = t ∧
      (p.withTable t layer).table layer.other = p.table layer.other := by
  cases layer <;> exact ⟨rfl, rfl⟩

end Palettes

namespace Bus

/-- The bus with the palette table of one layer replaced. -/
def withTable (b : Bus) (t : PaletteTable) (layer : Layer) : Bus :=
  { b with palettes := b.palettes.withTable t layer }

/-- Write an index to the index register of a layer, then bytes to its data register. -/
def stream (layer : Layer) (index : UInt8) (bytes : List UInt8) : Exec Bus Unit := do
  write layer.indexRegister index
  bytes.forM (write layer.dataRegister)

variable (b : Bus) (layer : Layer)

theorem write_indexRegister (index : UInt8) : write layer.indexRegister index b =
    ⟨.ok (), b.withTable ((b.palettes.table layer).writeIndex index) layer, #[]⟩ := by
  cases layer <;> exact write_of_register (by decide) index b

theorem write_dataRegister (byte : UInt8) : write layer.dataRegister byte b =
    ⟨.ok (), b.withTable ((b.palettes.table layer).writeData byte) layer, #[]⟩ := by
  cases layer <;> exact write_of_register (by decide) byte b

theorem read_indexRegister :
    b.read layer.indexRegister = .ok (b.palettes.table layer).readIndex := by
  have hplace : b.place layer.indexRegister = .register :=
    place_eq_register_iff.2 (by cases layer <;> decide)
  rw [read, hplace]
  cases layer <;> rfl

/-- Two changes of a layer's table, the second made from what the first left. -/
theorem withTable_withTable (t : PaletteTable) (f : PaletteTable → PaletteTable) :
    (b.withTable t layer).withTable (f ((b.withTable t layer).palettes.table layer)) layer =
      b.withTable (f t) layer := by
  cases layer <;> rfl

theorem forM_dataRegister (bytes : List UInt8) : bytes.forM (write layer.dataRegister) b =
    ⟨.ok (), b.withTable ((b.palettes.table layer).streamed bytes) layer, #[]⟩ := by
  induction bytes generalizing b with
  | nil => cases layer <;> rfl
  | cons byte bytes ih =>
    refine (Exec.bind_of_ok (b.write_dataRegister layer byte) _).trans ?_
    rw [Outcome.after_empty, ih, b.withTable_withTable layer _ (·.streamed bytes)]
    rfl

/-- Streaming reaches the table of the layer and nothing else. -/
theorem stream_apply (index : UInt8) (bytes : List UInt8) : stream layer index bytes b =
    ⟨.ok (), b.withTable (((b.palettes.table layer).writeIndex index).streamed bytes) layer,
      #[]⟩ := by
  rw [stream, Exec.bind_of_ok (b.write_indexRegister layer index), Outcome.after_empty,
    forM_dataRegister, b.withTable_withTable layer _ (·.streamed bytes)]

/-- **Palettes can be streamed.**  Writing an index to the index register of a layer and then bytes
to its data register succeeds and reaches nothing but the layer's table.  If the top bit of the
index is set, every entry holds the last byte that fell on it, counting from the index round the
table, or what it held before, and the index register reads as the place after the last byte.  If
it is not set, only the entry that the index names changes, to the last byte, and the index stays.
So palettes that are streamed from the first entry of a slot on, each colour with its low byte
first, are the palettes of the slots that they fall on, round the table; the last one stays. -/
theorem palettes_stream (index : UInt8) (bytes : List UInt8) :
    (∃ t, stream layer index bytes b = ⟨.ok (), b.withTable t layer, #[]⟩ ∧
      (b.withTable t layer).palettes.table layer.other = b.palettes.table layer.other ∧
      (index &&& 0x80 ≠ 0 →
        (∀ j : Fin 64,
          (∀ q, LastOn 64 index.toNat bytes.length j q → bytes[q]? = some (t.data.get j)) ∧
          ((∀ q < bytes.length, (index.toNat + q) % 64 ≠ j) →
            t.data.get j = (b.palettes.table layer).data.get j)) ∧
        (b.withTable t layer).read layer.indexRegister =
          .ok (0xc0 ||| UInt8.ofNat ((index.toNat + bytes.length) % 64))) ∧
      (index &&& 0x80 = 0 →
        (∀ j : Fin 64, t.data.get j =
          if index.toNat % 64 = j then bytes.getLast?.getD ((b.palettes.table layer).data.get j)
          else (b.palettes.table layer).data.get j) ∧
        (b.withTable t layer).read layer.indexRegister = .ok (index ||| 0x40))) ∧
    ∀ (first : Fin 8) (palettes : List (Vector UInt16 4)),
      ∃ t, stream layer (0x80 ||| 8 * UInt8.ofNat first) (paletteBytes palettes) b =
          ⟨.ok (), b.withTable t layer, #[]⟩ ∧
        ∀ slot color : UInt8,
          (∀ p, LastOn 8 first palettes.length (slot.toNat % 8) p →
            palettes[p]?.map (·[Fin.ofNat 4 color.toNat]) = some (t.fetch slot color)) ∧
          ((∀ p < palettes.length, (first + p) % 8 ≠ slot.toNat % 8) →
            t.fetch slot color = (b.palettes.table layer).fetch slot color) := by
  refine ⟨⟨_, b.stream_apply layer index bytes, (b.palettes.table_withTable _ layer).2,
    fun hmoves ↦ ⟨PaletteTable.data_streamed hmoves _ bytes, ?_⟩,
    fun hstays ↦ ⟨PaletteTable.data_streamed_of_fixed hstays _ bytes, ?_⟩⟩,
    fun first palettes ↦ ⟨_, b.stream_apply layer _ _, fun slot color ↦
      PaletteTable.fetch_streamed _ first palettes slot color⟩⟩
  · rw [read_indexRegister, withTable, (b.palettes.table_withTable _ layer).1,
      PaletteTable.readIndex_streamed hmoves]
  · obtain ⟨-, -, hread⟩ := ((b.palettes.table layer).index_writeIndex index).2 hstays
    rw [read_indexRegister, withTable, (b.palettes.table_withTable _ layer).1,
      PaletteTable.readIndex, PaletteTable.index_streamed_of_fixed hstays, ← hread,
      PaletteTable.readIndex]

/-- Sixty-five bytes go once round the table, so the last one meets the first; bytes written where
the index stays replace each other; two palettes that are streamed to the last slot fill it and the
first one. -/
theorem palettes_stream_round :
    (∃ t, stream .background 0xbf (List.replicate 64 1 ++ [2]) (start (.plain #[])) =
        ⟨.ok (), (start (.plain #[])).withTable t .background, #[]⟩ ∧
      t.data.get 63 = 2 ∧ t.data.get 62 = 1 ∧
      ((start (.plain #[])).withTable t .background).read Register.backgroundIndex = .ok 0xc0) ∧
    (∃ t, stream .background 0x45 [1, 2, 3] (start (.plain #[])) =
        ⟨.ok (), (start (.plain #[])).withTable t .background, #[]⟩ ∧
      t.data.get 5 = 3 ∧
      ((start (.plain #[])).withTable t .background).read Register.backgroundIndex = .ok 0x45) ∧
    ∃ t, stream .object (0x80 ||| 8 * UInt8.ofNat (7 : Fin 8))
        (paletteBytes [#v[1, 2, 3, 4], #v[5, 6, 7, 0x1234]]) (start (.plain #[])) =
        ⟨.ok (), (start (.plain #[])).withTable t .object, #[]⟩ ∧
      t.fetch 7 1 = 2 ∧ t.fetch 0 3 = 0x1234 ∧
      t.fetch 1 3 = (start (.plain #[])).palettes.object.fetch 1 3 := by
  refine ⟨?_, ?_, ?_⟩
  · obtain ⟨⟨t, ht, -, hmoves, -⟩, -⟩ := palettes_stream (start (.plain #[])) .background 0xbf
      (List.replicate 64 1 ++ [2])
    obtain ⟨hdata, hread⟩ := hmoves (by decide)
    have hlast := (hdata 63).1 64 ⟨by decide, by decide, by decide⟩
    have hbefore := (hdata 62).1 63 ⟨by decide, by decide, by decide⟩
    exact ⟨t, ht, (Option.some.inj hlast).symm, (Option.some.inj hbefore).symm, hread⟩
  · obtain ⟨⟨t, ht, -, -, hstays⟩, -⟩ :=
      palettes_stream (start (.plain #[])) .background 0x45 [1, 2, 3]
    obtain ⟨hdata, hread⟩ := hstays (by decide)
    exact ⟨t, ht, hdata 5, hread⟩
  · obtain ⟨t, ht, hfetch⟩ := (palettes_stream (start (.plain #[])) .object 0 []).2 7
      [#v[1, 2, 3, 4], #v[5, 6, 7, 0x1234]]
    refine ⟨t, ht, ?_, ?_, (hfetch 1 3).2 (by decide)⟩
    · exact (Option.some.inj ((hfetch 7 1).1 0 ⟨by decide, by decide, by decide⟩)).symm
    · exact (Option.some.inj ((hfetch 0 3).1 1 ⟨by decide, by decide, by decide⟩)).symm

end Bus

end DotMatrix
