import Mathlib.Data.List.Nodup
import DotMatrix.Proofs.Console.Reach
import DotMatrix.Proofs.Hardware.Changes
import DotMatrix.Proofs.Instruction.Assembly
import DotMatrix.Proofs.Instruction.Shape

/-!
# Disassembly loses nothing

No two instructions have the same text, and no two have the same bytes.

* `Operand.ofText?` — the operand that a text stands for behind an opcode, and `Operand.Legible`,
  that this is the operand whose text it is.  Whether this is so does not depend on immediates, so
  it need be looked at for the templates only (`Encoded.legible`).
* `toList_disassembly` — a text is its words with spaces between them, so these are known from it.
* `Encoded.bytes_eq` — so the text says what the bytes are.
* `decoding_unambiguous` — the same of instructions that are decoded from a machine's memory.
-/

set_option autoImplicit false

namespace DotMatrix

/-! ## Reading operands back -/

/-- The value of a digit. -/
def digitValue (digit : Char) : UInt8 :=
  UInt8.ofNat (digit.toNat - if digit.isDigit then 48 else 87)

/-- The byte with these hexadecimal digits. -/
def byteOfDigits (high low : Char) : UInt8 := digitValue high <<< 4 ||| digitValue low

/-- The byte with these decimal digits. -/
def magnitude (digits : List Char) : UInt8 :=
  digits.foldl (fun n digit ↦ 10 * n + digitValue digit) 0

/-- The byte that is written in decimal with its sign. -/
def signed? : List Char → Option UInt8
  | '+' :: digits => some (magnitude digits)
  | '-' :: digits => some (0 - magnitude digits)
  | _ => none

@[simp] theorem byteOfDigits_hexDigit (b : UInt8) :
    byteOfDigits (hexDigit (b >>> 4)) (hexDigit (b &&& 0x0f)) = b := by
  revert b
  exact forall_byte (by decide +kernel)

/-- A signed byte is written as its sign and decimal digits. -/
theorem toList_signedByte (b : UInt8) :
    (signedByte b).toList =
      (if signedValue b < 0 then '-' else '+') :: Nat.toDigits 10 (signedValue b).natAbs := by
  have hsign : (toString "-").toList = ['-'] ∧ (toString "+").toList = ['+'] := ⟨rfl, rfl⟩
  rw [signedByte]
  split <;> simp [hsign]

theorem signed?_signedByte (b : UInt8) : signed? (signedByte b).toList = some b := by
  rw [toList_signedByte]
  revert b
  exact forall_byte (by decide +kernel)

/-- What is read as a signed byte starts with a sign. -/
theorem signed?_cases {text : List Char} {b : UInt8} (h : signed? text = some b) :
    (∃ digits, text = '+' :: digits) ∨ ∃ digits, text = '-' :: digits := by
  rw [signed?.eq_def] at h
  split at h
  · exact Or.inl ⟨_, rfl⟩
  · exact Or.inr ⟨_, rfl⟩
  · cases h

namespace Operand

/-- The operand with a name. -/
def ofName? (op : Opcode) : List Char → Option Operand
  | ['a'] => some (.register .a)
  | ['b'] => some (.register .b)
  | ['c'] => some (if op.isTransfer then .condition .carry else .register .c)
  | ['d'] => some (.register .d)
  | ['e'] => some (.register .e)
  | ['h'] => some (.register .h)
  | ['l'] => some (.register .l)
  | ['z'] => some (.condition .zero)
  | ['n', 'z'] => some (.condition .nonZero)
  | ['n', 'c'] => some (.condition .noCarry)
  | ['a', 'f'] => some (.pair .af)
  | ['b', 'c'] => some (.pair .bc)
  | ['d', 'e'] => some (.pair .de)
  | ['h', 'l'] => some (.pair .hl)
  | ['s', 'p'] => some (.pair .sp)
  | [digit] => some (.bit (digitValue digit))
  | _ => none

/-- The operand between parentheses. -/
def ofPointer? : List Char → Option Operand
  | ['$', x, y] => some (.imm8 (byteOfDigits x y) .pointer)
  | ['$', x, y, z, w] =>
    some (.imm16 (wordOfBytes (byteOfDigits x y) (byteOfDigits z w)) .pointer)
  | ['c'] => some (.reg8 .c .pointer)
  | ['b', 'c'] => some (.reg16 .bc .pointer)
  | ['d', 'e'] => some (.reg16 .de .pointer)
  | ['h', 'l'] => some .atHl
  | ['h', 'l', '+'] => some (.reg16 .hl .pointerUp)
  | ['h', 'l', '-'] => some (.reg16 .hl .pointerDown)
  | _ => none

/-- The operand that is written like this behind an opcode. -/
def ofText? (op : Opcode) : List Char → Option Operand
  | ['$', x, y] =>
    some (if op = .rst then .vector (byteOfDigits x y) else .imm8 (byteOfDigits x y) .immediate)
  | ['$', x, y, z, w] =>
    some (.imm16 (wordOfBytes (byteOfDigits x y) (byteOfDigits z w)) .immediate)
  | '(' :: rest => ofPointer? rest.dropLast
  | 's' :: 'p' :: sign :: digits =>
    (signed? (sign :: digits)).map fun displacement ↦ .displaced .sp displacement .immediate
  | '+' :: digits => (signed? ('+' :: digits)).map .offset
  | '-' :: digits => (signed? ('-' :: digits)).map .offset
  | name => ofName? op name

/-- Behind the opcode, the text of the operand says which one it is. -/
def Legible (op : Opcode) (o : Operand) : Prop := ofText? op o.assembly.toList = some o

instance (op : Opcode) (o : Operand) : Decidable (o.Legible op) :=
  inferInstanceAs (Decidable (_ = _))

section

variable {op : Opcode} {o : Operand}

theorem toList_enclose (m : Mode) (text : String) :
    (m.enclose text).toList =
      if m.indirect then '(' :: (text.toList ++ [')']) else text.toList := by
  rw [Mode.enclose]
  split <;> simp

theorem toList_hexByte (b : UInt8) :
    (hexByte b).toList = [hexDigit (b >>> 4), hexDigit (b &&& 0x0f)] := String.toList_ofList

theorem toList_imm8 (value : UInt8) (m : Mode) :
    (imm8 value m).assembly.toList =
      if m.indirect then ['(', '$', hexDigit (value >>> 4), hexDigit (value &&& 0x0f), ')']
      else ['$', hexDigit (value >>> 4), hexDigit (value &&& 0x0f)] := by
  simp [assembly, toList_enclose, toList_hexByte]

theorem toList_imm16 (value : UInt16) (m : Mode) :
    (imm16 value m).assembly.toList =
      let digits := (hexByte (highByte value)).toList ++ (hexByte (lowByte value)).toList
      if m.indirect then '(' :: '$' :: (digits ++ [')']) else '$' :: digits := by
  simp [assembly, toList_enclose, hexWord]

/-! Whether a number is legible does not depend on the number. -/

theorem ofText?_byte (x y : Char) : ofText? op ['$', x, y] = some (if op = .rst then
    .vector (byteOfDigits x y) else .imm8 (byteOfDigits x y) .immediate) := rfl

theorem ofText?_bytePointer (x y : Char) :
    ofText? op ['(', '$', x, y, ')'] = some (.imm8 (byteOfDigits x y) .pointer) := rfl

theorem ofText?_word (x y z w : Char) : ofText? op ['$', x, y, z, w] =
    some (.imm16 (wordOfBytes (byteOfDigits x y) (byteOfDigits z w)) .immediate) := rfl

theorem ofText?_wordPointer (x y z w : Char) : ofText? op ['(', '$', x, y, z, w, ')'] =
    some (.imm16 (wordOfBytes (byteOfDigits x y) (byteOfDigits z w)) .pointer) := rfl

theorem legible_imm8_iff {value : UInt8} {m : Mode} :
    (imm8 value m).Legible op ↔ m = .pointer ∨ m = .immediate ∧ op ≠ .rst := by
  rw [Legible, toList_imm8]
  cases hm : m.indirect with
  | true =>
    have hne : m ≠ .immediate := fun he ↦ by rw [he] at hm; cases hm
    simp [ofText?_bytePointer, hne, eq_comm]
  | false =>
    have hne : m ≠ .pointer := fun he ↦ by rw [he] at hm; cases hm
    by_cases hop : op = .rst
    · simp [ofText?_byte, hop, hne]
    · simp [ofText?_byte, hop, hne, eq_comm]

theorem legible_imm16_iff {value : UInt16} {m : Mode} :
    (imm16 value m).Legible op ↔ m = .pointer ∨ m = .immediate := by
  rw [Legible, toList_imm16]
  cases hm : m.indirect with
  | true =>
    have hne : m ≠ .immediate := fun he ↦ by rw [he] at hm; cases hm
    simp [toList_hexByte, ofText?_wordPointer, hne, eq_comm]
  | false =>
    have hne : m ≠ .pointer := fun he ↦ by rw [he] at hm; cases hm
    simp [toList_hexByte, ofText?_word, hne, eq_comm]

theorem legible_offset (displacement : UInt8) : (offset displacement).Legible op := by
  have hd := signed?_signedByte displacement
  have hread : ofText? op (signedByte displacement).toList =
      (signed? (signedByte displacement).toList).map .offset := by
    rcases signed?_cases hd with ⟨digits, ht⟩ | ⟨digits, ht⟩ <;> rw [ht] <;> rfl
  rw [Legible, assembly, hread, hd]
  rfl

theorem legible_displaced_iff {register : Reg16} {displacement : UInt8} {m : Mode} :
    (displaced register displacement m).Legible op ↔ register = .sp ∧ m = .immediate := by
  have hd := signed?_signedByte displacement
  have hread : ofText? op (register.mnemonic.toList ++ (signedByte displacement).toList) =
      if register = .sp then
        (signed? (signedByte displacement).toList).map (.displaced .sp · .immediate)
      else none := by
    rcases signed?_cases hd with ⟨digits, ht⟩ | ⟨digits, ht⟩ <;> rw [ht] <;>
      cases register <;> rfl
  rw [Legible, assembly, String.toList_append, hread, hd]
  split
  · rename_i hsp
    simp [hsp, eq_comm]
  · rename_i hsp
    simp [hsp]

/-- Whether an operand is legible does not depend on its immediates. -/
theorem Legible.of_blank (h : o.blank.Legible op) : o.Legible op := by
  cases o with
  | imm8 => exact legible_imm8_iff.2 (legible_imm8_iff.1 h)
  | imm16 => exact legible_imm16_iff.2 (legible_imm16_iff.1 h)
  | offset displacement => exact legible_offset displacement
  | displaced => exact legible_displaced_iff.2 (legible_displaced_iff.1 h)
  | reg8 | reg16 | condition | bit | vector => exact h

end

end Operand

namespace Instruction

/-- What the templates print is legible, -/
theorem legible_template {opcode : UInt8} {i : Instruction} (h : template opcode = some i) :
    ∀ o ∈ i.printedOperands, o.Legible i.opcode := by
  apply forall_template h
  decide +kernel

theorem legible_prefixedTemplate {opcode : UInt8} {i : Instruction}
    (h : prefixedTemplate opcode = some i) : ∀ o ∈ i.printedOperands, o.Legible i.opcode := by
  apply forall_template h
  decide +kernel

/-- and so is what any instruction prints. -/
theorem Encoded.legible {bytes : List UInt8} {i : Instruction} (h : Encoded bytes i) :
    ∀ o ∈ i.printedOperands, o.Legible i.opcode := by
  cases h with
  | prefixed ht => exact legible_prefixedTemplate ht
  | plain _ ht =>
    intro o ho
    have hmem : o.blank ∈ i.blank.printedOperands := by
      rw [printedOperands_blank]
      exact List.mem_map_of_mem ho
    exact .of_blank (legible_template ht _ hmem)

end Instruction

/-! ## Words -/

/-- All opcodes. -/
def Opcode.all : List Opcode :=
  [.nop, .ld, .ldh, .inc, .dec, .rlca, .rla, .rrca, .rra, .daa, .cpl, .scf, .ccf, .jr, .jp, .call,
    .ret, .reti, .rst, .push, .pop, .add, .adc, .sub, .sbc, .and, .xor, .or, .cp, .halt, .stop, .di,
    .ei, .rlc, .rrc, .rl, .rr, .sla, .sra, .swap, .srl, .bit, .res, .set]

theorem Opcode.mem_all (op : Opcode) : op ∈ all := by
  cases op <;> decide

/-- No two opcodes are written alike. -/
theorem Opcode.mnemonic_injective : Function.Injective Opcode.mnemonic := fun op op' h ↦
  have hnodup : (all.map mnemonic).Nodup := by decide +kernel
  List.inj_on_of_nodup_map hnodup op.mem_all op'.mem_all h

theorem Opcode.space_notMem (op : Opcode) : ' ' ∉ op.mnemonic.toList := by
  have hall : ∀ op ∈ all, ' ' ∉ op.mnemonic.toList := by decide +kernel
  exact hall op op.mem_all

theorem space_notMem_toDigits (n : Nat) : ' ' ∉ Nat.toDigits 10 n := fun h ↦ by
  have hdigit := Nat.isDigit_of_mem_toDigits (by decide) (by decide) h
  cases hdigit

theorem Operand.space_notMem (o : Operand) : ' ' ∉ o.assembly.toList := by
  have henclose : ∀ (m : Mode) (text : String), ' ' ∉ text.toList →
      ' ' ∉ (m.enclose text).toList := by
    intro m text h
    rw [toList_enclose]
    split <;> simp [h]
  have hhex : ∀ b : UInt8, ' ' ∉ (hexByte b).toList := forall_byte (by decide +kernel)
  have hsigned : ∀ b : UInt8, ' ' ∉ (signedByte b).toList := fun b ↦ by
    rw [toList_signedByte]
    split <;> simp [space_notMem_toDigits]
  have hreg16 : ∀ r : Reg16, ' ' ∉ r.mnemonic.toList := fun r ↦ by cases r <;> decide
  cases o with
  | reg8 r m => exact henclose m _ (by cases r <;> decide)
  | reg16 r m =>
    refine henclose m _ ?_
    rw [Mode.step]
    split
    · simp [hreg16]
    · split <;> simp [hreg16]
  | imm8 value m => exact henclose m _ (by simp [hhex])
  | imm16 value m => exact henclose m _ (by simp [hexWord, hhex])
  | condition c => cases c <;> decide
  | displaced r d m => simp [assembly, hreg16, hsigned]
  | offset d => exact hsigned d
  | bit n => simp [assembly, space_notMem_toDigits]
  | vector v => simp [assembly, hhex]

namespace Instruction

/-- Texts with a comma behind all but the last. -/
def punctuated : List (List Char) → List (List Char)
  | [] => []
  | [text] => [text]
  | text :: next :: rest => (text ++ [',']) :: punctuated (next :: rest)

theorem punctuated_cons_ne_nil (text : List Char) (rest : List (List Char)) :
    punctuated (text :: rest) ≠ [] := by
  cases rest <;> exact List.cons_ne_nil _ _

theorem punctuated_injective : Function.Injective punctuated := by
  intro texts texts' h
  induction texts using punctuated.induct generalizing texts' with
  | case1 =>
    cases texts' using punctuated.fun_cases with
    | case1 => rfl
    | case2 | case3 => cases h
  | case2 text =>
    cases texts' using punctuated.fun_cases with
    | case1 => cases h
    | case2 => exact h
    | case3 text' next rest =>
      cases rest <;> cases h
  | case3 text next rest ih =>
    cases texts' using punctuated.fun_cases with
    | case1 => cases h
    | case2 => cases rest <;> cases h
    | case3 text' next' rest' =>
      obtain ⟨htext, hrest⟩ := List.cons.inj h
      rw [List.append_cancel_right htext, ih hrest]

/-- The mnemonic and the operands, as words. -/
def words (i : Instruction) : List (List Char) :=
  i.opcode.mnemonic.toList ::
    punctuated (i.printedOperands.map fun o ↦ o.assembly.toList)

theorem space_notMem_punctuated {texts : List (List Char)} (h : ∀ text ∈ texts, ' ' ∉ text) :
    ∀ word ∈ punctuated texts, ' ' ∉ word := by
  induction texts using punctuated.induct with
  | case1 => exact h
  | case2 => exact h
  | case3 text next rest ih =>
    intro word hword
    rcases List.mem_cons.1 hword with rfl | hword
    · simp [h text List.mem_cons_self]
    · exact ih (fun text ht ↦ h text (List.mem_cons_of_mem _ ht)) word hword

/-- No word has a space in it. -/
theorem space_notMem_words (i : Instruction) : ∀ word ∈ i.words, ' ' ∉ word := by
  intro word hword
  rcases List.mem_cons.1 hword with rfl | hword
  · exact i.opcode.space_notMem
  · refine space_notMem_punctuated (fun text ht ↦ ?_) word hword
    obtain ⟨o, -, rfl⟩ := List.mem_map.1 ht
    exact o.space_notMem

theorem intercalate_comma (texts : List (List Char)) :
    [',', ' '].intercalate texts = [' '].intercalate (punctuated texts) := by
  induction texts using punctuated.induct with
  | case1 => rfl
  | case2 => rfl
  | case3 text next rest ih =>
    rw [List.intercalate_cons_cons, ih, punctuated]
    cases rest <;> simp [punctuated, List.intercalate_cons_cons]

/-- The text is the words with spaces between them. -/
theorem toList_disassembly (i : Instruction) :
    i.disassembly.toList = [' '].intercalate i.words := by
  rw [disassembly, words]
  cases hi : i.printedOperands with
  | nil => simp [punctuated]
  | cons o rest =>
    have hcomma : (", ".intercalate ((o :: rest).map Operand.assembly)).toList =
        [' '].intercalate (punctuated ((o :: rest).map fun o ↦ o.assembly.toList)) := by
      rw [String.toList_intercalate, List.map_map]
      exact intercalate_comma _
    obtain ⟨word, words, hwords⟩ :=
      List.exists_cons_of_ne_nil (punctuated_cons_ne_nil o.assembly.toList
        (rest.map fun o ↦ o.assembly.toList))
    rw [List.map_cons] at hcomma ⊢
    dsimp only
    rw [String.toList_append, String.toList_append, hcomma, List.map_cons, hwords,
      List.intercalate_cons_cons]
    rfl

/-! ## Disassembly -/

section

variable {i j : Instruction} {bytes bytes' : List UInt8}

/-- The words are known from the text, -/
theorem words_eq (h : i.disassembly = j.disassembly) : i.words = j.words := by
  have hsplit : ∀ i : Instruction, i.disassembly.toList.splitOn ' ' = i.words := fun i ↦ by
    rw [toList_disassembly]
    exact List.splitOn_intercalate ' ' i.space_notMem_words (List.cons_ne_nil _ _)
  rw [← hsplit i, ← hsplit j, h]

/-- and from the words the opcode and the texts of the operands. -/
theorem texts_eq (h : i.disassembly = j.disassembly) : i.opcode = j.opcode ∧
    i.printedOperands.map Operand.assembly = j.printedOperands.map Operand.assembly := by
  obtain ⟨hopcode, hoperands⟩ := List.cons.inj (words_eq h)
  refine ⟨Opcode.mnemonic_injective (String.toList_inj.1 hopcode), ?_⟩
  have htexts := punctuated_injective hoperands
  have hinj : Function.Injective String.toList := fun _ _ ↦ String.toList_inj.1
  apply List.map_injective_iff.2 hinj
  rw [List.map_map, List.map_map]
  exact htexts

/-- Operands that are legible are known from their texts. -/
theorem operands_eq {op : Opcode} {operands operands' : List Operand}
    (h : ∀ o ∈ operands, o.Legible op) (h' : ∀ o ∈ operands', o.Legible op)
    (ht : operands.map Operand.assembly = operands'.map Operand.assembly) :
    operands = operands' := by
  have hread : ∀ operands : List Operand, (∀ o ∈ operands, o.Legible op) →
      (operands.map Operand.assembly).map (fun text ↦ Operand.ofText? op text.toList) =
        operands.map some := fun operands h ↦ by
    rw [List.map_map]
    exact List.map_congr_left h
  have hsome := hread operands h
  rw [ht, hread operands' h'] at hsome
  exact (List.map_injective_iff.2 (fun _ _ ↦ Option.some.inj) hsome).symm

/-- **The text of an instruction says which bytes it stands in memory as.** -/
theorem Encoded.bytes_eq (hi : Encoded bytes i) (hj : Encoded bytes' j)
    (h : i.disassembly = j.disassembly) : bytes = bytes' := by
  obtain ⟨hopcode, htexts⟩ := texts_eq h
  rw [hi.eq_assembled, hj.eq_assembled, hopcode,
    operands_eq hi.legible (hopcode ▸ hj.legible) htexts]

end

end Instruction

/-! ## Decoding from the bus -/

namespace Hardware

open Instruction (Encoded addresses addresses_succ decode decode_eq_ok_iff decode_noting noting
  prefixByte readAll readAll_succ_eq_ok_iff)

variable {hw hw' : Hardware} {addr pc pc' : UInt16} {bytes : List UInt8} {i : Instruction}

/-- The byte at an address, or the fault that reading it ends in. -/
def byteAt (hw : Hardware) (addr : UInt16) : Except Fault UInt8 := (load addr hw).result

/-- From an address on these bytes can be read. -/
def Holds (hw : Hardware) (addr : UInt16) (bytes : List UInt8) : Prop :=
  (addresses addr bytes.length).map hw.byteAt = bytes.map .ok

theorem holds_cons {byte : UInt8} :
    hw.Holds addr (byte :: bytes) ↔ hw.byteAt addr = .ok byte ∧ hw.Holds (addr + 1) bytes := by
  rw [Holds, List.length_cons, addresses_succ, List.map_cons, List.map_cons, List.cons.injEq, Holds]

/-- What can be read is read. -/
theorem readAll_load_iff : hw.Holds addr bytes ↔
    ∃ records, readAll load bytes.length addr hw = ⟨.ok bytes, hw, records⟩ := by
  induction bytes generalizing addr with
  | nil => exact iff_of_true rfl ⟨#[], rfl⟩
  | cons byte rest ih =>
    rw [holds_cons, ih]
    constructor
    · rintro ⟨hbyte, after, hrest⟩
      have hload : load addr hw = ⟨.ok byte, hw, (load addr hw).records⟩ := by
        rw [← hbyte]
        rfl
      exact ⟨_, readAll_succ_eq_ok_iff.2 ⟨hw, _, after, hload, hrest, rfl⟩⟩
    · rintro ⟨records, hall⟩
      obtain ⟨t, before, after, hload, hrest, -⟩ := readAll_succ_eq_ok_iff.1 hall
      obtain rfl : hw = t := by
        have hstate := congrArg Outcome.state hload
        exact hstate
      exact ⟨congrArg Outcome.result hload, after, hrest⟩

/-- An instruction is decoded wherever its bytes can be read. -/
theorem decode_load_iff : (decode load Exec.fail pc hw).result = .ok i ↔
    ∃ bytes, Encoded bytes i ∧ hw.Holds pc bytes := by
  constructor
  · intro h
    have hstate := (Instruction.always_decode untouched_chains untouched_load pc hw).1
    rcases ho : decode load Exec.fail pc hw with ⟨result, hw', records⟩
    rw [ho] at h hstate
    obtain rfl : result = .ok i := h
    obtain rfl : hw' = hw := hstate
    obtain ⟨bytes, hi, hread⟩ := decode_eq_ok_iff.1 ho
    exact ⟨bytes, hi, readAll_load_iff.2 ⟨records, hread⟩⟩
  · rintro ⟨bytes, hi, hholds⟩
    obtain ⟨records, hread⟩ := readAll_load_iff.1 hholds
    rw [decode_eq_ok_iff.2 ⟨bytes, hi, hread⟩]

/-- **Decoding and disassembly are unambiguous.**  Decoding an instruction consults as many bytes as
the instruction is long, from the program counter on, and no others: the prefix byte and an opcode,
or an opcode and the immediates, words with their low byte first.  Wherever the same bytes can be
read the same instruction is decoded, and whatever is decoded with the same text is the same
instruction and stands in memory as the same bytes. -/
theorem decoding_unambiguous (hw hw' : Hardware) (pc pc' : UInt16) (i : Instruction)
    (h : (decode load Exec.fail pc hw).result = .ok i) :
    (∃ records, decode (noting load) Exec.fail pc (hw, []) =
      ⟨.ok i, (hw, addresses pc i.length.toNat), records⟩) ∧
    i.length.toNat = 1 + i.immediates.length + (if i.isPrefixed then 1 else 0) ∧
    (∃ opcode,
      (i.isPrefixed ∧ i.immediates = [] ∧ hw.Holds pc [prefixByte, opcode]) ∨
      (i.isPrefixed = false ∧ opcode ≠ prefixByte ∧ hw.Holds pc (opcode :: i.immediates))) ∧
    ((addresses pc i.length.toNat).map hw.byteAt = (addresses pc' i.length.toNat).map hw'.byteAt →
      (decode load Exec.fail pc' hw').result = .ok i) ∧
    ∀ j, (decode load Exec.fail pc' hw').result = .ok j → i.disassembly = j.disassembly →
      i = j ∧ i.length = j.length ∧
        (addresses pc i.length.toNat).map hw.byteAt =
          (addresses pc' j.length.toNat).map hw'.byteAt := by
  obtain ⟨bytes, hi, hholds⟩ := decode_load_iff.1 h
  have hmap : (addresses pc i.length.toNat).map hw.byteAt = bytes.map .ok := hi.length ▸ hholds
  refine ⟨?_, ?_, ?_, fun hsame ↦ ?_, fun j hj htext ↦ ?_⟩
  · obtain ⟨records, hread⟩ := readAll_load_iff.1 hholds
    exact ⟨records, decode_noting (decode_eq_ok_iff.2 ⟨bytes, hi, hread⟩) []⟩
  · rw [← hi.length]
    rcases hi.cases_isPrefixed with ⟨hp, hnil, opcode, rfl⟩ | ⟨hp, opcode, -, rfl⟩
    · rw [if_pos hp, hnil]
      rfl
    · rw [hp, if_neg Bool.false_ne_true, List.length_cons, Nat.add_comm, Nat.add_zero]
  · rcases hi.cases_isPrefixed with ⟨hp, hnil, opcode, rfl⟩ | ⟨hp, opcode, hne, rfl⟩
    · exact ⟨opcode, Or.inl ⟨hp, hnil, hholds⟩⟩
    · exact ⟨opcode, Or.inr ⟨hp, hne, hholds⟩⟩
  · refine decode_load_iff.2 ⟨bytes, hi, ?_⟩
    rw [Holds, hi.length, ← hsame, hmap]
  · obtain ⟨bytes', hj, hholds'⟩ := decode_load_iff.1 hj
    obtain rfl := hi.bytes_eq hj htext
    obtain rfl := hi.unique hj
    exact ⟨rfl, rfl, by rw [hmap, ← hi.length, hholds']⟩

/-- The empty image with a load of an immediate word where programs start. -/
def loadingImage : Array UInt8 :=
  ((emptyImage.setIfInBounds 0x100 0x21).setIfInBounds 0x101 0x34).setIfInBounds 0x102 0x12

/-- The hardware as it starts with that image. -/
def loading : Hardware := (powerOn (.plain loadingImage)).1

theorem holds_loading : loading.Holds 0x100 [0x21, 0x34, 0x12] := by
  have hbyte : ∀ {addr : UInt16} {byte : UInt8}, addr < 0x4000 →
      loadingImage[addr.toNat]? = some byte → loading.byteAt addr = .ok byte := by
    intro addr byte ha hb
    have hc : loading.bus.cartridge = .plain loadingImage := by
      rw [loading, powerOn_eq]
      exact cartridge_covers.started _
    have himage : loading.bus.cartridge.image = loadingImage := by
      rw [hc, Cartridge.plain]
    rw [← himage] at hb
    rw [byteAt, load_image ha hb]
  refine holds_cons.2 ⟨hbyte (by decide) ?_, holds_cons.2 ⟨hbyte (by decide) ?_,
    holds_cons.2 ⟨hbyte (by decide) ?_, rfl⟩⟩⟩ <;>
    simp [loadingImage, emptyImage, imageBankSize]

/-- The load is decoded from three bytes, the low one of its word first. -/
theorem decoding_unambiguous_loading :
    let i : Instruction := ⟨.ld, some (.pair .hl), some (.imm16 0x1234 .immediate), 3, 12, none⟩
    i.disassembly = "ld hl, $1234" ∧ (decode load Exec.fail 0x100 loading).result = .ok i ∧
      ∃ records, decode (noting load) Exec.fail 0x100 (loading, []) =
        ⟨.ok i, (loading, [0x100, 0x101, 0x102]), records⟩ := by
  intro i
  have hi : Encoded [0x21, 0x34, 0x12] i := @Encoded.plain 0x21 i (by decide) rfl
  have hd : (decode load Exec.fail 0x100 loading).result = .ok i :=
    decode_load_iff.2 ⟨_, hi, holds_loading⟩
  exact ⟨by decide +kernel, hd, (decoding_unambiguous loading loading 0x100 0x100 i hd).1⟩

end Hardware

end DotMatrix
