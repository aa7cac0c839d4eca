import Mathlib.Data.List.Basic
import DotMatrix.Instruction.Decode
import DotMatrix.Proofs.Exec
import DotMatrix.Proofs.Hardware.Update

/-!
# The bytes of an instruction

An instruction stands in memory as its opcode, behind the prefix byte if it has one, and its
immediates behind that, words with their low byte first.  `Encoded bytes i` says that `bytes` are
those of `i`.

* `Encoded.unique` — bytes are those of one instruction at most, and `Encoded.length` counts them.
* `readAll` — reading bytes one after another.
* `decode_eq_ok_iff` — decoding is exactly this: it yields the instruction whose bytes it reads, and
  leaves the state and the records that reading them leaves, whatever the reader does.
-/

set_option autoImplicit false

namespace DotMatrix

/-! ## Immediates -/

namespace Operand

/-- The bytes of an operand that stand behind the opcode, those of a word with the low one first. -/
def immediates : Operand → List UInt8
  | .imm8 value _ => [value]
  | .imm16 value _ => [lowByte value, highByte value]
  | .offset displacement => [displacement]
  | .displaced _ displacement _ => [displacement]
  | .reg8 .. | .reg16 .. | .condition _ | .bit _ | .vector _ => []

/-- The operand with other such bytes. -/
def filled (bytes : List UInt8) : Operand → Operand
  | .imm8 value mode => .imm8 (bytes.headD value) mode
  | .imm16 value mode =>
    .imm16 (wordOfBytes (bytes.tail.headD (highByte value)) (bytes.headD (lowByte value))) mode
  | .offset displacement => .offset (bytes.headD displacement)
  | .displaced register displacement mode =>
    .displaced register (bytes.headD displacement) mode
  | operand => operand

/-- The operand with zeros in their place. -/
def blank : Operand → Operand
  | .imm8 _ mode => .imm8 0 mode
  | .imm16 _ mode => .imm16 0 mode
  | .offset _ => .offset 0
  | .displaced register _ mode => .displaced register 0 mode
  | operand => operand

section

variable {o : Operand} {bytes : List UInt8}

theorem immediates_filled (h : bytes.length = o.immediates.length) :
    (o.filled bytes).immediates = bytes := by
  cases o with
  | imm8 | offset | displaced =>
    obtain ⟨byte, rfl⟩ := List.length_eq_one_iff.1 h
    rfl
  | imm16 =>
    obtain ⟨low, high, rfl⟩ := List.length_eq_two.1 h
    simp [filled, immediates]
  | reg8 | reg16 | condition | bit | vector => exact (List.length_eq_zero_iff.1 h).symm

theorem blank_filled (o : Operand) (bytes : List UInt8) : (o.filled bytes).blank = o.blank := by
  cases o <;> rfl

theorem filled_of_immediates_eq_nil (h : o.immediates = []) : o.filled bytes = o := by
  cases o with
  | imm8 | imm16 | offset | displaced => cases h
  | reg8 | reg16 | condition | bit | vector => rfl

/-- An operand is known by its immediates and by the rest of it. -/
theorem filled_blank (o : Operand) : o.blank.filled o.immediates = o := by
  cases o with
  | imm16 => simp [blank, immediates, filled]
  | _ => rfl

theorem length_immediates_blank (o : Operand) :
    o.blank.immediates.length = o.immediates.length := by
  cases o <;> rfl

end

/-! ### Operands that may be missing -/

/-- The immediates of an operand that may be missing. -/
def immediates? (o : Option Operand) : List UInt8 := o.elim [] immediates

section

variable {o : Option Operand} {bytes : List UInt8}

theorem immediates?_filled (h : bytes.length = (immediates? o).length) :
    immediates? (o.map (filled bytes)) = bytes := by
  cases o with
  | none => exact (List.length_eq_zero_iff.1 h).symm
  | some o => exact immediates_filled h

theorem map_filled_of_immediates?_eq_nil (h : immediates? o = []) :
    o.map (filled bytes) = o := by
  cases o with
  | none => rfl
  | some o => exact congrArg some (filled_of_immediates_eq_nil h)

theorem map_filled_blank (o : Option Operand) :
    (o.map blank).map (filled (immediates? o)) = o := by
  cases o with
  | none => rfl
  | some o => exact congrArg some (filled_blank o)

theorem length_immediates?_blank (o : Option Operand) :
    (immediates? (o.map blank)).length = (immediates? o).length := by
  cases o with
  | none => rfl
  | some o => exact length_immediates_blank o

end

end Operand

namespace Instruction

open Operand (immediates? immediates?_filled map_filled_of_immediates?_eq_nil map_filled_blank
  length_immediates?_blank)

/-- The bytes that stand behind the opcode. -/
def immediates (i : Instruction) : List UInt8 := immediates? i.lhs ++ immediates? i.rhs

/-- The instruction with other such bytes. -/
def filled (bytes : List UInt8) (i : Instruction) : Instruction :=
  { i with lhs := i.lhs.map (Operand.filled bytes), rhs := i.rhs.map (Operand.filled bytes) }

/-- The instruction with zeros in their place. -/
def blank (i : Instruction) : Instruction :=
  { i with lhs := i.lhs.map Operand.blank, rhs := i.rhs.map Operand.blank }

/-- At most one operand has immediates. -/
def IsSingle (i : Instruction) : Prop := immediates? i.lhs = [] ∨ immediates? i.rhs = []

instance (i : Instruction) : Decidable i.IsSingle := inferInstanceAs (Decidable (_ ∨ _))

section

variable {i : Instruction} {bytes : List UInt8}

theorem blank_filled (i : Instruction) (bytes : List UInt8) : (i.filled bytes).blank = i.blank := by
  simp [blank, filled, Function.comp_def, Operand.blank_filled]

theorem length_immediates_blank (i : Instruction) :
    i.blank.immediates.length = i.immediates.length := by
  rw [immediates, immediates, List.length_append, List.length_append]
  exact congrArg₂ (· + ·) (length_immediates?_blank i.lhs) (length_immediates?_blank i.rhs)

theorem IsSingle.of_blank (h : i.blank.IsSingle) : i.IsSingle := by
  rw [IsSingle, ← List.length_eq_zero_iff, ← List.length_eq_zero_iff] at h ⊢
  rwa [← length_immediates?_blank i.lhs, ← length_immediates?_blank i.rhs]

theorem immediates_filled (hs : i.IsSingle) (h : bytes.length = i.immediates.length) :
    (i.filled bytes).immediates = bytes := by
  rw [immediates, List.length_append] at h
  rcases hs with hl | hr
  · rw [hl, List.length_nil, Nat.zero_add] at h
    rw [immediates, filled, map_filled_of_immediates?_eq_nil hl, hl, immediates?_filled h]
    rfl
  · rw [hr, List.length_nil, Nat.add_zero] at h
    rw [immediates, filled, map_filled_of_immediates?_eq_nil hr, hr, immediates?_filled h,
      List.append_nil]

/-- An instruction is known by its immediates and by the rest of it. -/
theorem filled_blank (hs : i.IsSingle) : i.blank.filled i.immediates = i := by
  have hl := map_filled_blank i.lhs
  have hr := map_filled_blank i.rhs
  rcases hs with hnil | hnil
  · have hi : i.immediates = immediates? i.rhs := by
      rw [immediates, hnil, List.nil_append]
    have hb : immediates? (i.lhs.map Operand.blank) = [] := by
      rw [← List.length_eq_zero_iff, length_immediates?_blank, hnil, List.length_nil]
    rw [map_filled_of_immediates?_eq_nil hb] at hl
    rw [filled, blank, hi, map_filled_of_immediates?_eq_nil hb, hl, hr]
  · have hi : i.immediates = immediates? i.lhs := by
      rw [immediates, hnil, List.append_nil]
    have hb : immediates? (i.rhs.map Operand.blank) = [] := by
      rw [← List.length_eq_zero_iff, length_immediates?_blank, hnil, List.length_nil]
    rw [map_filled_of_immediates?_eq_nil hb] at hr
    rw [filled, blank, hi, map_filled_of_immediates?_eq_nil hb, hl, hr]

end

/-! ## Encodings -/

/-- Bytes that an instruction stands in memory as. -/
inductive Encoded : List UInt8 → Instruction → Prop where
  | prefixed {opcode : UInt8} {i : Instruction} (ht : prefixedTemplate opcode = some i) :
      Encoded [prefixByte, opcode] i
  | plain {opcode : UInt8} {i : Instruction} (hp : opcode ≠ prefixByte)
      (ht : template opcode = some i.blank) : Encoded (opcode :: i.immediates) i

/-- What holds of the 256 bytes and their templates, behind the prefix byte or not, holds of every
byte that has a template. -/
theorem forall_template {P : UInt8 → Instruction → Prop} [∀ opcode, DecidablePred (P opcode)]
    {table : UInt8 → Option Instruction} {opcode : UInt8} {i : Instruction}
    (ht : table opcode = some i)
    (h : ∀ n : Fin 256, (table (UInt8.ofNat n.val)).all fun i ↦ P (UInt8.ofNat n.val) i) :
    P opcode i := by
  have hall : ∀ opcode : UInt8, (table opcode).all fun i ↦ P opcode i := forall_byte h
  have ho := hall opcode
  rw [ht] at ho
  exact of_decide_eq_true ho

/-- No opcode behind the prefix byte is without a template. -/
theorem prefixedTemplate_ne_none : ∀ opcode, prefixedTemplate opcode ≠ none :=
  forall_byte (by decide +kernel)

/-- What is known of the templates of plain opcodes: their immediates are zeros, of one operand at
most, and their length counts them; none is prefixed. -/
theorem of_template {opcode : UInt8} {i : Instruction} (h : template opcode = some i) :
    i.blank = i ∧ i.IsSingle ∧ i.length.toNat = 1 + i.immediates.length ∧
      i.isPrefixed = false := by
  apply forall_template h
  decide +kernel

/-- What is known of those behind the prefix byte: they have no immediates. -/
theorem of_prefixedTemplate {opcode : UInt8} {i : Instruction}
    (h : prefixedTemplate opcode = some i) :
    i.blank = i ∧ i.immediates = [] ∧ i.length = 2 ∧ i.isPrefixed := by
  apply forall_template h
  decide +kernel

namespace Encoded

variable {bytes : List UInt8} {i j : Instruction}

/-- Bytes are those of one instruction at most. -/
theorem unique (hi : Encoded bytes i) (hj : Encoded bytes j) : i = j := by
  generalize hb : bytes = bytes' at hj
  cases hi with
  | prefixed ht =>
    cases hj with
    | prefixed ht' =>
      obtain ⟨-, hopcode⟩ := List.cons.inj hb
      obtain rfl := (List.cons.inj hopcode).1
      exact Option.some.inj (ht.symm.trans ht')
    | plain hp ht => exact absurd (List.cons.inj hb).1.symm hp
  | plain hp ht =>
    cases hj with
    | prefixed => exact absurd (List.cons.inj hb).1 hp
    | plain hp' ht' =>
      obtain ⟨rfl, himmediates⟩ := List.cons.inj hb
      have hblank : i.blank = j.blank := Option.some.inj (ht.symm.trans ht')
      have hs : i.IsSingle := .of_blank (of_template ht).2.1
      have hs' : j.IsSingle := .of_blank (of_template ht').2.1
      rw [← filled_blank hs, ← filled_blank hs', hblank, himmediates]

theorem exists_cons (h : Encoded bytes i) : ∃ opcode rest, bytes = opcode :: rest := by
  cases h <;> exact ⟨_, _, rfl⟩

theorem exists_template {opcode : UInt8} (h : Encoded (opcode :: bytes) i)
    (hp : opcode ≠ prefixByte) : ∃ plain, template opcode = some plain := by
  cases h with
  | prefixed => exact absurd rfl hp
  | plain _ ht => exact ⟨_, ht⟩

/-- An instruction is as long as its bytes are many. -/
theorem length (h : Encoded bytes i) : bytes.length = i.length.toNat := by
  cases h with
  | prefixed ht =>
    rw [(of_prefixedTemplate ht).2.2.1]
    rfl
  | plain hp ht =>
    have hl : i.length.toNat = 1 + i.blank.immediates.length := (of_template ht).2.2.1
    rw [List.length_cons, hl, length_immediates_blank, Nat.add_comm]

/-- The first byte tells whether an instruction is prefixed; the others are its opcode then, and its
immediates otherwise. -/
theorem cases_isPrefixed (h : Encoded bytes i) :
    (i.isPrefixed ∧ i.immediates = [] ∧ ∃ opcode, bytes = [prefixByte, opcode]) ∨
    (i.isPrefixed = false ∧ ∃ opcode, opcode ≠ prefixByte ∧ bytes = opcode :: i.immediates) := by
  cases h with
  | prefixed ht =>
    obtain ⟨-, hnil, -, hp⟩ := of_prefixedTemplate ht
    exact Or.inl ⟨hp, hnil, _, rfl⟩
  | plain hp ht => exact Or.inr ⟨(of_template ht).2.2.2, _, hp, rfl⟩

end Encoded

/-! ## Reading bytes -/

section

variable {σ : Type} (read : UInt16 → Exec σ UInt8)

/-- Read bytes one after another. -/
def readAll : Nat → UInt16 → Exec σ (List UInt8)
  | 0, _ => pure []
  | n + 1, addr => do
    let byte ← read addr
    let rest ← readAll n (addr + 1)
    return byte :: rest

/-- Filling in an operand is reading its immediates. -/
theorem fillOperand_eq (addr : UInt16) (o : Operand) :
    fillOperand read addr o = (do
      let bytes ← readAll read o.immediates.length addr
      return o.filled bytes) := by
  cases o with
  | imm8 | offset | displaced =>
    simp [fillOperand, readAll, Operand.immediates, Operand.filled]
  | imm16 => simp [fillOperand, readAll, Operand.immediates, Operand.filled]
  | reg8 | reg16 | condition | bit | vector =>
    simp [fillOperand, readAll, Operand.immediates, Operand.filled]

theorem fillOperand?_eq (addr : UInt16) (o : Option Operand) :
    fillOperand? read addr o = (do
      let bytes ← readAll read (immediates? o).length addr
      return o.map (Operand.filled bytes)) := by
  cases o with
  | none => simp [fillOperand?, immediates?, readAll]
  | some o => simp [fillOperand?, fillOperand_eq, immediates?]

/-- Nothing is read for an operand without immediates. -/
theorem fillOperand?_of_nil (addr : UInt16) {o : Option Operand} (h : immediates? o = []) :
    fillOperand? read addr o = pure o := by
  rw [fillOperand?_eq, h, List.length_nil, readAll, pure_bind, map_filled_of_immediates?_eq_nil h]

/-- Filling in both operands is reading the immediates of an instruction. -/
theorem fillOperands_eq (addr : UInt16) {i : Instruction} (h : i.IsSingle) :
    (do
      let lhs ← fillOperand? read addr i.lhs
      let rhs ← fillOperand? read addr i.rhs
      return { i with lhs := lhs, rhs := rhs }) = (do
      let bytes ← readAll read i.immediates.length addr
      return i.filled bytes) := by
  rcases h with hnil | hnil
  · have hi : i.immediates = immediates? i.rhs := by
      rw [immediates, hnil, List.nil_append]
    rw [fillOperand?_of_nil read addr hnil, pure_bind, fillOperand?_eq, hi, bind_assoc]
    simp only [pure_bind]
    refine bind_congr fun bytes ↦ ?_
    rw [filled, map_filled_of_immediates?_eq_nil hnil]
  · have hi : i.immediates = immediates? i.lhs := by
      rw [immediates, hnil, List.append_nil]
    rw [fillOperand?_of_nil read addr hnil, fillOperand?_eq, hi, bind_assoc]
    simp only [pure_bind]
    refine bind_congr fun bytes ↦ ?_
    rw [filled, map_filled_of_immediates?_eq_nil hnil]

variable {read} {s s' : σ} {records : Array Record} {n : Nat} {addr pc : UInt16}
  {bytes : List UInt8} {i : Instruction}

theorem readAll_succ_eq_ok_iff {byte : UInt8} :
    readAll read (n + 1) addr s = ⟨.ok (byte :: bytes), s', records⟩ ↔ ∃ t before after,
      read addr s = ⟨.ok byte, t, before⟩ ∧
      readAll read n (addr + 1) t = ⟨.ok bytes, s', after⟩ ∧ records = before ++ after := by
  rw [readAll, Exec.bind_eq_ok_iff]
  constructor
  · rintro ⟨first, t, before, after, hread, hmore, rfl⟩
    obtain ⟨rest, u, middle, last, hrest, hpure, rfl⟩ := Exec.bind_eq_ok_iff.1 hmore
    cases hpure
    exact ⟨t, before, middle, hread, hrest, by rw [Array.append_empty]⟩
  · rintro ⟨t, before, after, hread, hrest, rfl⟩
    exact ⟨byte, t, before, after, hread,
      Exec.bind_eq_ok_iff.2 ⟨bytes, s', after, #[], hrest, rfl, by rw [Array.append_empty]⟩, rfl⟩

theorem length_of_readAll (h : readAll read n addr s = ⟨.ok bytes, s', records⟩) :
    bytes.length = n := by
  induction n generalizing bytes addr s records with
  | zero =>
    cases h
    rfl
  | succ n ih =>
    rw [readAll, Exec.bind_eq_ok_iff] at h
    obtain ⟨first, t, before, after, hread, hmore, rfl⟩ := h
    obtain ⟨rest, u, middle, last, hrest, hpure, rfl⟩ := Exec.bind_eq_ok_iff.1 hmore
    cases hpure
    rw [List.length_cons, ih hrest]

/-! ## Decoding -/

/-- Behind the prefix byte an opcode is read. -/
theorem prefixed_eq_ok_iff :
    (do
      let opcode ← read (pc + 1)
      match prefixedTemplate opcode with
      | none => Exec.fail (.undefinedOpcode opcode pc true)
      | some i => return i) s = ⟨.ok i, s', records⟩ ↔
    ∃ rest, Encoded (prefixByte :: rest) i ∧
      readAll read rest.length (pc + 1) s = ⟨.ok rest, s', records⟩ := by
  rw [Exec.bind_eq_ok_iff]
  constructor
  · rintro ⟨opcode, t, before, after, hread, hmore, rfl⟩
    cases ht : prefixedTemplate opcode with
    | none => exact absurd ht (prefixedTemplate_ne_none opcode)
    | some plain =>
      rw [ht] at hmore
      cases hmore
      exact ⟨[opcode], .prefixed ht,
        readAll_succ_eq_ok_iff.2 ⟨s', before, #[], hread, rfl, rfl⟩⟩
  · rintro ⟨rest, hi, hrest⟩
    cases hi with
    | plain hp => exact absurd rfl hp
    | @prefixed opcode _ ht =>
      obtain ⟨t, before, after, hread, hnil, rfl⟩ := readAll_succ_eq_ok_iff.1 hrest
      cases hnil
      exact ⟨opcode, s', before, #[], hread, by rw [ht]; rfl, rfl⟩

/-- Behind a plain opcode immediates are read. -/
theorem plain_eq_ok_iff {opcode : UInt8} {plain : Instruction} (hp : opcode ≠ prefixByte)
    (ht : template opcode = some plain) :
    (do
      let lhs ← fillOperand? read (pc + 1) plain.lhs
      let rhs ← fillOperand? read (pc + 1) plain.rhs
      return { plain with lhs := lhs, rhs := rhs }) s = ⟨.ok i, s', records⟩ ↔
    ∃ rest, Encoded (opcode :: rest) i ∧
      readAll read rest.length (pc + 1) s = ⟨.ok rest, s', records⟩ := by
  obtain ⟨hblank, hsingle, -, -⟩ := of_template ht
  rw [fillOperands_eq read _ hsingle, Exec.bind_eq_ok_iff]
  constructor
  · rintro ⟨rest, t, before, after, hrest, hpure, rfl⟩
    cases hpure
    have hlength := length_of_readAll hrest
    have hi : Encoded (opcode :: (plain.filled rest).immediates) (plain.filled rest) :=
      .plain hp (by rw [blank_filled, hblank, ht])
    rw [immediates_filled hsingle hlength] at hi
    rw [Array.append_empty]
    exact ⟨rest, hi, hlength ▸ hrest⟩
  · rintro ⟨rest, hi, hrest⟩
    cases hi with
    | prefixed => exact absurd rfl hp
    | plain _ ht' =>
      obtain rfl : i.blank = plain := Option.some.inj (ht'.symm.trans ht)
      rw [length_immediates_blank]
      refine ⟨i.immediates, s', records, #[], hrest, ?_, by rw [Array.append_empty]⟩
      rw [filled_blank hsingle.of_blank]
      rfl

/-- **Decoding is reading the bytes of an instruction**, no more and no fewer, one after another. -/
theorem decode_eq_ok_iff :
    decode read Exec.fail pc s = ⟨.ok i, s', records⟩ ↔
      ∃ bytes, Encoded bytes i ∧ readAll read bytes.length pc s = ⟨.ok bytes, s', records⟩ := by
  rw [decode, Exec.bind_eq_ok_iff]
  simp only [entry_templates, entry_prefixedTemplates]
  constructor
  · rintro ⟨opcode, t, before, after, hread, hmore, rfl⟩
    have hrest : ∃ rest, Encoded (opcode :: rest) i ∧
        readAll read rest.length (pc + 1) t = ⟨.ok rest, s', after⟩ := by
      by_cases hp : opcode = prefixByte
      · rw [if_pos hp] at hmore
        exact hp ▸ prefixed_eq_ok_iff.1 hmore
      rw [if_neg hp] at hmore
      cases ht : template opcode with
      | none =>
        rw [ht] at hmore
        cases hmore
      | some plain =>
        rw [ht] at hmore
        exact (plain_eq_ok_iff hp ht).1 hmore
    obtain ⟨rest, hi, hrest⟩ := hrest
    exact ⟨opcode :: rest, hi,
      readAll_succ_eq_ok_iff.2 ⟨t, before, after, hread, hrest, rfl⟩⟩
  · rintro ⟨bytes, hi, hall⟩
    obtain ⟨opcode, rest, rfl⟩ := hi.exists_cons
    obtain ⟨t, before, after, hread, hrest, rfl⟩ := readAll_succ_eq_ok_iff.1 hall
    refine ⟨opcode, t, before, after, hread, ?_, rfl⟩
    by_cases hp : opcode = prefixByte
    · rw [if_pos hp]
      exact prefixed_eq_ok_iff.2 ⟨rest, hp ▸ hi, hrest⟩
    rw [if_neg hp]
    obtain ⟨plain, ht⟩ := hi.exists_template hp
    rw [ht]
    exact (plain_eq_ok_iff hp ht).2 ⟨rest, hi, hrest⟩

/-! ## What is consulted -/

/-- A reader that also notes the addresses that it is asked for, in order. -/
def noting (read : UInt16 → Exec σ UInt8) (addr : UInt16) : Exec (σ × List UInt16) UInt8 :=
  fun (s, noted) ↦ ⟨(read addr s).result, ((read addr s).state, noted ++ [addr]),
    (read addr s).records⟩

/-- So many addresses from one on, in order; behind the last one comes the first. -/
def addresses (addr : UInt16) (n : Nat) : List UInt16 :=
  (List.range n).map fun k ↦ addr + UInt16.ofNat k

theorem add_ofNat_succ (addr : UInt16) (k : Nat) :
    addr + UInt16.ofNat (k + 1) = addr + 1 + UInt16.ofNat k := by
  rw [UInt16.ofNat_add, UInt16.add_assoc, UInt16.add_comm (UInt16.ofNat k)]
  rfl

theorem addresses_succ (addr : UInt16) (n : Nat) :
    addresses addr (n + 1) = addr :: addresses (addr + 1) n := by
  rw [addresses, List.range_succ_eq_map, List.map_cons, List.map_map, addresses]
  refine congrArg₂ List.cons (UInt16.add_zero addr) (List.map_congr_left fun k _ ↦ ?_)
  exact add_ofNat_succ addr k

/-- Reading bytes one after another asks for each of them once. -/
theorem readAll_noting (h : readAll read n addr s = ⟨.ok bytes, s', records⟩)
    (noted : List UInt16) : readAll (noting read) n addr (s, noted) =
      ⟨.ok bytes, (s', noted ++ addresses addr n), records⟩ := by
  induction n generalizing addr s bytes records noted with
  | zero =>
    cases h
    rw [addresses, List.range_zero, List.map_nil, List.append_nil]
    rfl
  | succ n ih =>
    obtain ⟨byte, rest, rfl⟩ := List.exists_cons_of_length_eq_add_one (length_of_readAll h)
    obtain ⟨t, before, after, hread, hrest, rfl⟩ := readAll_succ_eq_ok_iff.1 h
    have hnote : noting read addr (s, noted) = ⟨.ok byte, (t, noted ++ [addr]), before⟩ := by
      rw [noting, hread]
    refine readAll_succ_eq_ok_iff.2 ⟨_, before, after, hnote, ?_, rfl⟩
    rw [ih hrest, addresses_succ, List.append_assoc]
    rfl

/-- Decoding consults the bytes of the instruction and no others. -/
theorem decode_noting (h : decode read Exec.fail pc s = ⟨.ok i, s', records⟩)
    (noted : List UInt16) : decode (noting read) Exec.fail pc (s, noted) =
      ⟨.ok i, (s', noted ++ addresses pc i.length.toNat), records⟩ := by
  obtain ⟨bytes, hi, hread⟩ := decode_eq_ok_iff.1 h
  rw [← hi.length]
  exact decode_eq_ok_iff.2 ⟨bytes, hi, readAll_noting hread noted⟩

/-- What holds of the templates, and does not depend on immediates, holds of what is decoded. -/
theorem of_decode {P : Instruction → Prop} (h : (decode read Exec.fail pc s).result = .ok i)
    (hblank : ∀ i : Instruction, P i.blank → P i)
    (hplain : ∀ {opcode : UInt8} {i : Instruction}, template opcode = some i → P i)
    (hprefixed : ∀ {opcode : UInt8} {i : Instruction}, prefixedTemplate opcode = some i → P i) :
    P i := by
  rcases ho : decode read Exec.fail pc s with ⟨result, s', records⟩
  rw [ho] at h
  obtain rfl : result = .ok i := h
  obtain ⟨bytes, hi, -⟩ := decode_eq_ok_iff.1 ho
  cases hi with
  | prefixed ht => exact hprefixed ht
  | plain _ ht => exact hblank i (hplain ht)

end

end Instruction

end DotMatrix
