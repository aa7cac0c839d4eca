import DotMatrix.Proofs.Console.Stores
import DotMatrix.Proofs.Memory.Storage

/-!
# The stack

Words that are pushed come back in the opposite order, wherever the stack lies: it may wrap round
the address space, cross from one kind of memory into another and lie in the echo of work memory, as
long as the bytes that it takes are different places of storage.

* `Room` — there is room for some bytes below the stack pointer, and `Below`, the places they take.
* `Balanced` — an operation that leaves the stack pointer where it was and touches only these.
* `balanced_around` — so is an operation between pushing a word and popping it.
* `balanced_words`, `balanced_pairs` — so words and register pairs come back.
* `stack_returns` — what is pushed comes back, and nothing else is touched.
-/

set_option autoImplicit false

namespace DotMatrix

/-! ## Below the stack pointer -/

/-- The address of the byte number `k` that is pushed. -/
def belowPointer (sp : UInt16) (k : Nat) : UInt16 := sp - 1 - UInt16.ofNat k

/-- The first `n` bytes that are pushed go to storage, each to a different place. -/
structure Room (b : Bus) (sp : UInt16) (n : Nat) : Prop where
  stored : ∀ k < n, ∃ s, b.storage? (belowPointer sp k) = some s
  distinct : ∀ j < n, ∀ k < n,
    b.storage? (belowPointer sp j) = b.storage? (belowPointer sp k) → j = k

/-- One of the places that the first `n` bytes which are pushed go to. -/
def Below (b : Bus) (sp : UInt16) (n : Nat) (s : Storage) : Prop :=
  ∃ k < n, b.storage? (belowPointer sp k) = some s

theorem belowPointer_zero (sp : UInt16) : belowPointer sp 0 = sp - 1 := by
  rw [belowPointer]
  exact UInt16.sub_zero _

/-- What is pushed behind a word. -/
theorem belowPointer_add_two (sp : UInt16) (k : Nat) :
    belowPointer sp (k + 2) = belowPointer (sp - 1 - 1) k := by
  rw [belowPointer, belowPointer, UInt16.ofNat_add, show UInt16.ofNat 2 = 1 + 1 from rfl]
  grind

section

variable {b b' : Bus} {sp : UInt16} {n : Nat} {s : Storage}

/-- There is room behind a word. -/
theorem Room.rest (h : Room b sp (n + 2)) (hb : ∀ addr, b'.storage? addr = b.storage? addr) :
    Room b' (sp - 1 - 1) n where
  stored k hk := by
    rw [hb, ← belowPointer_add_two]
    exact h.stored (k + 2) (by omega)
  distinct j hj k hk he := by
    rw [hb, hb, ← belowPointer_add_two, ← belowPointer_add_two] at he
    have := h.distinct (j + 2) (by omega) (k + 2) (by omega) he
    omega

theorem Below.of_rest (h : Below b' (sp - 1 - 1) n s)
    (hb : ∀ addr, b'.storage? addr = b.storage? addr) : Below b sp (n + 2) s := by
  obtain ⟨k, hk, hs⟩ := h
  refine ⟨k + 2, by omega, ?_⟩
  rw [belowPointer_add_two, ← hb]
  exact hs

/-- The places of a word are not used again behind it. -/
theorem Room.not_below_rest (h : Room b sp (n + 2))
    (hb : ∀ addr, b'.storage? addr = b.storage? addr) {k : Nat} (hk : k < 2)
    (hs : b.storage? (belowPointer sp k) = some s) : ¬ Below b' (sp - 1 - 1) n s := by
  rintro ⟨j, hj, hbelow⟩
  rw [hb, ← belowPointer_add_two] at hbelow
  have := h.distinct k (by omega) (j + 2) (by omega) (hs.trans hbelow.symm)
  omega

end

/-! ## What register pairs hold -/

/-- The four pairs that are pushed and popped. -/
def Reg16.isStacked : Reg16 → Bool
  | .af | .bc | .de | .hl => true
  | .sp | .pc => false

/-- What a pair holds of a word; the lowest bits of the flags' byte do not exist. -/
def Reg16.holds (register : Reg16) (value : UInt16) : UInt16 :=
  if register = .af then value &&& 0xfff0 else value

theorem toByte_ofByte (b : UInt8) : (Flags.ofByte b).toByte = b &&& 0xf0 := by
  revert b
  exact forall_byte (by decide +kernel)

/-- What is left of a word in the pair that the flags are half of. -/
theorem wordOfBytes_and (w : UInt16) :
    wordOfBytes (highByte w) (lowByte w &&& 0xf0) = w &&& 0xfff0 := by
  have hhigh : highByte (w &&& 0xfff0) = highByte w := by
    have hlt := w.toNat_lt
    rw [← UInt8.toNat_inj, toNat_highByte, toNat_highByte, UInt16.toNat_and,
      show (256 : Nat) = 2 ^ 8 from rfl, Nat.and_div_two_pow]
    show w.toNat / 2 ^ 8 &&& 2 ^ 8 - 1 = w.toNat / 2 ^ 8
    rw [Nat.and_two_pow_sub_one_eq_mod]
    omega
  have hlow : lowByte (w &&& 0xfff0) = lowByte w &&& 0xf0 := by
    rw [lowByte, lowByte, UInt16.toUInt8_and]
    rfl
  rw [← hhigh, ← hlow, wordOfBytes_highByte_lowByte]

theorem Registers.pair_setPair_holds (r : Registers) (register : Reg16) (value : UInt16) :
    (r.setPair register value).pair register = register.holds value := by
  rw [Reg16.holds]
  by_cases h : register = .af
  · subst h
    rw [if_pos rfl, ← wordOfBytes_and, ← toByte_ofByte]
    rfl
  · rw [if_neg h]
    exact r.pair_setPair h value

theorem Registers.sp_setPair (r : Registers) {register : Reg16} (h : register.isStacked)
    (value : UInt16) : (r.setPair register value).sp = r.sp := by
  cases register with
  | sp | pc => cases h
  | af | bc | de | hl => rfl

namespace Console

open Hardware (Touches DisplayListens)

variable {c : Console} {α : Type}

/-! ## A word -/

theorem popByte_of_load {byte : UInt8}
    (h : Hardware.load c.cpu.registers.sp c.hardware = ⟨.ok byte, c.hardware, #[]⟩) :
    popByte c = ⟨.ok byte,
      ⟨c.cpu.withRegisters { c.cpu.registers with sp := c.cpu.registers.sp + 1 }, c.hardware⟩,
      #[]⟩ := by
  have hload : load c.cpu.registers.sp c = ⟨.ok byte, c, #[]⟩ := by
    rw [load, onHardware, h]
  rw [popByte, registers, Exec.bind_gets, Exec.bind_of_ok hload, modifyRegisters, bind_modifyCpu]
  rfl

/-- A word is on top of the stack, in these places. -/
structure OnTop (hw : Hardware) (sp value : UInt16) (low high : Storage) : Prop where
  low_at : hw.bus.storage? sp = some low
  high_at : hw.bus.storage? (sp + 1) = some high
  low_byte : hw.bus.stored low = lowByte value
  high_byte : hw.bus.stored high = highByte value

theorem popWord_of_onTop {value : UInt16} {low high : Storage}
    (h : OnTop c.hardware c.cpu.registers.sp value low high) :
    popWord c = ⟨.ok value, ⟨c.cpu.withRegisters
      { c.cpu.registers with sp := c.cpu.registers.sp + 1 + 1 }, c.hardware⟩, #[]⟩ := by
  have hlow := popByte_of_load (c := c) (Hardware.load_of_storage h.low_at)
  have hhigh := popByte_of_load (c := ⟨c.cpu.withRegisters
    { c.cpu.registers with sp := c.cpu.registers.sp + 1 }, c.hardware⟩)
    (Hardware.load_of_storage h.high_at)
  rw [popWord, Exec.bind_of_ok hlow, Exec.bind_of_ok hhigh, h.low_byte, h.high_byte,
    wordOfBytes_highByte_lowByte]
  rfl

/-- A word is pushed where there is room for it. -/
theorem exists_pushWord (hl : DisplayListens c.hardware) {n : Nat}
    (hr : Room c.hardware.bus c.cpu.registers.sp (n + 2)) (value : UInt16) : ∃ hw' low high,
    pushWord value c = ⟨.ok (), ⟨c.cpu.withRegisters
      { c.cpu.registers with sp := c.cpu.registers.sp - 1 - 1 }, hw'⟩, #[]⟩ ∧
    OnTop hw' (c.cpu.registers.sp - 1 - 1) value low high ∧
    Touches (fun s ↦ s = high ∨ s = low) c.hardware hw' ∧
    c.hardware.bus.storage? (belowPointer c.cpu.registers.sp 0) = some high ∧
    c.hardware.bus.storage? (belowPointer c.cpu.registers.sp 1) = some low := by
  obtain ⟨high, hhigh⟩ := hr.stored 0 (by omega)
  obtain ⟨low, hlow⟩ := hr.stored 1 (by omega)
  have hne : high ≠ low := fun he ↦ by
    have := hr.distinct 0 (by omega) 1 (by omega) (by rw [hhigh, hlow, he])
    omega
  have hhigh' : c.hardware.bus.storage? (c.cpu.registers.sp - 1) = some high := by
    rw [← belowPointer_zero, hhigh]
  have hlow' : c.hardware.bus.storage? (c.cpu.registers.sp - 1 - 1) = some low := hlow
  obtain ⟨hw₁, h₁, hbyte₁, ht₁⟩ := Hardware.exists_write hl hhigh' (highByte value)
  obtain ⟨hw₂, h₂, hbyte₂, ht₂⟩ := Hardware.exists_write (ht₁.observers.trans hl)
    ((ht₁.storage?_eq _).trans hlow') (lowByte value)
  have ht := ht₁.trans ht₂
  refine ⟨hw₂, low, high, pushWord_of_writes h₁ h₂, ⟨?_, ?_, hbyte₂, ?_⟩, ht, hhigh, hlow⟩
  · rw [ht.storage?_eq, hlow']
  · rw [ht.storage?_eq, UInt16.sub_add_cancel, hhigh']
  · rw [ht₂.stored high hne]
    exact hbyte₁

/-! ## Operations that leave the stack as it was -/

/-- The operation yields `a`, puts the stack pointer back and touches only the `n` bytes below
it. -/
def Balanced (x : Exec Console α) (c : Console) (n : Nat) (a : α) (r : Registers) : Prop :=
  r.sp = c.cpu.registers.sp ∧ ∃ hw', x c = ⟨.ok a, ⟨c.cpu.withRegisters r, hw'⟩, #[]⟩ ∧
    Touches (Below c.hardware.bus c.cpu.registers.sp n) c.hardware hw'

/-- A word that is pushed before a balanced operation is popped behind it. -/
theorem balanced_around (hl : DisplayListens c.hardware) {n : Nat}
    (hr : Room c.hardware.bus c.cpu.registers.sp (n + 2)) (value : UInt16) : ∃ hw,
    DisplayListens hw ∧ Room hw.bus (c.cpu.registers.sp - 1 - 1) n ∧
    ∀ {x : Exec Console α} {a : α} {r : Registers},
      Balanced x ⟨c.cpu.withRegisters
        { c.cpu.registers with sp := c.cpu.registers.sp - 1 - 1 }, hw⟩ n a r →
      Balanced (do
        pushWord value
        let a ← x
        let popped ← popWord
        return (a, popped)) c (n + 2) (a, value) { r with sp := c.cpu.registers.sp } := by
  obtain ⟨hw₁, low, high, hpush, htop, ht₁, hhigh, hlow⟩ := exists_pushWord hl hr value
  have hsame := ht₁.storage?_eq
  refine ⟨hw₁, ht₁.observers.trans hl, hr.rest hsame, ?_⟩
  rintro x a r ⟨hsp, hw₂, hrun, ht₂⟩
  have htop₂ : OnTop hw₂ r.sp value low high := by
    have hlow' := hr.not_below_rest hsame (by omega) hlow
    have hhigh' := hr.not_below_rest hsame (by omega) hhigh
    rw [hsp]
    exact ⟨(ht₂.storage?_eq _).trans htop.low_at, (ht₂.storage?_eq _).trans htop.high_at,
      (ht₂.stored low hlow').trans htop.low_byte, (ht₂.stored high hhigh').trans htop.high_byte⟩
  have hpop := popWord_of_onTop (c := ⟨c.cpu.withRegisters r, hw₂⟩) htop₂
  have hback : r.sp + 1 + 1 = c.cpu.registers.sp := by
    rw [hsp]
    show c.cpu.registers.sp - 1 - 1 + 1 + 1 = _
    rw [UInt16.sub_add_cancel, UInt16.sub_add_cancel]
  refine ⟨rfl, hw₂, ?_, (ht₁.trans ht₂).mono fun s hs ↦ ?_⟩
  · have hrun : x _ = ⟨.ok a, ⟨c.cpu.withRegisters r, hw₂⟩, #[]⟩ := hrun
    rw [Exec.bind_of_ok hpush, Exec.bind_of_ok hrun, Exec.bind_of_ok hpop]
    show Outcome.mk (.ok (a, value)) (Console.mk (c.cpu.withRegisters
      { r with sp := r.sp + 1 + 1 }) hw₂) _ = _
    rw [hback]
    rfl
  · rcases hs with (rfl | rfl) | hs
    · exact ⟨0, by omega, hhigh⟩
    · exact ⟨1, by omega, hlow⟩
    · exact hs.of_rest hsame

section

variable {n : Nat} {a : α} {r r' : Registers} {x : Exec Console α}

/-- What only changes other registers may come behind it. -/
theorem Balanced.bind {β : Type} (h : Balanced x c n a r) {f : α → Exec Console β} {b : β}
    (hf : ∀ hw, f a ⟨c.cpu.withRegisters r, hw⟩ = ⟨.ok b, ⟨c.cpu.withRegisters r', hw⟩, #[]⟩)
    (hsp : r'.sp = r.sp) : Balanced (x >>= f) c n b r' := by
  obtain ⟨hr, hw', hx, ht⟩ := h
  refine ⟨hsp.trans hr, hw', ?_, ht⟩
  rw [Exec.bind_of_ok hx, hf]
  rfl

theorem Balanced.look {f : Registers → Exec Console α}
    (h : Balanced (f c.cpu.registers) c n a r) : Balanced (registers >>= f) c n a r := by
  rw [Balanced, bind_registers]
  exact h

/-- Other registers may be loaded before it. -/
theorem Balanced.loaded {f : Registers → Registers}
    (h : Balanced x ⟨c.cpu.withRegisters (f c.cpu.registers), c.hardware⟩ n a r)
    (hsp : (f c.cpu.registers).sp = c.cpu.registers.sp) :
    Balanced (modifyRegisters f >>= fun _ ↦ x) c n a r := by
  obtain ⟨hr, hw', hx, ht⟩ := h
  have hload : modifyRegisters f c =
    ⟨.ok (), ⟨c.cpu.withRegisters (f c.cpu.registers), c.hardware⟩, #[]⟩ := rfl
  refine ⟨hr.trans hsp, hw', ?_, ?_⟩
  · rw [Exec.bind_of_ok hload, hx]
    rfl
  · rw [← hsp]
    exact ht

theorem balanced_pure (a : α) (c : Console) : Balanced (pure a) c 0 a c.cpu.registers :=
  ⟨rfl, c.hardware, rfl, (Touches.refl _).mono fun _ h ↦ h.elim⟩

end

/-! ## Words -/

/-- Push words one after another. -/
def pushWords : List UInt16 → Exec Console Unit
  | [] => return ()
  | value :: rest => do
    pushWord value
    pushWords rest

/-- Pop so many words one after another. -/
def popWords : Nat → Exec Console (List UInt16)
  | 0 => return []
  | n + 1 => do
    let value ← popWord
    let rest ← popWords n
    return value :: rest

theorem popWords_succ (n : Nat) : popWords (n + 1) = (do
    let first ← popWords n
    let value ← popWord
    return first ++ [value]) := by
  induction n with
  | zero => simp [popWords]
  | succ n ih =>
    conv_lhs => rw [popWords, ih]
    conv_rhs => rw [popWords]
    simp only [bind_assoc, pure_bind, List.cons_append]

/-- Words that are pushed where there is room for them are popped in the opposite order. -/
theorem balanced_words (words : List UInt16) (hl : DisplayListens c.hardware)
    (hr : Room c.hardware.bus c.cpu.registers.sp (2 * words.length)) :
    Balanced (do pushWords words; popWords words.length) c (2 * words.length) words.reverse
      c.cpu.registers := by
  induction words generalizing c with
  | nil =>
    rw [pushWords, List.length_nil, popWords, pure_bind]
    exact balanced_pure [] c
  | cons value rest ih =>
    have hsplit : (do pushWords (value :: rest); popWords (value :: rest).length) = (do
        let (values, popped) ← (do
          pushWord value
          let values ← (do pushWords rest; popWords rest.length)
          let popped ← popWord
          return (values, popped))
        return values ++ [popped]) := by
      rw [List.length_cons, popWords_succ, pushWords]
      simp only [bind_assoc, pure_bind]
    obtain ⟨hw, hl', hr', haround⟩ := balanced_around hl hr value
    rw [hsplit, List.reverse_cons]
    exact (haround (ih hl' hr')).bind (fun _ ↦ rfl) rfl

/-! ## Register pairs -/

/-- A word that is loaded into one pair, pushed, and popped into another. -/
structure Passage where
  source : Reg16
  value : UInt16
  target : Reg16

/-- Load register pairs and push them, one after another. -/
def pushPairs : List Passage → Exec Console Unit
  | [] => return ()
  | p :: rest => do
    modifyRegisters (·.setPair p.source p.value)
    pushPair p.source
    pushPairs rest

/-- Pop into register pairs, one after another, and tell what each holds then. -/
def popPairs : List Reg16 → Exec Console (List UInt16)
  | [] => return []
  | register :: rest => do
    popPair register
    let r ← registers
    let values ← popPairs rest
    return r.pair register :: values

theorem popPairs_concat (first : List Reg16) (last : Reg16) : popPairs (first ++ [last]) = (do
    let values ← popPairs first
    popPair last
    let r ← registers
    return values ++ [r.pair last]) := by
  induction first with
  | nil => simp [popPairs]
  | cons register rest ih =>
    conv_lhs => rw [List.cons_append, popPairs, ih]
    conv_rhs => rw [popPairs]
    simp only [bind_assoc, pure_bind, List.cons_append]

/-- What a passage leaves of its word. -/
def Passage.result (p : Passage) : UInt16 := p.target.holds (p.source.holds p.value)

/-- Register pairs that are pushed where there is room for them are popped in the opposite order. -/
theorem balanced_pairs (passages : List Passage)
    (hp : ∀ p ∈ passages, p.source.isStacked ∧ p.target.isStacked)
    (hl : DisplayListens c.hardware)
    (hr : Room c.hardware.bus c.cpu.registers.sp (2 * passages.length)) :
    ∃ r, Balanced (do pushPairs passages; popPairs (passages.map Passage.target).reverse) c
      (2 * passages.length) (passages.map Passage.result).reverse r := by
  induction passages generalizing c with
  | nil =>
    refine ⟨c.cpu.registers, ?_⟩
    rw [pushPairs, pure_bind]
    exact balanced_pure [] c
  | cons p rest ih =>
    obtain ⟨hsource, htarget⟩ := hp p List.mem_cons_self
    have hsplit : (do
        pushPairs (p :: rest)
        popPairs ((p :: rest).map Passage.target).reverse) = (do
        modifyRegisters (·.setPair p.source p.value)
        let loaded ← registers
        let (values, popped) ← (do
          pushWord (loaded.pair p.source)
          let values ← (do
            pushPairs rest
            popPairs (rest.map Passage.target).reverse)
          let popped ← popWord
          return (values, popped))
        modifyRegisters (·.setPair p.target popped)
        let r ← registers
        return values ++ [r.pair p.target]) := by
      rw [List.map_cons, List.reverse_cons, popPairs_concat, pushPairs]
      simp only [pushPair, popPair, bind_assoc, pure_bind]
    let loaded : Console :=
      ⟨c.cpu.withRegisters (c.cpu.registers.setPair p.source p.value), c.hardware⟩
    have hsp : loaded.cpu.registers.sp = c.cpu.registers.sp :=
      c.cpu.registers.sp_setPair hsource p.value
    have hword : loaded.cpu.registers.pair p.source = p.source.holds p.value :=
      c.cpu.registers.pair_setPair_holds p.source p.value
    obtain ⟨hw, hl', hr', haround⟩ := balanced_around (c := loaded) (α := List UInt16) hl
      (by rw [hsp]; exact hr) (p.source.holds p.value)
    obtain ⟨r, hbalanced⟩ := ih (c := ⟨loaded.cpu.withRegisters
      { loaded.cpu.registers with sp := loaded.cpu.registers.sp - 1 - 1 }, hw⟩)
      (fun q hq ↦ hp q (List.mem_cons_of_mem p hq)) hl' hr'
    refine ⟨({ r with sp := loaded.cpu.registers.sp }).setPair p.target
      (p.source.holds p.value), ?_⟩
    rw [hsplit, List.map_cons, List.reverse_cons]
    refine Balanced.loaded (Balanced.look ?_) hsp
    rw [hword]
    refine (haround hbalanced).bind (fun hw ↦ ?_) (Registers.sp_setPair _ htarget _)
    have hheld := Registers.pair_setPair_holds { r with sp := loaded.cpu.registers.sp } p.target
      (p.source.holds p.value)
    rw [Passage.result, ← hheld]
    rfl

/-! ## Reading the rest -/

/-- Only the `n` bytes below the stack pointer of `c` have changed: every other place of storage,
whether or not an address selects it now, and everything that is no storage is as before, and so is
what every other address reads as. -/
def OnlyBelow (c : Console) (n : Nat) (hw : Hardware) : Prop :=
  Touches (Below c.hardware.bus c.cpu.registers.sp n) c.hardware hw ∧
  ∀ addr, (∀ k < n, c.hardware.bus.storage? addr ≠
      c.hardware.bus.storage? (belowPointer c.cpu.registers.sp k)) →
    Hardware.load addr hw =
      ⟨(Hardware.load addr c.hardware).result, hw, (Hardware.load addr c.hardware).records⟩

theorem onlyBelow {n : Nat} {hw : Hardware}
    (h : Touches (Below c.hardware.bus c.cpu.registers.sp n) c.hardware hw) :
    OnlyBelow c n hw := by
  refine ⟨h, fun addr hne ↦ h.load fun s hs ↦ ?_⟩
  rintro ⟨k, hk, hbelow⟩
  exact hne k hk (hs.trans hbelow.symm)

/-- **The stack is last in, first out in any storage.**  Wherever the stack pointer is, words that
are pushed where there is room for them are popped in the opposite order, without a fault and
without a record; the registers are as before, the stack pointer among them, and only the bytes
below it have changed.  The same holds of words that go through register pairs, but for the lowest
bits of those that go through the pair that the flags are half of, which come back as zero. -/
theorem stack_returns {c : Console} (h : Hardware.Reachable c.hardware) :
    (∀ words : List UInt16,
      Room c.hardware.bus c.cpu.registers.sp (2 * words.length) → ∃ hw,
        (do pushWords words; popWords words.length : Exec Console (List UInt16)) c =
          ⟨.ok words.reverse, ⟨c.cpu, hw⟩, #[]⟩ ∧ OnlyBelow c (2 * words.length) hw) ∧
    ∀ passages : List Passage, (∀ p ∈ passages, p.source.isStacked ∧ p.target.isStacked) →
      Room c.hardware.bus c.cpu.registers.sp (2 * passages.length) → ∃ r hw,
        (do pushPairs passages; popPairs (passages.map Passage.target).reverse :
            Exec Console (List UInt16)) c =
          ⟨.ok (passages.map Passage.result).reverse, ⟨c.cpu.withRegisters r, hw⟩, #[]⟩ ∧
        r.sp = c.cpu.registers.sp ∧ OnlyBelow c (2 * passages.length) hw := by
  have hl : DisplayListens c.hardware := h.wired.1.listens
  refine ⟨fun words hr ↦ ?_, fun passages hp hr ↦ ?_⟩
  · obtain ⟨-, hw, hrun, ht⟩ := balanced_words words hl hr
    exact ⟨hw, hrun, onlyBelow ht⟩
  · obtain ⟨r, hsp, hw, hrun, ht⟩ := balanced_pairs passages hp hl hr
    exact ⟨r, hw, hrun, hsp, onlyBelow ht⟩

/-! ### A stack between work memory and its echo -/

/-- The last byte of work memory and the first of its echo are different places. -/
theorem room_straddling (b : Bus) : Room b 0xe001 2 := by
  have hecho : b.storage? (belowPointer 0xe001 0) = some (.memory (.work 0 0)) := by
    refine Bus.storage?_eq_memory_iff.2 ?_
    show Slot.select? _ _ 0xe000 = _
    rw [Slot.select?, if_neg (by decide), if_neg (by decide), if_pos (by decide), Slot.ofWork,
      if_pos (by decide)]
    rfl
  have hlast : b.storage? (belowPointer 0xe001 1) =
      some (.memory (.work (Slot.workBank (b.register Register.workBank)) 0xfff)) := by
    refine Bus.storage?_eq_memory_iff.2 ?_
    show Slot.select? _ _ 0xdfff = _
    rw [Slot.select?, if_neg (by decide), if_pos (by decide), Slot.ofWork, if_neg (by decide)]
    rfl
  refine ⟨fun k hk ↦ ?_, fun j hj k hk he ↦ ?_⟩
  · rcases (by omega : k = 0 ∨ k = 1) with rfl | rfl
    · exact ⟨_, hecho⟩
    · exact ⟨_, hlast⟩
  · rcases (by omega : j = 0 ∨ j = 1) with rfl | rfl <;>
      rcases (by omega : k = 0 ∨ k = 1) with rfl | rfl <;> try rfl
    all_goals
      rw [hecho, hlast] at he
      simp at he

/-- A machine whose stack lies there. -/
def straddling : Console := ⟨{ registers := { sp := 0xe001 } }, blank.hardware⟩

/-- A word comes back as it was, and through the flags without its lowest bits. -/
theorem stack_returns_straddling :
    (∃ hw, (do pushWords [0x1234]; popWords 1 : Exec Console (List UInt16)) straddling =
      ⟨.ok [0x1234], ⟨straddling.cpu, hw⟩, #[]⟩ ∧ OnlyBelow straddling 2 hw) ∧
    ∃ r hw, (do pushPairs [⟨.af, 0x1234, .bc⟩]; popPairs [.bc] : Exec Console (List UInt16))
        straddling = ⟨.ok [0x1230], ⟨straddling.cpu.withRegisters r, hw⟩, #[]⟩ ∧
      r.sp = 0xe001 ∧ OnlyBelow straddling 2 hw := by
  have hreach : Hardware.Reachable straddling.hardware := reachable_blank.hardware
  have hroom : Room straddling.hardware.bus straddling.cpu.registers.sp 2 := room_straddling _
  obtain ⟨hwords, hpairs⟩ := stack_returns hreach
  exact ⟨hwords [0x1234] hroom, hpairs [⟨.af, 0x1234, .bc⟩] (by decide) hroom⟩

end Console

end DotMatrix
