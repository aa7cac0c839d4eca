import Mathlib.Data.Fintype.Card
import DotMatrix.Proofs.Hardware.Changes

/-!
# How deeply writes nest

An observer may write in turn, and what it writes may be observed, so writes nest.  The hardware
bounds how deeply, since reactions can set each other off for ever; here it is said which writes
stay within a bound, without the bound playing a part in what they do.

* `Hardware.NestsWithin depth addr value hw` — a write that nests no more than `depth` deep, itself
  counted: every write that its observers make nests less deeply.
* `NestsWithin.mono` — a write that stays within a bound does the same under every larger one.
* `result_writeNested_of_not` — any other write runs into the bound.
* `NestsWithin.write_eq` — so the bounded write is the unbounded rule: store the byte, then run the
  observers, whose own writes are such writes again.
* `Levelled.nestsWithin` — where observers write only to addresses of a lower level than their own,
  writes nest no deeper than there are levels, and `Levelled.nestsWithin_maxNesting`, that this is
  always within the bound of the hardware.
-/

set_option autoImplicit false

namespace DotMatrix

/-! ## The writes of a reaction -/

section

variable (write : UInt16 → UInt8 → Exec Hardware Unit) (P : UInt16 → UInt8 → Hardware → Prop)

/-- What holds of every write that a reaction makes, on the hardware that it is made on. -/
def Reaction.EachWrite : Reaction → Hardware → Prop
  | .done, _ | .fail _, _ => True
  | .read addr next, hw => (Hardware.load addr).Then (fun byte ↦ (next byte).EachWrite) hw
  | .write addr value next, hw =>
    P addr value hw ∧ (write addr value).Then (fun _ ↦ next.EachWrite) hw
  | .request source next, hw =>
    (Hardware.requestInterrupt source).Then (fun _ ↦ next.EachWrite) hw
  | .schedule delay task next, hw =>
    (Hardware.schedule delay (.reaction task)).Then (fun _ ↦ next.EachWrite) hw
  | .watch addr observer next, hw =>
    (Hardware.watch addr (.reaction observer)).Then (fun _ ↦ next.EachWrite) hw
  | .mark _ _ _ next, hw => next.EachWrite hw

/-- What holds of every write that an observer makes when it is told a byte. -/
def Observer.EachWrite (value : UInt8) : Observer → Hardware → Prop
  | .display, _ => True
  | .reaction react, hw => (react value).EachWrite write P hw

/-- What holds of every write that observers make, one after another. -/
def Hardware.EachWrite (value : UInt8) : List Observer → Hardware → Prop
  | [], _ => True
  | observer :: rest, hw =>
    observer.EachWrite write P value hw ∧
      (observer.run write value).Then (fun _ ↦ Hardware.EachWrite value rest) hw

end

section

variable {write write' : UInt16 → UInt8 → Exec Hardware Unit}
  {P P' : UInt16 → UInt8 → Hardware → Prop}

/-! ### Writing in another way -/

section

variable (h : ∀ {addr value hw}, P addr value hw →
  write' addr value hw = write addr value hw ∧ P' addr value hw)

include h

/-- Writing in another way makes no difference if it makes none to the writes that are made. -/
theorem Reaction.EachWrite.transfer {react : Reaction} {hw : Hardware}
    (hr : react.EachWrite write P hw) :
    react.run write' hw = react.run write hw ∧ react.EachWrite write' P' hw := by
  induction react generalizing hw with
  | done | fail => exact ⟨rfl, trivial⟩
  | read addr next ih =>
    exact ⟨(hr.mono fun byte _ hn ↦ (ih byte hn).1).bind_congr,
      hr.mono fun byte _ hn ↦ (ih byte hn).2⟩
  | write addr value next ih =>
    obtain ⟨hp, hn⟩ := hr
    obtain ⟨heq, hp'⟩ := h hp
    refine ⟨?_, hp', (hn.mono fun _ _ hn ↦ (ih hn).2).congr heq⟩
    exact (Exec.bind_congr heq _).trans (hn.mono fun _ _ hn ↦ (ih hn).1).bind_congr
  | request source next ih | schedule delay task next _ ih | watch addr observer next _ ih =>
    exact ⟨(hr.mono fun _ _ hn ↦ (ih hn).1).bind_congr, hr.mono fun _ _ hn ↦ (ih hn).2⟩
  | mark label written seen next ih =>
    obtain ⟨heq, hn⟩ := ih hr
    refine ⟨?_, hn⟩
    simp only [Reaction.run, Exec.bind_gets]
    exact Exec.Then.bind_congr (x := Exec.emit _) fun _ _ ↦ heq

theorem Observer.EachWrite.transfer {value : UInt8} {observer : Observer} {hw : Hardware}
    (ho : observer.EachWrite write P value hw) :
    observer.run write' value hw = observer.run write value hw ∧
      observer.EachWrite write' P' value hw := by
  cases observer with
  | display => exact ⟨rfl, trivial⟩
  | reaction react => exact Reaction.EachWrite.transfer h ho

theorem Hardware.EachWrite.transfer {value : UInt8} {observers : List Observer} {hw : Hardware}
    (ho : EachWrite write P value observers hw) :
    notify write' value observers hw = notify write value observers hw ∧
      EachWrite write' P' value observers hw := by
  induction observers generalizing hw with
  | nil => exact ⟨rfl, trivial⟩
  | cons observer rest ih =>
    obtain ⟨hfirst, hrest⟩ := ho
    obtain ⟨heq, hfirst'⟩ := Observer.EachWrite.transfer h hfirst
    refine ⟨?_, hfirst', (hrest.mono fun _ _ hr ↦ (ih hr).2).congr heq⟩
    exact (Exec.bind_congr heq _).trans (hrest.mono fun _ _ hr ↦ (ih hr).1).bind_congr

/-- The same for observers that are run after an operation. -/
theorem Hardware.EachWrite.transfer_after {x : Exec Hardware Unit} {value : UInt8}
    {observers : List Observer} {hw : Hardware}
    (ho : x.Then (fun _ ↦ EachWrite write P value observers) hw) :
    (x >>= fun _ ↦ notify write' value observers) hw =
        (x >>= fun _ ↦ notify write value observers) hw ∧
      x.Then (fun _ ↦ EachWrite write' P' value observers) hw :=
  ⟨(ho.mono fun _ _ ho ↦ (ho.transfer h).1).bind_congr, ho.mono fun _ _ ho ↦ (ho.transfer h).2⟩

end

/-! ### Where it does not hold -/

variable {fault : Fault}

/-- A reaction that makes a write of which it does not hold is stopped as the write is. -/
theorem Reaction.result_run_of_not
    (h : ∀ {addr value hw}, ¬ P addr value hw → (write addr value hw).result = .error fault)
    {react : Reaction} {hw : Hardware} (hr : ¬ react.EachWrite write P hw) :
    (react.run write hw).result = .error fault := by
  induction react generalizing hw with
  | done | fail => exact absurd trivial hr
  | read addr next ih => exact Exec.result_bind_of_not_then hr fun byte _ hn ↦ ih byte hn
  | write addr value next ih =>
    by_cases hp : P addr value hw
    · exact Exec.result_bind_of_not_then (fun hn ↦ hr ⟨hp, hn⟩) fun _ _ hn ↦ ih hn
    · exact Exec.result_bind_of_error (h hp)
  | request source next ih | schedule delay task next _ ih | watch addr observer next _ ih =>
    exact Exec.result_bind_of_not_then hr fun _ _ hn ↦ ih hn
  | mark label written seen next ih =>
    simp only [Reaction.run, Exec.bind_gets]
    exact ih hr

theorem Hardware.result_notify_of_not
    (h : ∀ {addr value hw}, ¬ P addr value hw → (write addr value hw).result = .error fault)
    {value : UInt8} {observers : List Observer} {hw : Hardware}
    (ho : ¬ EachWrite write P value observers hw) :
    (notify write value observers hw).result = .error fault := by
  induction observers generalizing hw with
  | nil => exact absurd trivial ho
  | cons observer rest ih =>
    by_cases hfirst : observer.EachWrite write P value hw
    · exact Exec.result_bind_of_not_then (fun hr ↦ ho ⟨hfirst, hr⟩) fun _ _ hr ↦ ih hr
    · refine Exec.result_bind_of_error ?_
      cases observer with
      | display => exact absurd trivial hfirst
      | reaction react => exact Reaction.result_run_of_not h hfirst

end

namespace Hardware

/-! ## Writes within a bound -/

/-- A write nests no more than `depth` deep, itself counted: the writes that its observers make nest
less deeply. -/
def NestsWithin : Nat → UInt16 → UInt8 → Hardware → Prop
  | 0, _, _, _ => False
  | depth + 1, addr, value, hw =>
    (onBus (Bus.write addr value)).Then
      (fun _ ↦ EachWrite (writeNested depth) (NestsWithin depth) value (hw.observersOf addr)) hw

variable {depth bound : Nat} {addr : UInt16} {value : UInt8} {hw : Hardware}

theorem observersOf_eq (hw : Hardware) (addr : UInt16) : hw.observersOf addr =
    (hw.body.observers.filter fun entry ↦ entry.1 = addr).map Prod.snd := by
  rw [observersOf]
  induction hw.body.observers with
  | nil => rfl
  | cons entry rest ih =>
    by_cases h : entry.1 = addr <;> simp [h, ih]

/-- A bus write registers no observer. -/
theorem observersOf_onBus {α : Type} (x : Exec Bus α) (hw : Hardware) (addr : UInt16) :
    (onBus x hw).state.observersOf addr = hw.observersOf addr := rfl

/-- The observers of a write are those that are registered when it begins. -/
theorem writeNested_succ (depth : Nat) (addr : UInt16) (value : UInt8) (hw : Hardware) :
    writeNested (depth + 1) addr value hw = (do
      onBus (Bus.write addr value)
      notify (writeNested depth) value (hw.observersOf addr) : Exec Hardware Unit) hw := by
  rw [writeNested]
  rcases h : onBus (Bus.write addr value) hw with ⟨fault | _, stored, records⟩
  · rw [Exec.bind_of_error h, Exec.bind_of_error h]
  · have ho := observersOf_onBus (Bus.write addr value) hw addr
    rw [h] at ho
    rw [Exec.bind_of_ok h, Exec.bind_of_ok h, Exec.bind_gets, ho]

/-- A write that stays within a bound does the same under every larger one. -/
theorem NestsWithin.mono (h : NestsWithin depth addr value hw) (hle : depth ≤ bound) :
    writeNested bound addr value hw = writeNested depth addr value hw ∧
      NestsWithin bound addr value hw := by
  induction depth generalizing bound addr value hw with
  | zero => exact h.elim
  | succ depth ih =>
    -- What is written in the notification has one less to go, under either bound.
    obtain ⟨bound, rfl⟩ : ∃ more, bound = more + 1 := Nat.exists_eq_add_one.2 (by omega)
    rw [writeNested_succ, writeNested_succ]
    exact EachWrite.transfer_after (fun hn ↦ ih hn (Nat.le_of_succ_le_succ hle)) h

/-- A write that does not stay within a bound runs into it. -/
theorem result_writeNested_of_not (h : ¬ NestsWithin depth addr value hw) :
    (writeNested depth addr value hw).result = .error .runaway := by
  induction depth generalizing addr value hw with
  | zero => rfl
  | succ depth ih =>
    rw [writeNested_succ]
    exact Exec.result_bind_of_not_then h fun _ _ ho ↦ result_notify_of_not ih ho

/-- **A write within the bound** stores the byte and then runs the observers, whose writes are again
writes within the bound. -/
theorem NestsWithin.write_eq (h : NestsWithin maxNesting addr value hw) :
    write addr value hw = (do
      onBus (Bus.write addr value)
      notify write value (hw.observersOf addr) : Exec Hardware Unit) hw ∧
    (onBus (Bus.write addr value)).Then
      (fun _ ↦ EachWrite write (NestsWithin maxNesting) value (hw.observersOf addr)) hw := by
  rw [write, maxNesting, writeNested_succ]
  obtain ⟨heq, hn⟩ := EachWrite.transfer_after (fun hn ↦ NestsWithin.mono hn (Nat.le_succ 65535)) h
  exact ⟨heq.symm, hn⟩

end Hardware

/-! ## Levels -/

section

variable (level : UInt16 → Nat)

/-- A reaction writes only to addresses of a level below `bound`, and the observers that it
registers write only below the level of the address that they watch. -/
def Reaction.WritesBelow : Reaction → Nat → Prop
  | .done, _ | .fail _, _ => True
  | .read _ next, bound => ∀ byte, (next byte).WritesBelow bound
  | .write addr _ next, bound => level addr < bound ∧ next.WritesBelow bound
  | .request _ next, bound | .schedule _ _ next, bound | .mark _ _ _ next, bound =>
    next.WritesBelow bound
  | .watch addr observer next, bound =>
    (∀ byte, (observer byte).WritesBelow (level addr)) ∧ next.WritesBelow bound

/-- An observer writes only to addresses of a level below `bound`, whatever it is told. -/
def Observer.WritesBelow (bound : Nat) : Observer → Prop
  | .display => True
  | .reaction react => ∀ byte, (react byte).WritesBelow level bound

/-- Every observer writes only below the level of the address that it watches. -/
def Hardware.Levelled (hw : Hardware) : Prop :=
  ∀ entry ∈ hw.body.observers, entry.2.WritesBelow level (level entry.1)

end

namespace Hardware

variable {level : UInt16 → Nat} {write : UInt16 → UInt8 → Exec Hardware Unit} {hw : Hardware}

theorem Levelled.observersOf (h : hw.Levelled level) (addr : UInt16) :
    ∀ observer ∈ hw.observersOf addr, observer.WritesBelow level (level addr) := by
  intro observer ho
  rw [observersOf_eq] at ho
  obtain ⟨entry, hentry, rfl⟩ := List.mem_map.1 ho
  obtain ⟨hmem, haddr⟩ := List.mem_filter.1 hentry
  rw [← of_decide_eq_true haddr]
  exact h entry hmem

/-- The display's observer registers none. -/
theorem observers_covers :
    CoversDisplay fun hw hw' ↦ hw'.body.observers = hw.body.observers where
  refl _ := rfl
  trans h h' := h'.trans h
  clock _ _ := rfl
  showing _ _ := rfl
  line _ _ := rfl
  status _ := rfl
  requesting _ _ := rfl

/-! ### What is registered later -/

/-- A way to write after which every observer still writes only below its own level. -/
def KeepsLevels (level : UInt16 → Nat) (write : UInt16 → UInt8 → Exec Hardware Unit) : Prop :=
  ∀ addr value ⦃hw : Hardware⦄, hw.Levelled level → (write addr value hw).state.Levelled level

theorem Levelled.watch (h : hw.Levelled level) {addr : UInt16} {observer : Observer}
    (ho : observer.WritesBelow level (level addr)) :
    (watch addr observer hw).state.Levelled level := by
  intro entry hmem
  rcases List.mem_append.1 hmem with hmem | hmem
  · exact h entry hmem
  · rw [List.mem_singleton.1 hmem]
    exact ho

section

variable (hwrite : KeepsLevels level write)

include hwrite

theorem Levelled.run {react : Reaction} {bound : Nat} (hr : react.WritesBelow level bound)
    (h : hw.Levelled level) : (react.run write hw).state.Levelled level := by
  induction react generalizing hw with
  | done | fail => exact h
  | read addr next ih => exact Exec.state_bind h fun byte _ ht ↦ ih byte (hr byte) ht
  | write addr value next ih =>
    exact Exec.state_bind (hwrite addr value h) fun _ _ ht ↦ ih hr.2 ht
  | request source next ih | schedule delay task next _ ih =>
    exact Exec.state_bind (I := Levelled level) h fun _ _ ht ↦ ih hr ht
  | watch addr observer next _ ih =>
    exact Exec.state_bind (h.watch hr.1) fun _ _ ht ↦ ih hr.2 ht
  | mark label written seen next ih =>
    simp only [Reaction.run, Exec.bind_gets]
    exact Exec.state_bind (I := Levelled level) h fun _ _ ht ↦ ih hr ht

theorem Levelled.observerRun {observer : Observer} {bound : Nat}
    (ho : observer.WritesBelow level bound) (value : UInt8) (h : hw.Levelled level) :
    (observer.run write value hw).state.Levelled level := by
  cases observer with
  | display =>
    rw [Observer.run, controlDisplay_apply, Levelled, observers_covers.controlled hw value]
    exact h
  | reaction react => exact h.run hwrite (ho value)

theorem Levelled.notify {observers : List Observer} {bound : Nat}
    (ho : ∀ observer ∈ observers, observer.WritesBelow level bound) (value : UInt8)
    (h : hw.Levelled level) : (notify write value observers hw).state.Levelled level := by
  induction observers generalizing hw with
  | nil => exact h
  | cons observer rest ih =>
    obtain ⟨hfirst, hrest⟩ := List.forall_mem_cons.1 ho
    exact Exec.state_bind (h.observerRun hwrite hfirst value) fun _ _ ht ↦ ih hrest ht

end

theorem Levelled.writeNested (h : hw.Levelled level) (depth : Nat) (addr : UInt16)
    (value : UInt8) : (writeNested depth addr value hw).state.Levelled level := by
  induction depth generalizing addr value hw with
  | zero => exact h
  | succ depth ih =>
    rw [writeNested_succ]
    exact Exec.state_bind (I := Levelled level) h fun _ _ ht ↦
      ht.notify (fun addr value _ h' ↦ ih h' addr value) (h.observersOf addr) value

/-! ### Every write goes further down -/

section

variable {P : UInt16 → UInt8 → Hardware → Prop} {bound : Nat}
  (hwrite : KeepsLevels level write)
  (hP : ∀ addr value {hw}, Levelled level hw → level addr < bound → P addr value hw)

include hwrite hP

theorem Levelled.eachWrite_reaction {react : Reaction} (hr : react.WritesBelow level bound)
    (h : hw.Levelled level) : react.EachWrite write P hw := by
  induction react generalizing hw with
  | done | fail => trivial
  | read addr next ih => exact fun byte _ ↦ ih byte (hr byte) h
  | write addr value next ih =>
    exact ⟨hP addr value h hr.1, fun _ _ ↦ ih hr.2 (hwrite addr value h)⟩
  | request source next ih | schedule delay task next _ ih => exact fun _ _ ↦ ih hr h
  | watch addr observer next _ ih => exact fun _ _ ↦ ih hr.2 (h.watch hr.1)
  | mark label written seen next ih => exact ih hr h

theorem Levelled.eachWrite {observers : List Observer}
    (ho : ∀ observer ∈ observers, observer.WritesBelow level bound) (value : UInt8)
    (h : hw.Levelled level) : EachWrite write P value observers hw := by
  induction observers generalizing hw with
  | nil => trivial
  | cons observer rest ih =>
    obtain ⟨hfirst, hrest⟩ := List.forall_mem_cons.1 ho
    refine ⟨?_, fun _ _ ↦ ih hrest (h.observerRun hwrite hfirst value)⟩
    cases observer with
    | display => trivial
    | reaction react => exact h.eachWrite_reaction hwrite hP (hfirst value)

end

/-- Where observers write only below the level of the address that they watch, no more writes nest
in a write than there are levels below it. -/
theorem Levelled.nestsWithin (h : hw.Levelled level) {depth : Nat} {addr : UInt16}
    (hlt : level addr < depth) (value : UInt8) : NestsWithin depth addr value hw := by
  induction depth generalizing addr value hw with
  | zero => exact absurd hlt (Nat.not_lt_zero _)
  | succ depth ih =>
    -- The observers write below this level, so one step of the depth is enough for the write.
    have hbelow : ∀ observer ∈ hw.observersOf addr, observer.WritesBelow level (level addr) :=
      h.observersOf addr
    have hstored : Levelled level (onBus (Bus.write addr value) hw).state := h
    exact fun _ _ ↦ hstored.eachWrite (fun addr value _ h' ↦ h'.writeNested depth addr value)
      (fun _ value _ h' hl ↦ ih h' (Nat.lt_of_lt_of_le hl (Nat.le_of_lt_succ hlt)) value)
      hbelow value

end Hardware

/-! ### There are only so many levels -/

section

variable {level rank : UInt16 → Nat} (h : ∀ {x y}, level x < level y → rank x < rank y)

include h

/-- Only the order of the levels matters. -/
theorem Reaction.WritesBelow.relabel {react : Reaction} {addr : UInt16}
    (hr : react.WritesBelow level (level addr)) : react.WritesBelow rank (rank addr) := by
  induction react generalizing addr with
  | done | fail => trivial
  | read _ next ih => exact fun byte ↦ ih byte (hr byte)
  | write other _ next ih => exact ⟨h hr.1, ih hr.2⟩
  | request _ next ih | schedule _ _ next _ ih | mark _ _ _ next ih => exact ih hr
  | watch other observer next ihObserver ih =>
    exact ⟨fun byte ↦ ihObserver byte (hr.1 byte), ih hr.2⟩

theorem Hardware.Levelled.relabel {hw : Hardware} (hl : hw.Levelled level) : hw.Levelled rank := by
  intro entry hmem
  have hbelow := hl entry hmem
  rcases entry with ⟨addr, _ | react⟩
  · trivial
  · exact fun byte ↦ (hbelow byte).relabel h

end

namespace Hardware

variable {level : UInt16 → Nat} {hw : Hardware}

/-- The addresses below a level. -/
def below (level : UInt16 → Nat) (bound : Nat) : Finset (Fin maxNesting) :=
  Finset.univ.filter fun n ↦ level (UInt16.ofNat n) < bound

theorem mem_below {addr : UInt16} {bound : Nat} :
    (⟨addr.toNat, addr.toNat_lt⟩ : Fin maxNesting) ∈ below level bound ↔ level addr < bound := by
  rw [below, Finset.mem_filter, UInt16.ofNat_toNat]
  exact and_iff_right (Finset.mem_univ _)

theorem not_mem_below (level : UInt16 → Nat) (addr : UInt16) :
    (⟨addr.toNat, addr.toNat_lt⟩ : Fin maxNesting) ∉ below level (level addr) :=
  fun h ↦ Nat.lt_irrefl _ (mem_below.1 h)

theorem card_below_lt_of_lt {x y : UInt16} (h : level x < level y) :
    (below level (level x)).card < (below level (level y)).card := by
  have hsub : below level (level x) ⊆ below level (level y) :=
    Finset.monotone_filter_right _ fun _ _ hn ↦ Nat.lt_trans hn h
  exact Finset.card_lt_card
    ((Finset.ssubset_iff_of_subset hsub).2 ⟨_, mem_below.2 h, not_mem_below level x⟩)

theorem card_below_lt (level : UInt16 → Nat) (addr : UInt16) :
    (below level (level addr)).card < maxNesting := by
  have hlt := Finset.card_lt_univ_of_notMem (not_mem_below level addr)
  rwa [Fintype.card_fin] at hlt

/-- **Without a circle no write runs into the bound**: the addresses below one are fewer than there
are addresses, so their number is a level that is low enough. -/
theorem Levelled.nestsWithin_maxNesting (h : hw.Levelled level) (addr : UInt16) (value : UInt8) :
    NestsWithin maxNesting addr value hw :=
  (h.relabel card_below_lt_of_lt).nestsWithin (card_below_lt level addr) value

end Hardware

end DotMatrix
