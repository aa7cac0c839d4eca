import Mathlib.Data.List.Chain
import DotMatrix.Proofs.Clock.Drain
import DotMatrix.Proofs.Hardware.Nesting

/-!
# Who is told of a write

A write stores its byte and then tells those who watch its address, one after another.  They may
write in turn, register more observers and fail, while the list of observers is being walked.

* `Notified` — what came of telling observers: the turn of each, on the hardware that the turn
  before left, up to the first that fails; `exists_notified` finds the turns.
* `Grows` — observers are only ever added, behind those that are registered already, whatever
  happens to the hardware: `grows_writeNested`, `grows_fire`, `Attended.starts`.
* `Bus.write_echo` — an echoed address is the same place, but it is watched on its own.
* `observers_notified` — so who is told of a write, in which order and of what.
-/

set_option autoImplicit false

namespace DotMatrix

open Exec (Always)

/-- The echo of work memory is work memory. -/
theorem Bus.write_echo {addr : UInt16} (hlow : 0xc000 ≤ addr) (hhigh : addr ≤ 0xddff)
    (value : UInt8) (b : Bus) : write (addr + 0x2000) value b = write addr value b := by
  have hn : (addr + 0x2000).toNat = addr.toNat + 8192 := by
    have h : addr.toNat ≤ 0xddff := UInt16.le_iff_toNat_le.1 hhigh
    rw [UInt16.toNat_add]
    exact Nat.mod_eq_of_lt (by simp; omega)
  rw [UInt16.le_iff_toNat_le] at hlow hhigh
  have hback : addr + 0x2000 - 0x2000 = addr := UInt16.add_sub_cancel addr 0x2000
  have hwork : b.place addr = .cell (b.workCell addr) := by
    simp only [place, UInt16.lt_iff_toNat_lt]
    rw [if_neg, if_neg, if_neg, if_pos]
    all_goals simp at *; omega
  have hecho : b.place (addr + 0x2000) = .cell (b.workCell addr) := by
    simp only [place, UInt16.lt_iff_toNat_lt, hn, hback]
    rw [if_neg, if_neg, if_neg, if_neg, if_pos]
    all_goals simp at *; omega
  rw [write, write, hwork, hecho]

namespace Hardware

/-! ## Turns -/

/-- An observer's turn: the hardware that it was run on, and what came of it. -/
structure Told where
  observer : Observer
  before : Hardware
  outcome : Outcome Hardware Unit

/-- After a byte was stored, observers are told of it one after another until one fails. -/
structure Notified (value : UInt8) (observers : List Observer) (stored : Outcome Hardware Unit)
    (turns : List Told) (o : Outcome Hardware Unit) : Prop where
  /-- Each has one turn, in their order, and only those at the end may have none. -/
  order : turns.map Told.observer <+: observers
  told : ∀ turn ∈ turns, turn.outcome = turn.observer.run write value turn.before
  /-- What they write in their turns, others are told of within the bound. -/
  nests : ∀ turn ∈ turns,
    turn.observer.EachWrite write (NestsWithin maxNesting) value turn.before
  first : ∀ turn ∈ turns.head?, turn.before = stored.state
  /-- A turn follows one that succeeded, on the hardware that it left. -/
  next : turns.IsChain fun turn later ↦
    turn.outcome.result = .ok () ∧ later.before = turn.outcome.state
  /-- What came of it is what came of the last turn; what was reported is reported in order. -/
  outcome : o = turns.foldl (fun before turn ↦ turn.outcome.after before.records) stored
  /-- Nobody is left out unless the last turn failed. -/
  complete : turns.map Told.observer = observers ∨ ∃ fault, o.result = .error fault

variable {value : UInt8} {observers : List Observer} {stored : Outcome Hardware Unit}

/-- Every notification is made of such turns. -/
theorem exists_notified (hok : stored.result = .ok ())
    (h : EachWrite write (NestsWithin maxNesting) value observers stored.state) :
    ∃ turns, Notified value observers stored turns
      ((notify write value observers stored.state).after stored.records) := by
  induction observers generalizing stored with
  | nil =>
    refine ⟨[], List.prefix_rfl, by simp, by simp, by simp, .nil, ?_, Or.inl rfl⟩
    obtain ⟨result, state, records⟩ := stored
    obtain rfl : result = .ok () := hok
    rw [notify, Exec.pure_apply, Outcome.after, Array.append_empty, List.foldl_nil]
  | cons observer rest ih =>
    obtain ⟨hfirst, hrest⟩ := h
    rcases hrun : observer.run write value stored.state with ⟨fault | _, after, records⟩
    · -- A turn that fails is the last one.
      refine ⟨[⟨observer, stored.state, ⟨.error fault, after, records⟩⟩], ?_⟩
      rw [notify, Exec.bind_of_error hrun]
      exact {
        order := ⟨rest, rfl⟩
        told := by simp [hrun]
        nests := by simpa using hfirst
        first := by simp
        next := .singleton _
        outcome := rfl
        complete := Or.inr ⟨fault, rfl⟩ }
    · -- Behind one that succeeds come the turns of the others, on the hardware that it left.
      have hnext := hrest ()
      rw [hrun] at hnext
      obtain ⟨turns, hturns⟩ := @ih ⟨.ok (), after, stored.records ++ records⟩ rfl (hnext rfl)
      refine ⟨⟨observer, stored.state, ⟨.ok (), after, records⟩⟩ :: turns, ?_⟩
      rw [notify, Exec.bind_of_ok hrun, Outcome.after_after]
      exact {
        order := by
          rw [List.map_cons]
          exact List.cons_prefix_cons.2 ⟨rfl, hturns.order⟩
        told := List.forall_mem_cons.2 ⟨hrun.symm, hturns.told⟩
        nests := List.forall_mem_cons.2 ⟨hfirst, hturns.nests⟩
        first := by simp
        next := List.isChain_cons.2
          ⟨fun turn hturn ↦ ⟨rfl, hturns.first turn hturn⟩, hturns.next⟩
        outcome := hturns.outcome
        complete := hturns.complete.imp_left fun h ↦ by rw [List.map_cons, h] }

section

variable {addr : UInt16} {hw : Hardware}

/-- Nobody is told of a byte that is refused. -/
theorem NestsWithin.write_of_refused (h : NestsWithin maxNesting addr value hw) {fault : Fault}
    (hf : (onBus (Bus.write addr value) hw).result = .error fault) :
    write addr value hw = onBus (Bus.write addr value) hw := by
  rw [h.write_eq.1]
  rcases hs : onBus (Bus.write addr value) hw with ⟨fault' | _, stored, records⟩
  · exact Exec.bind_of_error hs _
  · rw [hs] at hf
    cases hf

/-- The observers of the address are told of one that is stored. -/
theorem NestsWithin.notified (h : NestsWithin maxNesting addr value hw)
    (hok : (onBus (Bus.write addr value) hw).result = .ok ()) :
    ∃ turns, Notified value (hw.observersOf addr) (onBus (Bus.write addr value) hw) turns
      (write addr value hw) := by
  obtain ⟨heq, hwithin⟩ := h.write_eq
  obtain ⟨turns, hturns⟩ := exists_notified hok (hwithin () hok)
  refine ⟨turns, ?_⟩
  rw [heq, Exec.bind_of_ok (x := onBus (Bus.write addr value)) (by rw [← hok])]
  exact hturns

end

/-- If there are observers, the first one has the first turn. -/
theorem Notified.exists_cons {turns : List Told} {o : Outcome Hardware Unit} {observer : Observer}
    {rest : List Observer} (h : Notified value (observer :: rest) stored turns o)
    (hok : stored.result = .ok ()) :
    ∃ turn later, turns = turn :: later ∧ turn.observer = observer := by
  cases turns with
  | nil =>
    rcases h.complete with hall | ⟨fault, hf⟩
    · cases hall
    · rw [h.outcome, List.foldl_nil, hok] at hf
      cases hf
  | cons turn later =>
    have horder := h.order
    rw [List.map_cons] at horder
    exact ⟨turn, later, rfl, (List.cons_prefix_cons.1 horder).1⟩

/-! ## The list of observers -/

/-- Observers were registered behind the others, and none was taken off the list. -/
def Grows (hw : Hardware) (_ : Array Record) (hw' : Hardware) : Prop :=
  hw.body.observers <+: hw'.body.observers

theorem grows_chains : Exec.Chains Grows where
  refl _ := List.prefix_rfl
  trans h h' := h.trans h'

section

variable {write' : UInt16 → UInt8 → Exec Hardware Unit}
  (hwrite : ∀ addr value, Always Grows (write' addr value))

include hwrite

theorem grows_run (react : Reaction) : Always Grows (react.run write') := by
  have hbus : ∀ {α : Type} (x : Exec Bus α), Always Grows (onBus x) := fun _ _ ↦ List.prefix_rfl
  induction react with
  | done => exact .pure grows_chains ()
  | fail fault => exact .fail grows_chains fault
  | read addr next ih => exact .bind grows_chains (hbus _) ih
  | write addr value next ih => exact .bind grows_chains (hwrite addr value) fun _ ↦ ih
  | request source next ih => exact .bind grows_chains (hbus _) fun _ ↦ ih
  | schedule delay task next _ ih =>
    have hschedule : Always Grows (schedule delay (.reaction task)) := fun _ ↦ List.prefix_rfl
    exact .bind grows_chains hschedule fun _ ↦ ih
  | watch addr observer next _ ih =>
    have hwatch : Always Grows (watch addr (.reaction observer)) := fun _ ↦ List.prefix_append _ _
    exact .bind grows_chains hwatch fun _ ↦ ih
  | mark label written seen next ih =>
    have hmark : ∀ now, Always Grows (Exec.emit (.mark label now written seen)) :=
      fun _ _ ↦ List.prefix_rfl
    exact .bind grows_chains (.gets grows_chains _) fun now ↦
      .bind grows_chains (hmark now) fun _ ↦ ih

theorem grows_notify (value : UInt8) (observers : List Observer) :
    Always Grows (notify write' value observers) := by
  induction observers with
  | nil => exact .pure grows_chains ()
  | cons observer rest ih =>
    refine .bind grows_chains ?_ fun _ ↦ ih
    cases observer with
    | display =>
      intro hw
      rw [Observer.run, controlDisplay_apply, Grows, observers_covers.controlled hw value]
    | reaction react => exact grows_run hwrite (react value)

end

theorem grows_writeNested (depth : Nat) (addr : UInt16) (value : UInt8) :
    Always Grows (writeNested depth addr value) := by
  induction depth generalizing addr value with
  | zero => exact .fail grows_chains _
  | succ depth ih =>
    have hstore : Always Grows (onBus (Bus.write addr value)) := fun _ ↦ List.prefix_rfl
    exact .bind grows_chains hstore fun _ ↦ .bind grows_chains (.gets grows_chains _)
      fun observers ↦ grows_notify ih value observers

theorem grows_write (addr : UInt16) (value : UInt8) : Always Grows (write addr value) :=
  grows_writeNested maxNesting addr value

/-! ### Time -/

theorem grows_covers : CoversTime fun hw hw' ↦ Grows hw #[] hw' where
  refl _ := List.prefix_rfl
  trans h h' := h.trans h'
  clock _ _ := List.prefix_rfl
  showing _ _ := List.prefix_rfl
  line _ _ := List.prefix_rfl
  status _ := List.prefix_rfl
  requesting _ _ := List.prefix_rfl
  divider _ _ := List.prefix_rfl
  counter _ _ := List.prefix_rfl
  calendar _ := List.prefix_rfl

theorem grows_tick {hw ticked : Hardware} {task : Task} {records : Array Record} {delay : Nat}
    (h : Ticks hw task records ticked delay) :
    Grows hw (fire task hw).records (fire task hw).state := by
  have hticked : Grows hw #[] ticked := grows_covers.ticks hw h
  rw [h.fire_eq]
  exact hticked

/-- A transition that finds no line below it does nothing. -/
theorem grows_follow (transition : Transition) : Always Grows (follow transition) := by
  intro hw
  by_cases h : hw.reg Register.line = 0xff
  · have hnext : nextLine hw = ⟨.error .lineOverflow, hw, #[]⟩ := by
      rw [nextLine, bind_register, if_pos h, Exec.fail_apply]
    cases transition with
    | draw | blank =>
      rw [follow, enter_apply]
      exact grows_covers.entered hw _
    | endLine =>
      rw [follow, endLine, Exec.bind_of_error hnext]
      exact List.prefix_rfl
    | nextBlankLine =>
      rw [follow, nextBlankLine, Exec.bind_of_error hnext]
      exact List.prefix_rfl
  · rw [follow_apply hw h]
    exact grows_covers.followed hw transition

/-- A task, whoever let it wait. -/
theorem grows_fire (task : Task) : Always Grows (fire task) := by
  cases task with
  | divider => exact fun _ ↦ grows_tick .divider
  | counter => exact fun _ ↦ grows_tick .counter
  | calendar => exact fun _ ↦ grows_tick .calendar
  | display epoch transition =>
    refine .bind grows_chains (.gets grows_chains _) fun valid ↦ ?_
    cases valid with
    | true => exact grows_follow transition
    | false => exact .pure grows_chains ()
  | reaction react => exact grows_run grows_write react

/-- Time that passes, if it comes to an end. -/
theorem grows_advance {cycles : Nat} {hw : Hardware} (h : Timed.Returns fire cycles hw) :
    Grows hw (advance cycles hw).records (advance cycles hw).state := by
  obtain ⟨firings, o, h⟩ := h
  rw [advance, h.advance_eq]
  generalize hw.now + cycles = limit at h
  induction h with
  | done => exact List.prefix_rfl
  | @stop m m' event rest fault records _ hf =>
    have hr := grows_fire event.action (m.taking event rest)
    rwa [hf] at hr
  | @next m m' event rest records firings o _ hf _ ih =>
    have hr := grows_fire event.action (m.taking event rest)
    rw [hf] at hr
    exact grows_chains.trans hr ih

/-! ## Hardware with observers of others -/

/-- Hardware that was started and acted on, by the processor, the player and whoever attached
observers and tasks to it. -/
inductive Attended : Hardware → Prop where
  | powerOn (cartridge : Cartridge) : Attended (powerOn cartridge).1
  | watch {hw : Hardware} (addr : UInt16) (observer : Observer) (h : Attended hw) :
      Attended (watch addr observer hw).state
  | schedule {hw : Hardware} (delay : Nat) (task : Task) (h : Attended hw) :
      Attended (schedule delay task hw).state
  | perform {hw : Hardware} (op : Operation) (h : Attended hw)
      (hr : ∀ cycles, op = .advance cycles → Timed.Returns fire cycles hw) :
      Attended (op.perform hw).state

/-- The display's own observer stays in front. -/
theorem Attended.starts {hw : Hardware} (h : Attended hw) :
    [(Register.lcdControl, Observer.display)] <+: hw.body.observers := by
  induction h with
  | powerOn cartridge =>
    rw [powerOn_eq, observers_started]
    exact List.prefix_rfl
  | watch addr observer _ ih => exact ih.trans (List.prefix_append _ _)
  | schedule delay task _ ih => exact ih
  | @perform hw op _ hr ih =>
    refine ih.trans ?_
    cases op with
    | write addr value => exact grows_write addr value hw
    | advance cycles => exact grows_advance (hr cycles rfl)
    | withdraw source => exact List.prefix_rfl
    | press button pressed =>
      rw [Operation.perform, (quiet_press button pressed hw).observers]

theorem Attended.observersOf_lcdControl {hw : Hardware} (h : Attended hw) :
    ∃ rest, hw.observersOf Register.lcdControl = .display :: rest := by
  obtain ⟨rest, hrest⟩ := h.starts
  rw [observersOf, ← hrest]
  exact ⟨_, rfl⟩

theorem observersOf_watch_of_ne {addr other : UInt16} (h : other ≠ addr) (observer : Observer)
    (hw : Hardware) : (watch other observer hw).state.observersOf addr = hw.observersOf addr := by
  have happend : (watch other observer hw).state.body.observers =
      hw.body.observers ++ [(other, observer)] := rfl
  rw [observersOf, observersOf, happend, List.filterMap_append]
  simp [h]

/-! ## The rule -/

/-- **Who is told of a write.**  A write whose byte is refused is told to nobody.  Otherwise those
are told that were registered for exactly its address when it began, one after another, in the order
in which they were registered, each once, on the hardware that the one before left, with all that it
writes done and told before the next one's turn; the first that fails stops the write with its
fault, and what was done stays done.  Only reactions that set each other off too deeply run into the
bound, which never happens while observers write only below the level of their address.  Observers
are only added behind the others, so those that are registered meanwhile wait for the next write;
those of another address are not concerned, not even if it is an echo of this one; and a new
control byte of the display is told to the display first, whoever else was attached to it. -/
theorem observers_notified (hw : Hardware) (addr : UInt16) (value : UInt8) :
    (NestsWithin maxNesting addr value hw →
      (∀ fault, (onBus (Bus.write addr value) hw).result = .error fault →
        write addr value hw = onBus (Bus.write addr value) hw) ∧
      ((onBus (Bus.write addr value) hw).result = .ok () → ∃ turns,
        Notified value ((hw.body.observers.filter fun entry ↦ entry.1 = addr).map Prod.snd)
          (onBus (Bus.write addr value) hw) turns (write addr value hw) ∧
        (Attended hw → addr = Register.lcdControl →
          ∃ turn later, turns = turn :: later ∧ turn.observer = .display))) ∧
    (¬ NestsWithin maxNesting addr value hw → (write addr value hw).result = .error .runaway) ∧
    (∀ level : UInt16 → Nat, hw.Levelled level → NestsWithin maxNesting addr value hw) ∧
    (∃ added, (write addr value hw).state.body.observers = hw.body.observers ++ added) ∧
    (∀ other observer, other ≠ addr → (watch other observer hw).state.observersOf addr =
      (hw.body.observers.filter fun entry ↦ entry.1 = addr).map Prod.snd) ∧
    (0xc000 ≤ addr → addr ≤ 0xddff → addr + 0x2000 ≠ addr ∧
      onBus (Bus.write (addr + 0x2000) value) hw = onBus (Bus.write addr value) hw) := by
  refine ⟨fun hn ↦ ⟨fun fault hf ↦ ?_, fun hok ↦ ?_⟩, result_writeNested_of_not,
    fun _ hl ↦ hl.nestsWithin_maxNesting addr value, ?_, fun other observer hne ↦ ?_,
    fun hlow hhigh ↦ ⟨?_, ?_⟩⟩
  · exact hn.write_of_refused hf
  · obtain ⟨turns, hturns⟩ := hn.notified hok
    rw [← observersOf_eq]
    refine ⟨turns, hturns, fun ha haddr ↦ ?_⟩
    obtain ⟨rest, hrest⟩ := ha.observersOf_lcdControl
    rw [← haddr] at hrest
    rw [hrest] at hturns
    exact hturns.exists_cons hok
  · obtain ⟨added, hadded⟩ := grows_write addr value hw
    exact ⟨added, hadded.symm⟩
  · rw [observersOf_watch_of_ne hne, observersOf_eq]
  · intro he
    have hn := congrArg UInt16.toNat he
    rw [UInt16.toNat_add] at hn
    simp at hn
    omega
  · rw [onBus, onBus, Bus.write_echo hlow hhigh]

/-- Hardware on which one address is watched by an observer that writes to another and registers
one more, by one that fails and by one behind it; the other address and the echo are watched too. -/
def crowded : Hardware where
  clock := {}
  body := {
    bus := .start (.plain #[])
    observers := [
      (0xc000, .reaction fun value ↦ .mark 1 value none (.write 0xc100 (value + 1)
        (.watch 0xc000 (fun _ ↦ .done) (.mark 2 none none .done)))),
      (0xc100, .reaction fun value ↦ .mark 3 value none .done),
      (0xe000, .reaction fun value ↦ .mark 4 value none .done),
      (0xc000, .reaction fun value ↦ .mark 5 value none (.fail .lineOverflow)),
      (0xc000, .reaction fun value ↦ .mark 6 value none .done)] }

theorem levelled_crowded : crowded.Levelled fun addr ↦ if addr = 0xc000 then 1 else 0 := by
  intro entry hmem
  simp only [crowded, List.mem_cons, List.not_mem_nil, or_false] at hmem
  rcases hmem with rfl | rfl | rfl | rfl | rfl <;>
    simp [Observer.WritesBelow, Reaction.WritesBelow]

/-- The machine as it starts, with a second observer of the display's control byte. -/
def attended : Hardware :=
  (watch Register.lcdControl (.reaction fun value ↦ .mark 1 value none .done)
    (powerOn (.plain #[])).1).state

theorem levelled_attended : attended.Levelled fun _ ↦ 0 := by
  refine Levelled.watch ?_ fun _ ↦ trivial
  intro entry hmem
  rw [powerOn_eq, observers_started] at hmem
  rw [List.mem_singleton.1 hmem]
  trivial

/-- Hardware with an observer that writes to the address it watches. -/
def restless : Hardware where
  clock := {}
  body := {
    bus := .start (.plain #[])
    observers := [(0xc000, .reaction fun value ↦ .write 0xc000 value .done)] }

theorem not_nestsWithin_restless (depth : Nat) (value : UInt8) {hw : Hardware}
    (h : hw.body.observers = restless.body.observers) : ¬ NestsWithin depth 0xc000 value hw := by
  induction depth generalizing hw with
  | zero => exact id
  | succ depth ih =>
    intro hn
    have heach := hn () rfl
    rw [observersOf, h] at heach
    exact @ih (onBus (Bus.write 0xc000 value) hw).state h heach.1.1

/-- A refused byte is told to nobody; a stored one to the first two observers, with the write of
the first told in between, while the one registered meanwhile waits; the display is told first; and
an observer that sets itself off runs into the bound. -/
theorem observers_notified_crowded :
    write 0xfea0 0x41 crowded = onBus (Bus.write 0xfea0 0x41) crowded ∧
    (∃ turns, Notified 0x41 (crowded.observersOf 0xc000) (onBus (Bus.write 0xc000 0x41) crowded)
      turns (write 0xc000 0x41 crowded)) ∧
    (write 0xc000 0x41 crowded).result = .error .lineOverflow ∧
    (write 0xc000 0x41 crowded).records = #[.mark 1 0 (some 0x41) none,
      .mark 3 0 (some 0x42) none, .mark 2 0 none none, .mark 5 0 (some 0x41) none] ∧
    ((write 0xc000 0x41 crowded).state.observersOf 0xc000).length = 4 ∧
    (∃ turn later, Notified 0x11 (attended.observersOf Register.lcdControl)
      (onBus (Bus.write Register.lcdControl 0x11) attended) (turn :: later)
      (write Register.lcdControl 0x11 attended) ∧ turn.observer = .display) ∧
    (write 0xc000 0x41 restless).result = .error .runaway := by
  obtain ⟨hrefused, -, hquiet, -⟩ := observers_notified crowded 0xfea0 0x41
  obtain ⟨hstored, -, hbusy, -⟩ := observers_notified crowded 0xc000 0x41
  obtain ⟨hcontrol, -, hcalm, -⟩ := observers_notified attended Register.lcdControl 0x11
  obtain ⟨-, hrunaway, -⟩ := observers_notified restless 0xc000 0x41
  refine ⟨(hrefused (hquiet _ levelled_crowded)).1 (.outOfBounds 0xfea0) rfl, ?_, rfl, rfl, rfl, ?_,
    hrunaway (not_nestsWithin_restless maxNesting 0x41 rfl)⟩
  · obtain ⟨turns, hturns, -⟩ := (hstored (hbusy _ levelled_crowded)).2 rfl
    exact ⟨turns, hturns⟩
  · obtain ⟨turns, hturns, hfirst⟩ := (hcontrol (hcalm _ levelled_attended)).2 rfl
    obtain ⟨turn, later, rfl, hdisplay⟩ := hfirst (.watch _ _ (.powerOn _)) rfl
    rw [← observersOf_eq] at hturns
    exact ⟨turn, later, hturns, hdisplay⟩

end Hardware

end DotMatrix
