import DotMatrix.Proofs.Hardware.Changes

/-!
# Interrupt requests

Requests are raised from many places and live in the bits of one register.  `KeepsRequests` says
that every bit that was set still is.  Raising a request keeps them, and so do the timers, the
display, the joypad and time passing; what can clear a bit is serving its source, or a bus write to
the register itself.

* `requested_requesting_of_ne`, `requested_withdraw_of_ne` — raising or withdrawing the request of
  one source leaves the others alone.
* `keepsRequests_fire`, `keepsRequests_controlDisplay`, `keepsRequests_press` — what keeps requests,
  and `allowsTurns_requests`, that time does.
* `requests_write_cases` — what a bus write does to them, and `Reachable.requests_top`, the bits
  that belong to no source.
* `storeAll` — bus writes one after another, and `Clears`, that one of them clears a request.
* `clears_of_lost` — a request that bus writes lose was cleared by one of them.
* `awaited` — the sources that are both requested and enabled, as bits.
-/

set_option autoImplicit false

namespace DotMatrix

/-! ## The bits of sources -/

theorem and_or_absorb (x y : UInt8) : x &&& (x ||| y) = x :=
  UInt8.toBitVec_inj.1 (BitVec.eq_of_getElem_eq (by simp +contextual))

namespace Interrupt

/-- A source owns a single bit. -/
theorem and_mask (source : Interrupt) (x : UInt8) :
    x &&& source.mask = 0 ∨ x &&& source.mask = source.mask := by
  revert x
  cases source <;> exact forall_byte (by decide +kernel)

/-- Sources own different bits. -/
theorem mask_and_mask {x y : Interrupt} (h : x ≠ y) : x.mask &&& y.mask = 0 := by
  cases x <;> cases y <;> first | rfl | exact absurd rfl h

theorem not_mask_and_mask {x y : Interrupt} (h : x ≠ y) : ~~~x.mask &&& y.mask = y.mask := by
  cases x <;> cases y <;> first | rfl | exact absurd rfl h

theorem mask_ne_zero (source : Interrupt) : source.mask ≠ 0 := by
  cases source <;> decide

end Interrupt

namespace Hardware

variable {hw hw' : Hardware} {source other : Interrupt}

/-- The request of a source is raised. -/
def Requested (hw : Hardware) (source : Interrupt) : Prop :=
  hw.reg Register.interruptRequest &&& source.mask ≠ 0

/-! ## Raising and withdrawing requests -/

theorem requests_requesting (source : Interrupt) (hw : Hardware) :
    (hw.requesting source).reg Register.interruptRequest =
      hw.reg Register.interruptRequest ||| source.mask :=
  reg_put_self _ _ _

/-- Raising the request of a source raises it. -/
theorem requested_requesting (source : Interrupt) (hw : Hardware) :
    (hw.requesting source).Requested source := by
  rw [Requested, requests_requesting, Bus.or_and_distrib, UInt8.and_self]
  intro h
  exact source.mask_ne_zero (UInt8.or_eq_zero_iff.1 h).2

/-- Raising the request of a source leaves the others alone. -/
theorem requested_requesting_of_ne (h : source ≠ other) :
    (hw.requesting source).Requested other ↔ hw.Requested other := by
  rw [Requested, Requested, requests_requesting, Bus.or_and_distrib, Interrupt.mask_and_mask h,
    UInt8.or_zero]

theorem requests_withdraw (source : Interrupt) (hw : Hardware) :
    ((Operation.withdraw source).perform hw).state.reg Register.interruptRequest =
      hw.reg Register.interruptRequest &&& ~~~source.mask :=
  reg_put_self _ _ _

/-- Withdrawing the request of a source clears it. -/
theorem not_requested_withdraw (source : Interrupt) (hw : Hardware) :
    ¬ ((Operation.withdraw source).perform hw).state.Requested source := by
  rw [Requested, requests_withdraw, UInt8.and_assoc, UInt8.and_comm _ source.mask,
    UInt8.and_not_self, UInt8.and_zero]
  exact not_not_intro rfl

/-- Withdrawing the request of a source leaves the others alone. -/
theorem requested_withdraw_of_ne (h : source ≠ other) :
    ((Operation.withdraw source).perform hw).state.Requested other ↔ hw.Requested other := by
  rw [Requested, Requested, requests_withdraw, UInt8.and_assoc, Interrupt.not_mask_and_mask h]

/-! ## Keeping requests -/

/-- Every bit of the requests that was set still is. -/
def KeepsRequests (hw : Hardware) (_ : Array Record) (hw' : Hardware) : Prop :=
  hw.reg Register.interruptRequest &&& hw'.reg Register.interruptRequest =
    hw.reg Register.interruptRequest

theorem KeepsRequests.requested {records : Array Record} (h : KeepsRequests hw records hw')
    (hs : hw.Requested source) : hw'.Requested source := by
  intro h0
  rw [KeepsRequests] at h
  rw [Requested, ← h, UInt8.and_assoc, h0] at hs
  exact hs UInt8.and_zero

theorem keeps_of_eq {records : Array Record}
    (h : hw'.reg Register.interruptRequest = hw.reg Register.interruptRequest) :
    KeepsRequests hw records hw' := by
  rw [KeepsRequests, h, UInt8.and_self]

theorem keepsRequests_chains : Exec.Chains KeepsRequests where
  refl _ := keeps_of_eq rfl
  trans {hw hw' hw'' _ _} h h' := by
    rw [KeepsRequests] at *
    rw [← h, UInt8.and_assoc, h']

theorem keeps_requesting (source : Interrupt) (hw : Hardware) {records : Array Record} :
    KeepsRequests hw records (hw.requesting source) := by
  rw [KeepsRequests, requests_requesting]
  exact and_or_absorb _ _

theorem keeps_put {addr : UInt16} (h : addr.toUInt8 ≠ Register.interruptRequest.toUInt8)
    (value : UInt8) (hw : Hardware) {records : Array Record} :
    KeepsRequests hw records (hw.put addr value) := keeps_of_eq (reg_put_of_ne _ _ h)

/-! ### Time -/

/-- The display and the timers keep requests. -/
theorem keepsRequests_covers : CoversTime fun hw hw' ↦ KeepsRequests hw #[] hw' where
  refl _ := keeps_of_eq rfl
  trans := keepsRequests_chains.trans
  clock _ _ := keeps_of_eq rfl
  showing _ _ := keeps_of_eq rfl
  line hw line := keeps_put (by decide) line hw
  status hw := keeps_put (by decide) hw.statusNow hw
  requesting hw source := keeps_requesting source hw
  divider hw value := keeps_put (by decide) value hw
  counter hw value := keeps_put (by decide) value hw
  calendar _ := keeps_of_eq rfl

theorem Ticks.fire_keeps {task : Task} {records : Array Record} {delay : Nat}
    (h : Ticks hw task records hw' delay) :
    KeepsRequests hw (fire task hw).records (fire task hw).state := by
  rw [h.fire_eq]
  exact keepsRequests_covers.trans (keepsRequests_covers.ticks hw h)
    (keepsRequests_covers.clock _ _)

/-- A transition keeps requests, also when there is no line to go to. -/
theorem keepsRequests_follow (transition : Transition) :
    Exec.Always KeepsRequests (follow transition) := by
  intro hw
  by_cases hline : hw.reg Register.line = 0xff
  · have hnext : nextLine hw = ⟨.error .lineOverflow, hw, #[]⟩ := by
      rw [nextLine, bind_register, if_pos hline]
      rfl
    cases transition with
    | draw =>
      rw [follow, enter_apply]
      exact keepsRequests_covers.followed hw .draw
    | blank =>
      rw [follow, enter_apply]
      exact keepsRequests_covers.followed hw .blank
    | endLine =>
      rw [follow, endLine, Exec.bind_of_error hnext]
      exact keeps_of_eq rfl
    | nextBlankLine =>
      rw [follow, nextBlankLine, Exec.bind_of_error hnext]
      exact keeps_of_eq rfl
  · rw [follow_apply hw hline]
    exact keepsRequests_covers.followed hw transition

/-- Every task of the machine's own keeps requests. -/
theorem keepsRequests_fire {task : Task} (h : ∀ react, task ≠ .reaction react) :
    Exec.Always KeepsRequests (fire task) := by
  intro hw
  cases task with
  | divider => exact Ticks.divider.fire_keeps
  | counter => exact Ticks.counter.fire_keeps
  | calendar => exact Ticks.calendar.fire_keeps
  | display epoch transition =>
    rw [fire, followPlan, Exec.bind_gets]
    split
    · exact keepsRequests_follow transition hw
    · exact keeps_of_eq rfl
  | reaction react => exact absurd rfl (h react)

theorem keepsRequests_controlDisplay (value : UInt8) :
    Exec.Always KeepsRequests (controlDisplay value) := by
  intro hw
  rw [controlDisplay_apply]
  exact keepsRequests_covers.controlled hw value

/-- Whatever fires keeps requests. -/
theorem allowsTurns_requests : AllowsTurns KeepsRequests := keepsRequests_covers.allowsTurns

/-- Time that passes keeps requests. -/
theorem Reachable.requested_advance (h : Reachable hw) (hs : hw.Requested source)
    (cycles : Nat) : (advance cycles hw).state.Requested source :=
  (allowsTurns_requests.advance h cycles).requested hs

/-! ### The joypad -/

theorem keepsRequests_press (button : Button) (pressed : Bool) :
    Exec.Always KeepsRequests (press button pressed) := by
  intro hw
  let held : Hardware := { hw with body := { hw.body with
    bus := { hw.body.bus with joypad := hw.body.bus.joypad.update button pressed } } }
  have hheld : onBus (Exec.modify fun b ↦ { b with joypad := b.joypad.update button pressed }) hw =
      ⟨.ok (), held, #[]⟩ := rfl
  rw [press, Exec.bind_gets, Exec.bind_of_ok hheld, Outcome.after_empty]
  split
  · exact @keeps_requesting .joypad held #[]
  · exact keeps_of_eq rfl

/-! ## Bus writes -/

/-- A bus write to the requests stores the byte with its top bits set, and any other write keeps
them. -/
theorem requests_write_cases (hl : DisplayListens hw) (addr : UInt16) (value : UInt8) :
    (addr = Register.interruptRequest ∧
      (write addr value hw).state.reg Register.interruptRequest = 0xe0 ||| value) ∨
    (addr ≠ Register.interruptRequest ∧ KeepsRequests hw #[] (write addr value hw).state) := by
  by_cases hc : addr = Register.lcdControl
  · have hput : KeepsRequests hw #[] (hw.put Register.lcdControl value) :=
      keeps_put (by decide) value hw
    rw [hc, write_lcdControl hl]
    exact Or.inr ⟨by decide,
      keepsRequests_covers.trans hput (keepsRequests_covers.controlled _ value)⟩
  rw [write_of_ne hl hc]
  by_cases hr : addr = Register.interruptRequest
  · rw [hr, onBus, Bus.write_of_register (by decide)]
    exact Or.inl ⟨rfl, reg_put_self _ _ _⟩
  · exact Or.inr ⟨hr, keeps_of_eq (Bus.register_write_of_ne (by decide) hr value hw.bus)⟩

/-- A bus write keeps a request, unless it is to the requests and clears it. -/
theorem requested_write (hl : DisplayListens hw) {addr : UInt16} {value : UInt8}
    (hs : hw.Requested source)
    (h : addr = Register.interruptRequest → value &&& source.mask ≠ 0) :
    (write addr value hw).state.Requested source := by
  rcases requests_write_cases hl addr value with ⟨haddr, hstored⟩ | ⟨-, hkeep⟩
  · rw [Requested, hstored, Bus.or_and_distrib]
    intro h0
    exact h haddr (UInt8.or_eq_zero_iff.1 h0).2
  · exact hkeep.requested hs

/-! ### The top bits -/

/-- Keeping requests keeps the top bits too. -/
theorem KeepsRequests.top {records : Array Record} (h : KeepsRequests hw records hw')
    (ht : hw.reg Register.interruptRequest &&& 0xe0 = 0xe0) :
    hw'.reg Register.interruptRequest &&& 0xe0 = 0xe0 := by
  rw [KeepsRequests] at h
  rw [← h, UInt8.and_assoc] at ht
  generalize hw.reg Register.interruptRequest = old, hw'.reg Register.interruptRequest = new at ht ⊢
  calc new &&& 0xe0 = new &&& (old &&& (new &&& 0xe0)) := by rw [ht]
    _ = old &&& (new &&& 0xe0) := by
      rw [← UInt8.and_assoc, UInt8.and_comm new old, UInt8.and_assoc, ← UInt8.and_assoc new,
        UInt8.and_self]
    _ = 0xe0 := ht

/-- The bits of the requests that belong to no source are always set. -/
theorem Reachable.requests_top (h : Reachable hw) :
    hw.reg Register.interruptRequest &&& 0xe0 = 0xe0 := by
  induction h with
  | @powerOn _ cartridge _ =>
    have harmed : (armed cartridge).reg Register.interruptRequest = 0xe1 := rfl
    rw [powerOn_eq]
    exact KeepsRequests.top (keepsRequests_covers.started _) (by rw [harmed]; decide)
  | @perform hw op h ih =>
    cases op with
    | write addr value =>
      rcases requests_write_cases h.wired.1.listens addr value with ⟨-, hstored⟩ | ⟨-, hkeep⟩
      · rw [Operation.perform, hstored, UInt8.and_comm]
        exact and_or_absorb _ _
      · exact hkeep.top ih
    | advance cycles => exact (allowsTurns_requests.advance h cycles).top ih
    | withdraw source =>
      have hmask : ~~~source.mask &&& 0xe0 = 0xe0 := by
        cases source <;> rfl
      rw [requests_withdraw, UInt8.and_assoc, hmask, ih]
    | press button pressed => exact (keepsRequests_press button pressed hw).top ih

/-! ## Bus writes one after another -/

/-- Bus writes one after another, until one fails. -/
def storeAll : List (UInt16 × UInt8) → Exec Hardware Unit
  | [] => return ()
  | (addr, value) :: rest => do
    write addr value
    storeAll rest

/-- One of the writes that are made is to the requests and clears that of a source. -/
def Clears (source : Interrupt) (stores : List (UInt16 × UInt8)) (hw : Hardware) : Prop :=
  ∃ before value after, stores = before ++ (Register.interruptRequest, value) :: after ∧
    (storeAll before hw).result = .ok () ∧ value &&& source.mask = 0

theorem storeAll_cons_of_ok {addr : UInt16} {value : UInt8} {rest : List (UInt16 × UInt8)}
    {records : Array Record} (h : write addr value hw = ⟨.ok (), hw', records⟩) :
    storeAll ((addr, value) :: rest) hw = (storeAll rest hw').after records :=
  Exec.bind_of_ok h _

theorem storeAll_cons_of_error {addr : UInt16} {value : UInt8} {rest : List (UInt16 × UInt8)}
    {records : Array Record} {fault : Fault}
    (h : write addr value hw = ⟨.error fault, hw', records⟩) :
    storeAll ((addr, value) :: rest) hw = ⟨.error fault, hw', records⟩ :=
  Exec.bind_of_error h _

theorem Reachable.storeAll (h : Reachable hw) (stores : List (UInt16 × UInt8)) :
    Reachable (storeAll stores hw).state := by
  induction stores generalizing hw with
  | nil => exact h
  | cons store rest ih =>
    obtain ⟨addr, value⟩ := store
    have hr := h.perform (.write addr value)
    rw [Operation.perform] at hr
    rcases hw₁ : write addr value hw with ⟨fault | ⟨⟩, hw', records⟩ <;> rw [hw₁] at hr
    · rwa [storeAll_cons_of_error hw₁]
    · rw [storeAll_cons_of_ok hw₁]
      exact ih hr

/-- **Only a write to the requests loses one.** -/
theorem clears_of_lost {stores : List (UInt16 × UInt8)} (hr : Reachable hw)
    (hs : hw.Requested source) (hlost : ¬ (storeAll stores hw).state.Requested source) :
    Clears source stores hw := by
  induction stores generalizing hw with
  | nil => exact absurd hs hlost
  | cons store rest ih =>
    obtain ⟨addr, value⟩ := store
    by_cases hclear : addr = Register.interruptRequest ∧ value &&& source.mask = 0
    · obtain ⟨rfl, hv⟩ := hclear
      exact ⟨[], value, rest, rfl, rfl, hv⟩
    have hkept : (write addr value hw).state.Requested source :=
      requested_write hr.wired.1.listens hs fun he hv ↦ hclear ⟨he, hv⟩
    rcases hw₁ : write addr value hw with ⟨fault | ⟨⟩, hw', records⟩ <;> rw [hw₁] at hkept
    · rw [storeAll_cons_of_error hw₁] at hlost
      exact absurd hkept hlost
    · rw [storeAll_cons_of_ok hw₁] at hlost
      have hr' : Reachable hw' := by
        have h := hr.perform (.write addr value)
        rwa [Operation.perform, hw₁] at h
      obtain ⟨before, v, after, rfl, hok, hv⟩ := ih hr' hkept hlost
      refine ⟨(addr, value) :: before, v, after, rfl, ?_, hv⟩
      rw [storeAll_cons_of_ok hw₁]
      exact hok

/-! ## What waits to be served -/

/-- The sources that are both requested and enabled, as bits. -/
def awaited (hw : Hardware) : UInt8 :=
  hw.reg Register.interruptEnable &&& hw.reg Register.interruptRequest &&& 0x1f

/-- A source is pending when its bit is among those. -/
theorem isPending_iff (hw : Hardware) (source : Interrupt) :
    (hw.bus.interruptStatus source).isPending ↔ hw.awaited &&& source.mask ≠ 0 := by
  have hfield : 0x1f &&& source.mask = source.mask := by cases source <;> rfl
  have hp : (hw.bus.interruptStatus source).isPending ↔
      hw.reg Register.interruptRequest &&& source.mask ≠ 0 ∧
        hw.reg Register.interruptEnable &&& source.mask ≠ 0 := by
    simp [InterruptStatus.isPending, Bus.interruptStatus, reg]
  rw [hp, awaited, UInt8.and_assoc, hfield, UInt8.and_assoc]
  rcases source.and_mask (hw.reg Register.interruptRequest) with h | h <;> rw [h]
  · simp
  · simp [source.mask_ne_zero]

/-- Some source is pending unless no bit is set. -/
theorem pendingInterrupt?_eq_none_iff (hw : Hardware) :
    hw.bus.pendingInterrupt? = none ↔ hw.awaited = 0 := by
  have hbits : ∀ x : UInt8, (∀ source : Interrupt, x &&& 0x1f &&& source.mask = 0) →
      x &&& 0x1f = 0 := by
    refine fun x h ↦ ?_
    have h1 := h .vblank
    have h2 := h .stat
    have h4 := h .timer
    have h8 := h .serial
    have h16 := h .joypad
    revert h1 h2 h4 h8 h16
    clear h
    revert x
    exact forall_byte (by decide +kernel)
  rw [Bus.pendingInterrupt?, List.find?_eq_none]
  constructor
  · intro h
    refine hbits _ fun source ↦ ?_
    have hs := h source (by cases source <;> decide)
    rwa [isPending_iff, not_not] at hs
  · intro h source _
    rw [isPending_iff, h]
    simp

/-- The source to be served is pending, and no more urgent one is. -/
theorem pendingInterrupt?_eq_some {hw : Hardware} {source : Interrupt}
    (h : hw.bus.pendingInterrupt? = some source) :
    hw.awaited &&& source.mask ≠ 0 ∧
      ∀ other : Interrupt, hw.awaited &&& other.mask ≠ 0 → source.mask ≤ other.mask := by
  have horder : Interrupt.all.Pairwise fun x y ↦ x.mask ≤ y.mask := by decide
  obtain ⟨hp, before, after, hall, hnone⟩ := List.find?_eq_some_iff_append.1 h
  refine ⟨(isPending_iff hw source).1 hp, fun other ho ↦ ?_⟩
  have hmem : other ∈ Interrupt.all := by cases other <;> decide
  rw [hall] at hmem horder
  rcases List.mem_append.1 hmem with hb | ha
  · have hn := hnone other hb
    rw [(isPending_iff hw other).2 ho] at hn
    cases hn
  rcases List.mem_cons.1 ha with rfl | ha
  · exact UInt8.le_refl _
  · exact (List.pairwise_cons.1 (List.pairwise_append.1 horder).2.1).1 other ha

end Hardware

end DotMatrix
