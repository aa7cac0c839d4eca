import DotMatrix.Proofs.Display.Film
import DotMatrix.Proofs.Hardware.Spared
import DotMatrix.Proofs.Timer.Drift

/-!
# The status byte

Programs and the display share the status byte.  Its top bit is always set, four of its bits are
those that were written to it last, and the other three show the display: the phase that it is in,
and whether the line was the one to compare with when the display changed last.

* `lastWritten?` — the byte that was last written to an address, `Story.eq_lastWritten`, that bits
  which only writes change are those of that byte, and `Story.kept`, that the status byte has such.
* `Diary` — everything that happened to hardware since it was turned on, with what did it.
* `Happening.moves` — the display was turned on or off, or its phase or its line changed.
* `Compared` — when the display changed last and what is shown of that, and `Diary.tells`, that
  every diary tells so.
* `status_of_story` — all bits of the status byte, and the upper ones of the requests.
-/

set_option autoImplicit false

namespace DotMatrix

namespace Hardware

variable {hw hw' : Hardware} {op : Operation} {ops : List Operation} {addr : UInt16}

/-! ## Writes to the display's registers -/

/-- A write to the line is dropped. -/
theorem write_line (hl : DisplayListens hw) (value : UInt8) : write Register.line value hw =
    ⟨.ok (), hw, #[.notice (.lineWriteDropped value)]⟩ := by
  rw [write_of_ne hl (by decide), onBus, Bus.write_of_register (by decide)]
  rfl

/-- A write to the status byte stores four bits of it. -/
theorem write_lcdStatus (hl : DisplayListens hw) (value : UInt8) :
    write Register.lcdStatus value hw = ⟨.ok (), hw.put Register.lcdStatus
      (0x80 ||| value &&& 0x78 ||| hw.reg Register.lcdStatus &&& 7), #[]⟩ := by
  rw [write_of_ne hl (by decide), onBus, Bus.write_of_register (by decide)]
  rfl

/-- These bits are what is written. -/
theorem kept_writeStatus (value : UInt8) (b : Bus) :
    (b.writeStatus value).register Register.lcdStatus &&& 0x78 = value &&& 0x78 := by
  have hvalue : (0x80 ||| value &&& 0x78) &&& 0x78 = value &&& 0x78 := by
    revert value
    exact forall_byte (by decide +kernel)
  have hold : b.register Register.lcdStatus &&& 7 &&& 0x78 = 0 := by
    rw [UInt8.and_assoc]
    exact UInt8.and_zero
  rw [Bus.writeStatus, Bus.register_setRegister_self, Bus.or_and_distrib, hvalue, hold,
    UInt8.or_zero]

/-- Without time, the bits that show the display change only if it is turned on or off. -/
theorem shown_perform (hl : DisplayListens hw) (ha : ∀ cycles, op ≠ .advance cycles)
    (hc : ∀ value, op ≠ .write Register.lcdControl value) :
    (op.perform hw).state.reg Register.lcdStatus &&& 7 = hw.reg Register.lcdStatus &&& 7 := by
  by_cases hs : ∃ value, op = .write Register.lcdStatus value
  · obtain ⟨value, rfl⟩ := hs
    rw [Operation.perform, write_of_ne hl (by decide)]
    exact Bus.shown_write Register.lcdStatus value hw.bus
  · rw [reg_perform_of_quiet hl ha hc (by decide) (by decide) fun value he ↦ hs ⟨value, he⟩]

/-- The bits that programs write change only by a write to the status byte. -/
theorem kept_perform (hl : DisplayListens hw) (ha : ∀ cycles, op ≠ .advance cycles)
    (hs : ∀ value, op ≠ .write Register.lcdStatus value) :
    (op.perform hw).state.reg Register.lcdStatus &&& 0x78 =
      hw.reg Register.lcdStatus &&& 0x78 := by
  by_cases hc : ∃ value, op = .write Register.lcdControl value
  · obtain ⟨value, rfl⟩ := hc
    rw [Operation.perform, write_lcdControl hl]
    refine (spares_covers.controlled _ value).status.trans ?_
    rw [reg_put_of_ne _ _ (by decide)]
  · rw [reg_perform_of_quiet hl ha (fun value he ↦ hc ⟨value, he⟩) (by decide) (by decide) hs]

/-! ## What was written last -/

/-- The byte that an operation writes to an address. -/
def Operation.written? (addr : UInt16) : Operation → Option UInt8
  | .write other value => if other = addr then some value else none
  | .advance _ | .withdraw _ | .press _ _ => none

/-- The byte that was last written to an address, by operations the newest first. -/
def lastWritten? (addr : UInt16) (ops : List Operation) : Option UInt8 :=
  ops.findSome? (Operation.written? addr)

theorem Operation.written?_of_ne (h : ∀ value, op ≠ .write addr value) :
    op.written? addr = none := by
  cases op with
  | write other value => exact if_neg fun he ↦ h value (by rw [he])
  | advance | withdraw | press => rfl

/-- Bits of a register that start clear and that only writes to it change are those that were
written last. -/
theorem Story.eq_lastWritten {fired : List (Timed.Firing Task Board)} {mask : UInt8}
    (hfirst : ∀ cartridge, (Hardware.powerOn cartridge).1.reg addr &&& mask = 0)
    (hwrite : ∀ {hw : Hardware} (value : UInt8), Reachable hw →
      (write addr value hw).state.reg addr &&& mask = value &&& mask)
    (hother : ∀ {hw : Hardware} {op : Operation}, Reachable hw →
      (∀ value, op ≠ .write addr value) →
        (op.perform hw).state.reg addr &&& mask = hw.reg addr &&& mask)
    (h : Story ops fired hw) :
    hw.reg addr &&& mask = (lastWritten? addr ops).getD 0 &&& mask := by
  have hlast := h.eq_last (fun hw ↦ hw.reg addr &&& mask)
    (Option.map (· &&& mask) ∘ Operation.written? addr) hfirst fun {hw} op hr ↦ by
      rw [Function.comp_apply]
      by_cases hw₁ : ∃ value, op = .write addr value
      · obtain ⟨value, rfl⟩ := hw₁
        rw [Operation.written?, if_pos rfl]
        exact hwrite value hr
      · have hne : ∀ value, op ≠ .write addr value := fun value he ↦ hw₁ ⟨value, he⟩
        rw [Operation.written?_of_ne hne]
        exact hother hr hne
  rw [hlast, ← List.map_findSome?, lastWritten?]
  cases ops.findSome? (Operation.written? addr) with
  | none => exact UInt8.zero_and.symm
  | some => rfl

/-- **The bits that programs write are those that were written last.** -/
theorem Story.kept {fired : List (Timed.Firing Task Board)} (h : Story ops fired hw) :
    hw.reg Register.lcdStatus &&& 0x78 =
      (lastWritten? Register.lcdStatus ops).getD 0 &&& 0x78 := by
  refine h.eq_lastWritten (fun cartridge ↦ ?_) (fun {hw} value hr ↦ ?_) fun {hw op} hr hs ↦ ?_
  · have harmed : (armed cartridge).reg Register.lcdStatus = 0x85 := rfl
    rw [powerOn_eq, (spares_covers.started _).status, harmed]
    rfl
  · rw [write_lcdStatus hr.wired.1.listens]
    exact kept_writeStatus value hw.bus
  · by_cases ha : ∃ cycles, op = .advance cycles
    · obtain ⟨cycles, rfl⟩ := ha
      exact (hr.spares_advance cycles).status
    · exact kept_perform hr.wired.1.listens (fun cycles he ↦ ha ⟨cycles, he⟩) hs

/-! ## Diaries -/

/-- Something that happened to the hardware and the operation that did it, if it was one and no task
that fired. -/
structure Entry extends Happening where
  cause : Option Operation

namespace Entry

/-- Something that happened by itself. -/
def unprompted (h : Happening) : Entry := ⟨h, none⟩

/-- A byte is written to an address. -/
def Writes (addr : UInt16) (e : Entry) : Prop := ∃ value, e.cause = some (.write addr value)

end Entry

/-- Hardware that was started and acted on since, with what was done to it and everything that
happened to it, the newest first. -/
inductive Diary : List Operation → List Entry → Hardware → Prop where
  | powerOn {image : Array UInt8} {cartridge : Cartridge}
      (h : Cartridge.ofImage image = .ok cartridge) :
      Diary [] [.unprompted ⟨armed cartridge, (powerOn cartridge).1⟩] (powerOn cartridge).1
  | act {ops : List Operation} {log : List Entry} {hw : Hardware} {op : Operation}
      (ha : ∀ cycles, op ≠ .advance cycles) (h : Diary ops log hw) :
      Diary (op :: ops) (⟨⟨hw, (op.perform hw).state⟩, some op⟩ :: log) (op.perform hw).state
  | pass {ops : List Operation} {log : List Entry} {hw : Hardware} {cycles : Nat}
      {firings : List (Timed.Firing Task Board)} {o : Outcome Hardware Unit}
      (h : Diary ops log hw) (hd : Timed.Drains fire (hw.now + cycles) hw firings o) :
      Diary (.advance cycles :: ops) ((film firings).map .unprompted ++ log) o.state

variable {log : List Entry}

theorem Diary.reachable (h : Diary ops log hw) : Reachable hw := by
  induction h with
  | powerOn h => exact .powerOn h
  | act _ _ ih => exact .perform _ ih
  | @pass _ _ hw cycles _ o _ hd ih =>
    have hop : (Operation.advance cycles).perform hw = o := hd.advance_eq
    exact hop ▸ ih.perform (.advance cycles)

/-- Every story can be told in full. -/
theorem Story.exists_diary {fired : List (Timed.Firing Task Board)} (h : Story ops fired hw) :
    ∃ log, Diary ops log hw := by
  induction h with
  | powerOn h => exact ⟨_, .powerOn h⟩
  | act ha _ ih =>
    obtain ⟨log, ih⟩ := ih
    exact ⟨_, .act ha ih⟩
  | pass _ hd ih =>
    obtain ⟨log, ih⟩ := ih
    exact ⟨_, .pass ih hd⟩

/-! ## Changes of the display -/

/-- The display was turned on or off, or its phase or its line changed. -/
def Happening.moves (h : Happening) : Prop :=
  h.after.display.enabled ≠ h.before.display.enabled ∨
    h.after.display.phase ≠ h.before.display.phase ∨
    h.after.reg Register.line ≠ h.before.reg Register.line

namespace Happening

theorem not_moves (hd : hw'.display = hw.display)
    (hl : hw'.reg Register.line = hw.reg Register.line) : ¬ (Happening.mk hw hw').moves := by
  simp [moves, hd, hl]

/-- Every way out of a phase leads to another phase or line. -/
theorem moves_followed (hw : Hardware) :
    (Happening.mk hw (hw.followed hw.display.phase.exit)).moves := by
  have hbelow : hw.lineBelow ≠ hw.reg Register.line := by
    rw [lineBelow]
    simp
  refine Or.inr ?_
  dsimp only
  cases hp : hw.display.phase <;> rw [Phase.exit, followed]
  case hblank => exact Or.inr (by rwa [line_entered, line_atLine])
  case vblank =>
    split
    · exact Or.inl (by rw [phase_entered]; decide)
    · exact Or.inr (by rwa [planned, reg_later, line_atLine])
  all_goals exact Or.inl (by rw [phase_entered]; decide)

end Happening

/-! ## The line that is shown -/

theorem match_statusByte (old : UInt8) (phase : Phase) (isMatch : Bool) :
    statusByte old phase isMatch &&& Register.lineMatch =
      if isMatch then Register.lineMatch else 0 := by
  revert old
  cases phase <;> cases isMatch <;> exact forall_byte (by decide +kernel)

/-- The hardware shows that its line is the one to compare with. -/
def ShowsMatch (hw : Hardware) : Prop := hw.reg Register.lcdStatus &&& Register.lineMatch ≠ 0

theorem UpToDate.showsMatch_iff (h : hw.UpToDate) :
    hw.ShowsMatch ↔ hw.reg Register.line = hw.reg Register.lineCompare := by
  rw [ShowsMatch, h, statusNow, match_statusByte, matchesLine]
  split
  · rename_i hm
    exact iff_of_true (by decide) (beq_iff_eq.1 hm)
  · rename_i hm
    exact iff_of_false (not_not_intro rfl) fun he ↦ hm (beq_iff_eq.2 he)

theorem showsMatch_congr
    (h : hw'.reg Register.lcdStatus &&& 7 = hw.reg Register.lcdStatus &&& 7) :
    hw'.ShowsMatch ↔ hw.ShowsMatch := by
  have hbit : ∀ x : UInt8, x &&& Register.lineMatch = x &&& 7 &&& Register.lineMatch :=
    fun x ↦ (UInt8.and_assoc x 7 Register.lineMatch).symm
  rw [ShowsMatch, ShowsMatch, hbit, h, ← hbit]

/-- Since `last`, when the display changed last, only `newer` happened.  It is shown whether the
line was the one to compare with then, and both are the same now, unless the latter was written. -/
structure Compared (newer : List Entry) (last : Entry) (hw : Hardware) : Prop where
  moves : last.moves
  still : ∀ e ∈ newer, ¬ e.moves
  shown : hw.ShowsMatch ↔ last.after.reg Register.line = last.after.reg Register.lineCompare
  line : hw.reg Register.line = last.after.reg Register.line
  compare : (∀ e ∈ newer, ¬ e.Writes Register.lineCompare) →
    hw.reg Register.lineCompare = last.after.reg Register.lineCompare

/-- A log tells when the display changed last. -/
def Tells (log : List Entry) (hw : Hardware) : Prop :=
  ∃ newer last older, log = newer ++ last :: older ∧ Compared newer last hw

namespace Tells

theorem of_body (h : Tells log hw) (hb : hw'.body = hw.body) : Tells log hw' := by
  obtain ⟨clock, body⟩ := hw
  obtain ⟨clock', body'⟩ := hw'
  obtain rfl : body' = body := hb
  obtain ⟨newer, last, older, hlog, hc⟩ := h
  exact ⟨newer, last, older, hlog, hc.moves, hc.still, hc.shown, hc.line, hc.compare⟩

/-- The display changes. -/
theorem move {cause : Option Operation} (hm : (Happening.mk hw hw').moves) (hu : hw'.UpToDate) :
    Tells (⟨⟨hw, hw'⟩, cause⟩ :: log) hw' :=
  ⟨[], _, log, rfl, hm, fun _ he ↦ absurd he List.not_mem_nil, hu.showsMatch_iff, rfl, fun _ ↦ rfl⟩

/-- Something happens that the display does not notice. -/
theorem unnoticed (h : Tells log hw) {cause : Option Operation} (hd : hw'.display = hw.display)
    (hl : hw'.reg Register.line = hw.reg Register.line)
    (hs : hw'.reg Register.lcdStatus &&& 7 = hw.reg Register.lcdStatus &&& 7)
    (hc : (∀ value, cause ≠ some (.write Register.lineCompare value)) →
      hw'.reg Register.lineCompare = hw.reg Register.lineCompare) :
    Tells (⟨⟨hw, hw'⟩, cause⟩ :: log) hw' := by
  obtain ⟨newer, last, older, rfl, hcompared⟩ := h
  refine ⟨⟨⟨hw, hw'⟩, cause⟩ :: newer, last, older, rfl, hcompared.moves, fun e he ↦ ?_, ?_,
    hl.trans hcompared.line, fun hwrites ↦ ?_⟩
  · rcases List.mem_cons.1 he with rfl | he
    · exact Happening.not_moves hd hl
    · exact hcompared.still e he
  · exact (showsMatch_congr hs).trans hcompared.shown
  · have hfirst := hwrites _ List.mem_cons_self
    exact (hc fun value he ↦ hfirst ⟨value, he⟩).trans
      (hcompared.compare fun e he ↦ hwrites e (List.mem_cons_of_mem _ he))

/-- A task fires. -/
theorem turn {records : Array Record} (h : Tells log hw) (ht : Turn hw records hw') :
    Tells (.unprompted ⟨hw, hw'⟩ :: log) hw' := by
  cases ht with
  | @tick _ _ ticked _ ht =>
    have hq := ht.quiet
    refine h.unnoticed hq.display hq.line ?_ fun _ ↦ ht.reg_eq (by decide) (by decide) (by decide)
    rw [reg_later, ht.reg_eq (by decide) (by decide) (by decide)]
  | void => exact h.unnoticed rfl rfl rfl fun _ ↦ rfl
  | display => exact move (Happening.moves_followed hw) (upToDate_followed _ _)

/-- The hardware is acted on without letting time pass. -/
theorem act (h : Tells log hw) (hr : Reachable hw) (ha : ∀ cycles, op ≠ .advance cycles) :
    Tells (⟨⟨hw, (op.perform hw).state⟩, some op⟩ :: log) (op.perform hw).state := by
  have hl := hr.wired.1.listens
  have hcompare : (∀ value, some op ≠ some (.write Register.lineCompare value)) →
      (op.perform hw).state.reg Register.lineCompare = hw.reg Register.lineCompare := fun hop ↦
    reg_perform hl ha (by decide) (by decide) (by decide) (by decide) fun value he ↦
      hop value (by rw [he])
  by_cases hc : ∃ value, op = .write Register.lcdControl value
  · obtain ⟨value, rfl⟩ := hc
    rw [Operation.perform]
    rcases write_lcdControl_cases hl value with ⟨-, hop⟩ | ⟨hoff, -, hop⟩ | ⟨hon, -, hop⟩ <;>
      rw [hop]
    · exact h.unnoticed rfl (reg_put_of_ne _ _ (by decide))
        (by rw [reg_put_of_ne _ _ (by decide)]) fun _ ↦ reg_put_of_ne _ _ (by decide)
    · exact move (Or.inl (by rw [enabled_started, hoff]; decide)) (upToDate_started _)
    · exact move (Or.inl (by rw [enabled_stopped, hon]; decide)) (upToDate_stopped _)
  · have hquiet : ∀ value, op ≠ .write Register.lcdControl value := fun value he ↦ hc ⟨value, he⟩
    have hq := quiet_perform hl ha hquiet
    exact h.unnoticed hq.display hq.line (shown_perform hl ha hquiet) hcompare

end Tells

/-- **Every diary tells when the display changed last.** -/
theorem Diary.tells (h : Diary ops log hw) : Tells log hw := by
  induction h with
  | powerOn =>
    rw [powerOn_eq]
    exact .move (Or.inl (by rw [enabled_started]; exact Bool.noConfusion)) (upToDate_started _)
  | act ha h ih => exact ih.act h.reachable ha
  | @pass ops log hw cycles firings o h hd ih =>
    obtain ⟨hw₁, _, _, _, ht⟩ := h.reachable.wired
    exact film_induction (P := fun new hw ↦ Tells (new.map .unprompted ++ log) hw)
      (fun hb h ↦ h.of_body hb) (fun ht h ↦ h.turn ht) ih (.start hw₁ ht cycles) hd

end Hardware

namespace Console

open Hardware (Diary Entry lastWritten?)

/-- **The status byte and the requests.**  On every machine, whatever was done to it, the top bit of
the status byte is set, its mode bits are the code of the display's phase, which is 0 while the
display is off, and its bits 3 to 6 are those that were written to it last.  Its bit 2 tells whether
the line was the one to compare with when the display last started, stopped or changed its phase or
line, and so whether it is unless the latter was written since.  The bits of the requests that
belong to no source are set.  A write to the line changes nothing, and one to the status byte
changes neither the line nor the display nor the bits that show it. -/
theorem status_of_story :
    (∀ c : Console, Reachable c → ∃ ops, Story ops c) ∧
    ∀ (ops : List Hardware.Operation) (c : Console), Story ops c →
      let hw := c.hardware
      let status := hw.reg Register.lcdStatus
      (∀ addr ∈ [Register.lcdStatus, Register.interruptRequest, Register.line,
        Register.lineCompare], (Hardware.load addr hw).result = .ok (hw.reg addr)) ∧
      status &&& 0x80 = 0x80 ∧
      status &&& 0x03 = hw.display.phase.code ∧
      (hw.display.enabled = false → status &&& 0x03 = 0) ∧
      status &&& 0x78 = (lastWritten? Register.lcdStatus ops).getD 0 &&& 0x78 ∧
      hw.reg Register.interruptRequest &&& 0xe0 = 0xe0 ∧
      (∀ value, Hardware.write Register.line value hw =
        ⟨.ok (), hw, #[.notice (.lineWriteDropped value)]⟩) ∧
      (∀ value, ∃ hw', Hardware.write Register.lcdStatus value hw = ⟨.ok (), hw', #[]⟩ ∧
        hw'.reg Register.line = hw.reg Register.line ∧ hw'.display = hw.display ∧
        hw'.reg Register.lcdStatus &&& 0x07 = status &&& 0x07) ∧
      (∃ log, Diary ops log hw) ∧
      ∀ log, Diary ops log hw → ∃ newer last older, log = newer ++ last :: older ∧
        last.moves ∧ (∀ e ∈ newer, ¬ e.moves) ∧
        (status &&& 0x04 ≠ 0 ↔
          last.after.reg Register.line = last.after.reg Register.lineCompare) ∧
        ((∀ e ∈ newer, ¬ e.Writes Register.lineCompare) →
          (status &&& 0x04 ≠ 0 ↔ hw.reg Register.line = hw.reg Register.lineCompare)) := by
  refine ⟨fun c h ↦ h.exists_story, fun ops c h ↦ ?_⟩
  have hr := h.reachable.hardware
  have hw₁ := hr.wired.1
  obtain ⟨fired, hs⟩ := h.hardware
  refine ⟨fun addr haddr ↦ ?_, hr.status_top, hw₁.mode, fun hoff ↦ ?_, hs.kept, hr.requests_top,
    fun value ↦ Hardware.write_line hw₁.listens value, fun value ↦ ?_, hs.exists_diary,
    fun log hlog ↦ ?_⟩
  · rw [List.mem_cons, List.mem_cons, List.mem_cons, List.mem_singleton] at haddr
    rcases haddr with rfl | rfl | rfl | rfl <;> rfl
  · rw [hw₁.mode, (hw₁.dark hoff).2]
    rfl
  · refine ⟨_, Hardware.write_lcdStatus hw₁.listens value,
      Hardware.reg_put_of_ne _ _ (by decide), rfl, Bus.shown_writeStatus value c.hardware.bus⟩
  · obtain ⟨newer, last, older, hlog, hc⟩ := hlog.tells
    refine ⟨newer, last, older, hlog, hc.moves, hc.still, hc.shown, fun hwrites ↦ ?_⟩
    rw [hc.line, hc.compare hwrites]
    exact hc.shown

/-- A program writes to all bits of the status byte at once. -/
def flagged : Console := ((Operation.write Register.lcdStatus 0xff).perform blank).state

/-- The display has just started, at the line to compare with. -/
theorem status_of_story_flagged : Story [.write Register.lcdStatus 0xff] flagged ∧
    (Hardware.load Register.lcdStatus flagged.hardware).result = .ok 0xfe := by
  have hstory : Story [.write Register.lcdStatus 0xff] flagged :=
    story_blank.perform (.write Register.lcdStatus 0xff)
  have hdiary : Diary [.write Register.lcdStatus 0xff] _ flagged.hardware :=
    (Diary.powerOn Hardware.emptyImage_accepted).act (fun _ he ↦ by cases he)
  have hblank : blank.hardware = (Hardware.armed (.plain Hardware.emptyImage)).started :=
    congrArg Prod.fst (Hardware.powerOn_eq (.plain Hardware.emptyImage))
  have hflagged : flagged.hardware = blank.hardware.put Register.lcdStatus _ :=
    congrArg Outcome.state (Hardware.write_lcdStatus reachable_blank.hardware.wired.1.listens 0xff)
  have hphase : flagged.hardware.display.phase = .oamScan := by
    rw [hflagged, Hardware.display_put, hblank, Hardware.phase_started]
  have hline : flagged.hardware.reg Register.line = 0 := by
    rw [hflagged, Hardware.reg_put_of_ne _ _ (by decide), hblank, Hardware.line_started]
  have hcompare : flagged.hardware.reg Register.lineCompare = 0 := by
    rw [hflagged, Hardware.reg_put_of_ne _ _ (by decide), hblank]
    exact (Hardware.reg_covers (by decide) (by decide) (by decide)).started _
  obtain ⟨hload, htop, hmode, -, hkept, -, -, -, -, htells⟩ := status_of_story.2 _ _ hstory
  obtain ⟨newer, last, older, hlog, -, -, -, hshown⟩ := htells _ hdiary
  refine ⟨hstory, (hload _ List.mem_cons_self).trans ?_⟩
  have hmatch := (hshown fun e he ↦ ?_).2 (hline.trans hcompare.symm)
  · have hbits : ∀ x : UInt8, x &&& 0x80 = 0x80 → x &&& 3 = 2 → x &&& 0x78 = 0x78 → x &&& 4 ≠ 0 →
        x = 0xfe := forall_byte (by decide +kernel)
    rw [hphase] at hmode
    exact congrArg Except.ok (hbits _ htop hmode hkept hmatch)
  · have hmem : e ∈ newer ++ last :: older := List.mem_append_left _ he
    rw [← hlog, List.mem_cons, List.mem_singleton] at hmem
    rcases hmem with rfl | rfl <;> rintro ⟨value, hw⟩ <;> cases hw

end Console

end DotMatrix
