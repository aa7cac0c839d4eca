import DotMatrix.Proofs.Cartridge.External
import DotMatrix.Proofs.Range.Console

/-!
# Failing on the bus

Whether an access fails can be told from where it goes, which byte it writes and whether the
cartridge has a controller; nothing else that happened to the machine matters.  A write that fails
has not happened: the hardware is as it was, and nobody who watches the address hears of it.

* `Bus.exists_rejects_iff` — the writes that are rejected, in numbers.
* `Hardware.watched` — hardware with more observers, whose bus is the same.
* `bus_failures_exact` — which accesses of a machine fail, and that a failing one does nothing.
-/

set_option autoImplicit false

namespace DotMatrix

theorem Bus.exists_rejects_iff {b : Bus} {addr : UInt16} {value : UInt8} :
    (∃ fault, b.Rejects addr value fault) ↔
      Unmapped addr ∨
        b.cartridge.IsBanked ∧ (0x4000 ≤ addr ∧ addr ≤ 0x5fff) ∧ ¬ Window.IsCode value := by
  constructor
  · rintro ⟨fault, hr⟩
    cases hr with
    | unmapped h => exact Or.inl h
    | select hc hlow hhigh hw =>
      exact Or.inr ⟨hc, ⟨hlow, hhigh⟩, Window.ofCode?_eq_none_iff.1 hw⟩
  · rintro (h | ⟨hc, ⟨hlow, hhigh⟩, hw⟩)
    · exact ⟨_, .unmapped h⟩
    · exact ⟨_, .select hc hlow hhigh (Window.ofCode?_eq_none_iff.2 hw)⟩

namespace Hardware

/-- The hardware after more observers were registered. -/
def watched (extra : List (UInt16 × Observer)) (hw : Hardware) : Hardware :=
  extra.foldl (fun hw entry ↦ (watch entry.1 entry.2 hw).state) hw

theorem bus_watched (extra : List (UInt16 × Observer)) (hw : Hardware) :
    (hw.watched extra).bus = hw.bus := by
  induction extra generalizing hw with
  | nil => rfl
  | cons entry extra ih => exact ih (watch entry.1 entry.2 hw).state

end Hardware

namespace Console

/-- **Failures of the bus are exact and leave no trace.**  On every machine, a read fails just where
nothing is mapped, and a write there and if it selects a window that the controller does not have.
A write that fails leaves the hardware as it was and reports nothing, and so it does whatever else
watches the bus: no observer runs. -/
theorem bus_failures_exact {c : Console} (h : Reachable c) (addr : UInt16) (value : UInt8) :
    (∀ fault, (Hardware.load addr c.hardware).result = .error fault ↔
      Unmapped addr ∧ fault = .outOfBounds addr) ∧
    ((∃ fault, (Hardware.write addr value c.hardware).result = .error fault) ↔
      Unmapped addr ∨ c.hardware.bus.cartridge.IsBanked ∧
        (0x4000 ≤ addr ∧ addr ≤ 0x5fff) ∧ ¬ Window.IsCode value) ∧
    ∀ fault, (Hardware.write addr value c.hardware).result = .error fault →
      Hardware.write addr value c.hardware = ⟨.error fault, c.hardware, #[]⟩ ∧
      ∀ extra, Hardware.write addr value (c.hardware.watched extra) =
        ⟨.error fault, c.hardware.watched extra, #[]⟩ := by
  have hl : Hardware.DisplayListens c.hardware := h.hardware.wired.1.listens
  have hrejects : ∀ fault, (Hardware.write addr value c.hardware).result = .error fault ↔
      c.hardware.bus.Rejects addr value fault := fun _ ↦ Hardware.result_write_eq_error_iff hl
  refine ⟨fun fault ↦ Bus.read_eq_error_iff h.hardware.bounded.cartridge, ?_, fun fault hf ↦
    ⟨Hardware.write_of_error hl hf, fun extra ↦ Hardware.write_of_rejects ?_⟩⟩
  · simp only [hrejects, Bus.exists_rejects_iff]
  · rw [Hardware.bus_watched]
    exact (hrejects fault).1 hf

/-- With a controller, a code that stands for nothing is turned down at every address of the
control, unheard by an observer of that address. -/
theorem bus_failures_exact_select : Reachable uneven ∧
    ∃ fault, Hardware.write 0x5fff 0x04 (uneven.hardware.watched
      [(0x5fff, .reaction fun value ↦ .write 0xc000 value .done)]) =
        ⟨.error fault, uneven.hardware.watched
          [(0x5fff, .reaction fun value ↦ .write 0xc000 value .done)], #[]⟩ := by
  obtain ⟨-, hfails, hatomic⟩ := bus_failures_exact reachable_uneven 0x5fff 0x04
  have hbanked : uneven.hardware.bus.cartridge.IsBanked := by
    rw [uneven, Hardware.powerOn_eq, Hardware.cartridge_covers.started]
    exact ⟨{}, rfl⟩
  obtain ⟨fault, hf⟩ := hfails.2 (Or.inr ⟨hbanked, by decide, by decide⟩)
  exact ⟨reachable_uneven, fault, (hatomic fault hf).2 _⟩

end Console

end DotMatrix
