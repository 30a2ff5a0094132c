import OsCortex.Compositor.Effects

/-!
Rows of a submitted picture. `submit_bgra_impl` reads whole words, so its rows are `row_bytes` apart
only if that is a multiple of four, and a row that is too short for the surface is not refused.
-/

namespace OsCortex.Compositor

variable (slot : Slot) (len rowBytes : Nat)

/-- The payload has `len` bytes; behind them `memory` holds anything. -/
def Slot.Faithful : Prop :=
  ∀ memory payload result, (∀ place < len, payload place = memory place) →
    slot.submit memory len rowBytes = .ok result →
    slot.surface.width.toNat * 4 ≤ slot.stride rowBytes ∧
      ∃ filled, result.bind Slot.backBuffer = some filled ∧
        slot.Drawn filled fun x y => swapRedBlue (word payload (y * slot.stride rowBytes + 4 * x))

lemma words_iff {w h stride len : Nat} :
    (∀ memory payload : Nat → UInt8, (∀ place < len, payload place = memory place) →
      ∀ y < h, ∀ x < w, swapRedBlue (word payload (y * stride + 4 * x)) =
        swapRedBlue (word memory ((y * (stride / 4) + x) * 4))) ↔
      (w = 0 ∨ h ≤ 1 ∨ stride % 4 = 0) ∧
        (w = 0 ∨ h = 0 ∨ ((h - 1) * (stride / 4) + w) * 4 ≤ len) := by
  constructor
  · intro words
    constructor <;> by_contra wrong <;> simp only [not_or] at wrong
    · have pixel := words (fun place => if place = stride / 4 * 4 then 1 else 0) _
        (fun _ _ => rfl) 1 (by omega) 0 (by omega)
      have missed : ∀ more, stride + more ≠ stride / 4 * 4 := by omega
      have start : stride ≠ stride / 4 * 4 := by omega
      simp [word, missed, start] at pixel
      exact absurd pixel (by decide)
    · obtain ⟨last, same⟩ : ∃ last, last = ((h - 1) * (stride / 4) + (w - 1)) * 4 := ⟨_, rfl⟩
      have pixel := words (fun place => if place = last + 3 then 1 else 0) (fun _ => 0)
        (fun place inside => (if_neg (by omega)).symm) (h - 1) (by omega) (w - 1) (by omega)
      rw [← same] at pixel
      simp [word] at pixel
      exact absurd pixel (by decide)
  · rintro ⟨even, inside⟩ memory payload same y row x column
    have place : (y * (stride / 4) + x) * 4 = y * stride + 4 * x := by
      rcases Nat.eq_zero_or_pos y with rfl | below
      · omega
      rw [Nat.add_mul, Nat.mul_assoc, show stride / 4 * 4 = stride by omega, Nat.mul_comm x]
    have above : y * (stride / 4) ≤ (h - 1) * (stride / 4) := Nat.mul_le_mul_right _ (by omega)
    simp only [word, ← place]
    rw [same _ (by omega), same _ (by omega), same _ (by omega), same _ (by omega)]

theorem submit_faithful_iff :
    slot.Faithful len rowBytes ↔
      let w := slot.surface.width.toNat
      let h := slot.surface.height.toNat
      let stride := slot.stride rowBytes
      len < stride / 4 * 4 * h % 2 ^ 64 ∨
        w * 4 ≤ stride ∧ (w = 0 ∨ h ≤ 1 ∨ stride % 4 = 0) ∧
          (w = 0 ∨ h = 0 ∨ ((h - 1) * (stride / 4) + w) * 4 ≤ len) := by
  have accepts := fun memory => submit_accepts memory slot len rowBytes
  dsimp only
  rw [← words_iff]
  constructor
  · intro faithful
    refine or_iff_not_imp_left.2 fun accepted => ?_
    obtain ⟨_, done⟩ := (accepts fun _ => 0).2 accepted
    refine ⟨(faithful _ _ _ (fun _ _ => rfl) done).1, fun memory payload same y row x column => ?_⟩
    obtain ⟨_, done⟩ := (accepts memory).2 accepted
    obtain ⟨filled, _, drawn, rfl⟩ := submit_ok done
    obtain ⟨_, _, ⟨⟩, drawn'⟩ := faithful memory payload _ same done
    exact Option.some.inj ((drawn' y row x column).symm.trans (drawn y row x column))
  · intro good memory payload result same done
    obtain ⟨wide, words⟩ := good.resolve_left ((accepts memory).1 ⟨result, done⟩)
    obtain ⟨filled, _, drawn, rfl⟩ := submit_ok done
    refine ⟨wide, filled, rfl, fun y row x column => ?_⟩
    rw [drawn y row x column]
    exact congrArg some (words memory payload same y row x column).symm

/-- Rows of six bytes for two pixels: the second row is taken from byte 4 on. -/
theorem short_rows_accepted :
    let slot : Slot := { surface := { width := 2, height := 2 } }
    slot.submit .ofNat 12 6 = .ok (some { slot with
      backBuffer := some [0x03000102, 0x07040506, 0x07040506, 0x0b08090a], backPending := true }) ∧
      ¬ slot.Faithful 12 6 := by
  refine ⟨by decide, fun faithful => ?_⟩
  exact absurd (faithful (fun _ => 0) _ _ (fun _ _ => rfl) rfl).1 (by decide)

end OsCortex.Compositor
