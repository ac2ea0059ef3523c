import GpuBuffer.Alignment
import Mathlib.Order.Bounds.Basic

namespace GpuBuffer

theorem roundUp_le {value align multiple : Nat} (positive : 0 < align) (divides : align ∣ multiple)
    (above : value ≤ multiple) : roundUp value align ≤ multiple := by
  have near := roundUp_lt value positive
  exact Nat.le_of_lt_add_of_dvd (by omega) (dvd_roundUp value align) divides

theorem isLeast_roundUp (value : Nat) {align : Nat} (positive : 0 < align) :
    IsLeast {n | align ∣ n ∧ value ≤ n} (roundUp value align) :=
  ⟨⟨dvd_roundUp value align, le_roundUp value positive⟩, fun _ bound => roundUp_le positive bound.1 bound.2⟩

theorem roundUp_of_dvd {value align : Nat} (positive : 0 < align) (divides : align ∣ value) :
    roundUp value align = value :=
  Nat.le_antisymm (roundUp_le positive divides le_rfl) (le_roundUp value positive)

/-- A coarser unit rounds like a finer one exactly where the finer one already reaches a multiple of
the coarser. -/
theorem roundUp_eq_roundUp_iff {value fine coarse : Nat} (finePos : 0 < fine) (coarsePos : 0 < coarse)
    (divides : fine ∣ coarse) : roundUp value coarse = roundUp value fine ↔ coarse ∣ roundUp value fine := by
  constructor
  · intro same
    exact same ▸ dvd_roundUp value coarse
  · intro reached
    apply Nat.le_antisymm
    · exact roundUp_le coarsePos reached (le_roundUp value finePos)
    · exact roundUp_le finePos (Nat.dvd_trans divides (dvd_roundUp value coarse)) (le_roundUp value coarsePos)

/-- Rounding to a finer unit first changes nothing. -/
theorem roundUp_roundUp (value : Nat) {fine coarse : Nat} (finePos : 0 < fine) (coarsePos : 0 < coarse)
    (divides : fine ∣ coarse) : roundUp (roundUp value fine) coarse = roundUp value coarse := by
  have reached := dvd_roundUp value coarse
  have above := le_roundUp value coarsePos
  apply Nat.le_antisymm
  · exact roundUp_le coarsePos reached (roundUp_le finePos (Nat.dvd_trans divides reached) above)
  · exact roundUp_le coarsePos (dvd_roundUp _ coarse)
      (Nat.le_trans (le_roundUp value finePos) (le_roundUp _ coarsePos))

end GpuBuffer
