import GpuBuffer.Format.Shape
import Mathlib.Order.Nat

namespace GpuBuffer.Shape

theorem vectorAlignment_pos (scalar : Scalar) (length : Nat) : 0 < vectorAlignment scalar length := by
  have positive := scalar.width_pos
  unfold vectorAlignment
  split <;> omega

theorem rows_le_columnSpan (scalar : Scalar) (rows : Nat) : rows * scalar.width ≤ columnSpan scalar rows :=
  le_roundUp _ (vectorAlignment_pos scalar rows)

theorem row_within_column (scalar : Scalar) {rows : Nat} (positive : 0 < rows) (i : Nat) :
    i % rows * scalar.width + scalar.width ≤ columnSpan scalar rows := by
  have row : i % rows + 1 ≤ rows := Nat.mod_lt i positive
  have width := Nat.mul_le_mul_right scalar.width row
  rw [Nat.succ_mul] at width
  exact width.trans (rows_le_columnSpan scalar rows)

theorem rows_pos {scalar : Scalar} {columns rows i : Nat}
    (within : i < (Shape.mk scalar (.matrix columns rows)).arity) : 0 < rows := by
  apply Nat.pos_of_ne_zero
  intro none
  simp [arity, none] at within

/-- Components are stored in order: none starts before its predecessor's end, neither inside a
column nor across the padding between two of them. -/
theorem componentStart_ordered (shape : Shape) {i j : Nat} (before : i < j) (within : j < shape.arity) :
    shape.componentStart i + shape.scalar.width ≤ shape.componentStart j := by
  obtain ⟨scalar, arrangement⟩ := shape
  have packed : i * scalar.width + scalar.width ≤ j * scalar.width := by
    have step := Nat.mul_le_mul_right scalar.width before
    rwa [Nat.succ_mul] at step
  cases arrangement with
  | single => exact packed
  | vector length => exact packed
  | matrix columns rows =>
    have positive := rows_pos within
    have split_i := Nat.div_add_mod i rows
    have split_j := Nat.div_add_mod j rows
    simp only [componentStart]
    have columns_le : i / rows ≤ j / rows := Nat.div_le_div_right before.le
    rcases Nat.lt_or_eq_of_le columns_le with columnBefore | sameColumn
    · have step := Nat.mul_le_mul_right (columnSpan scalar rows) columnBefore
      have inside := row_within_column scalar positive i
      rw [Nat.succ_mul] at step
      omega
    · rw [sameColumn] at split_i ⊢
      have step := Nat.mul_le_mul_right scalar.width (show i % rows + 1 ≤ j % rows by omega)
      rw [Nat.succ_mul] at step
      omega

theorem component_within (shape : Shape) {i : Nat} (within : i < shape.arity) :
    shape.componentStart i + shape.scalar.width ≤ shape.size := by
  obtain ⟨scalar, arrangement⟩ := shape
  cases arrangement with
  | single =>
    have first : i = 0 := Nat.lt_one_iff.mp within
    simp [componentStart, size, first]
  | vector length =>
    have step := Nat.mul_le_mul_right scalar.width (Nat.succ_le_of_lt within)
    rwa [Nat.succ_mul] at step
  | matrix columns rows =>
    have positive := rows_pos within
    have column : i / rows + 1 ≤ columns := (Nat.div_lt_iff_lt_mul positive).mpr within
    have step := Nat.mul_le_mul_right (columnSpan scalar rows) column
    have inside := row_within_column scalar positive i
    rw [Nat.succ_mul] at step
    simp only [componentStart, size]
    omega

end GpuBuffer.Shape
