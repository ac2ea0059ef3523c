namespace GpuBuffer

/-- The number of whole steps of `align` that cover `value`, the last one possibly in part. -/
def stepsCovering (value align : Nat) : Nat :=
  value / align + if value % align = 0 then 0 else 1

/-- The least multiple of `align` that is at least `value`. The alignment need not be a power of two. -/
def roundUp (value align : Nat) : Nat :=
  stepsCovering value align * align

theorem dvd_roundUp (value align : Nat) : align ∣ roundUp value align :=
  ⟨stepsCovering value align, Nat.mul_comm _ _⟩

theorem le_roundUp (value : Nat) {align : Nat} (positive : 0 < align) : value ≤ roundUp value align := by
  have split := Nat.div_add_mod value align
  have below := Nat.mod_lt value positive
  unfold roundUp stepsCovering
  rw [Nat.add_mul, Nat.mul_comm (value / align) align]
  by_cases exact : value % align = 0
  · rw [if_pos exact]; omega
  · rw [if_neg exact]; omega

theorem roundUp_lt (value : Nat) {align : Nat} (positive : 0 < align) : roundUp value align < value + align := by
  have split := Nat.div_add_mod value align
  have below := Nat.mod_lt value positive
  unfold roundUp stepsCovering
  rw [Nat.add_mul, Nat.mul_comm (value / align) align]
  by_cases exact : value % align = 0
  · rw [if_pos exact]; omega
  · rw [if_neg exact]; omega

/-- `roundUp` carried out in 32-bit words. An alignment of zero has no multiple to round to. -/
def roundUpWord? (value align : UInt32) : Option UInt32 :=
  if align = 0 then none
  else some ((value / align + if value % align = 0 then 0 else 1) * align)

end GpuBuffer
