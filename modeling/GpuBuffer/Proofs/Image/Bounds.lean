import GpuBuffer.Proofs.Image.Frame

namespace GpuBuffer

/-- Refused because it would go beyond the end of its buffer. -/
def Overruns {α : Type} (outcome : Except BufferError α) : Prop :=
  ∃ label reach size, outcome = .error (.outOfBounds label reach size)

theorem overruns_map {α β : Type} {f : α → β} {outcome : Except BufferError α} :
    Overruns (outcome.map f) ↔ Overruns outcome := by
  simp only [Overruns, map_eq_error_iff]

/-- The count of values is checked before the bounds, and no value is looked at before either. -/
theorem Target.overruns_patch_iff {target : Target} {label : String} {size : Nat} {values : Values} :
    Overruns (target.patch label size values) ↔ values.length = target.shape.arity ∧ size < target.reach := by
  unfold Target.patch
  by_cases count : values.length = target.shape.arity
  · by_cases beyond : size < target.reach
    · simp [Overruns, count, beyond]
    · rw [if_neg (not_not.mpr count), if_neg beyond, overruns_map]
      simp [Overruns, Shape.encode_eq_error_iff, beyond]
  · simp [Overruns, count]

theorem VertexLayout.overruns_patch_iff {layout : VertexLayout} {label : String} {size element : Nat}
    {key : AttributeKey} {values : Values} :
    Overruns (layout.patch label size element key values) ↔
      ∃ a, layout.find? key = some a ∧
        (layout.elements ≤ element ∨ Overruns ((layout.target element a).patch label size values)) := by
  unfold VertexLayout.patch
  cases found : layout.find? key with
  | none => simp [Overruns]
  | some a =>
    by_cases beyond : layout.elements ≤ element
    · simp [Overruns, beyond]
    · simp [beyond, VertexLayout.target]

theorem StructLayout.overruns_patch_iff {layout : StructLayout} {label : String} {size base : Nat}
    {name : String} {values : Values} :
    Overruns (layout.patch label size base name values) ↔
      ∃ m, layout.named? name = some m ∧
        (addressLimit ≤ base + m.offset ∨ Overruns ((StructLayout.target base m).patch label size values)) := by
  unfold StructLayout.patch
  cases found : layout.named? name with
  | none => simp [Overruns]
  | some m =>
    by_cases beyond : addressLimit ≤ base + m.offset
    · simp [Overruns, beyond]
    · simp [beyond, StructLayout.target]

theorem IndexLayout.overruns_patch_iff {layout : IndexLayout} {label : String} {size first : Nat}
    {list : List UInt32} :
    Overruns (layout.patch label size first list) ↔
      size < first * layout.format.size + list.length * layout.format.size := by
  simp only [IndexLayout.patch]
  split
  · rename_i beyond
    simp [Overruns, beyond]
  · rename_i within
    rw [overruns_map]
    simp [Overruns, Scalar.encodeAll_eq_error_iff, within]

namespace Image

theorem overruns_write_iff {image : Image} {w : Write} :
    Overruns (image.write w).1 ↔ Overruns (w.patch image.label image.size) := by
  rw [result_write, overruns_map]

@[simp] theorem size_writeAll (image : Image) (writes : List Write) :
    (image.writeAll writes).size = image.size := by
  induction writes generalizing image with
  | nil => rfl
  | cons w rest ih => exact (ih _).trans (image.size_write w)

end Image

end GpuBuffer
