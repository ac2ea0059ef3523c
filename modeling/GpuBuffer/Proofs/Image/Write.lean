import GpuBuffer.Image.Write
import GpuBuffer.Proofs.Encoding
import GpuBuffer.Proofs.Image.Patch

namespace GpuBuffer

/-- Values are stored when there are as many as components, all of them fit, and the image
reaches far enough. -/
theorem Target.patch_eq_ok_iff {target : Target} {label : String} {size : Nat} {values : Values} {p : Patch} :
    target.patch label size values = .ok p ↔
      values.length = target.shape.arity ∧ target.reach ≤ size ∧
        (∀ x ∈ values.numbers, target.shape.scalar.Fits x) ∧
        p = ⟨target.offset, target.shape.stored values.numbers⟩ := by
  unfold Target.patch
  by_cases count : values.length = target.shape.arity
  · by_cases bound : size < target.reach
    · simp [count, bound, Nat.not_le.mpr bound]
    · rw [if_neg (not_not.mpr count), if_neg bound]
      simp only [map_eq_ok_iff, Shape.encode_eq_ok_iff]
      constructor
      · intro accepted
        obtain ⟨bytes, ⟨fits, rfl⟩, rfl⟩ := accepted
        exact ⟨count, Nat.not_lt.mp bound, fits, rfl⟩
      · intro facts
        obtain ⟨_, _, fits, rfl⟩ := facts
        exact ⟨_, ⟨fits, rfl⟩, rfl⟩
  · simp [count]

def VertexLayout.target (layout : VertexLayout) (element : Nat) (a : PlacedAttribute) : Target :=
  ⟨a.name, layout.elementStart element + a.offset, a.format.shape⟩

theorem VertexLayout.patch_eq_ok_iff {layout : VertexLayout} {label : String} {size element : Nat}
    {key : AttributeKey} {values : Values} {p : Patch} :
    layout.patch label size element key values = .ok p ↔
      ∃ a, layout.find? key = some a ∧ element < layout.elements ∧
        (layout.target element a).patch label size values = .ok p := by
  unfold VertexLayout.patch VertexLayout.target
  cases found : layout.find? key with
  | none => simp
  | some a =>
    by_cases beyond : layout.elements ≤ element
    · simp [beyond, Nat.not_lt.mpr beyond]
    · simp [beyond, Nat.not_le.mp beyond]

def StructLayout.target (base : Nat) (m : PlacedMember) : Target :=
  ⟨m.name, base + m.offset, m.type.shape⟩

theorem StructLayout.patch_eq_ok_iff {layout : StructLayout} {label : String} {size base : Nat}
    {name : String} {values : Values} {p : Patch} :
    layout.patch label size base name values = .ok p ↔
      ∃ m, layout.named? name = some m ∧ base + m.offset < addressLimit ∧
        (StructLayout.target base m).patch label size values = .ok p := by
  unfold StructLayout.patch StructLayout.target
  cases found : layout.named? name with
  | none => simp
  | some m =>
    by_cases beyond : addressLimit ≤ base + m.offset
    · simp [beyond, Nat.not_lt.mpr beyond]
    · simp [beyond, Nat.not_le.mp beyond]

theorem IndexLayout.patch_eq_ok_iff {layout : IndexLayout} {label : String} {size first : Nat}
    {list : List UInt32} {p : Patch} :
    layout.patch label size first list = .ok p ↔
      first * layout.format.size + list.length * layout.format.size ≤ size ∧
        (∀ x ∈ (Values.unsigned list).numbers, layout.format.scalar.Fits x) ∧
        p = ⟨first * layout.format.size,
          (Values.unsigned list).numbers.flatMap layout.format.scalar.stored⟩ := by
  simp only [IndexLayout.patch]
  by_cases bound : size < first * layout.format.size + list.length * layout.format.size
  · simp [bound, Nat.not_le.mpr bound]
  · rw [if_neg bound]
    simp only [map_eq_ok_iff, Scalar.encodeAll_eq_ok_iff, List.flatMap_def]
    constructor
    · intro accepted
      obtain ⟨words, ⟨fits, rfl⟩, rfl⟩ := accepted
      exact ⟨Nat.not_lt.mp bound, fits, rfl⟩
    · intro facts
      obtain ⟨_, fits, rfl⟩ := facts
      exact ⟨_, ⟨fits, rfl⟩, rfl⟩

/-- What a write stores, apart from its place: the values of a typed field, or a run of indices. -/
inductive Payload
  | value (shape : Shape) (values : Values)
  | words (format : IndexFormat) (list : List UInt32)

namespace Payload

def size : Payload → Nat
  | .value shape _ => shape.size
  | .words format list => list.length * format.size

def bytes : Payload → List UInt8
  | .value shape values => shape.stored values.numbers
  | .words format list => (Values.unsigned list).numbers.flatMap format.scalar.stored

@[simp] theorem length_bytes (payload : Payload) : payload.bytes.length = payload.size := by
  cases payload with
  | value shape values => exact shape.length_stored _
  | words format list =>
    simp only [bytes, size, IndexFormat.size, List.length_flatMap, Scalar.length_stored, List.map_const',
      List.sum_replicate_nat, Values.length_numbers, Values.length]

end Payload

/-- Where a write goes and what it stores there, unless it names no field. -/
def Write.aim : Write → Option (Nat × Payload)
  | .vertex layout element key values =>
    (layout.find? key).map fun a => (layout.elementStart element + a.offset, .value a.format.shape values)
  | .member layout base name values =>
    (layout.named? name).map fun m => (base + m.offset, .value m.type.shape values)
  | .indices layout first list => some (first * layout.format.size, .words layout.format list)

/-- The patch of an accepted write is its payload at its aim, and lies inside the image. -/
theorem Write.patch_aim {w : Write} {label : String} {size : Nat} {p : Patch}
    (accepted : w.patch label size = .ok p) :
    ∃ payload, w.aim = some (p.offset, payload) ∧ p.bytes = payload.bytes ∧ p.reach ≤ size := by
  cases w with
  | vertex layout element key values =>
    obtain ⟨a, found, _, stored⟩ := VertexLayout.patch_eq_ok_iff.mp accepted
    obtain ⟨_, bound, _, rfl⟩ := Target.patch_eq_ok_iff.mp stored
    refine ⟨.value a.format.shape values, ?_, rfl, ?_⟩
    · simp only [Write.aim, found, Option.map_some, VertexLayout.target]
    · simpa only [Patch.reach, Shape.length_stored, Target.reach] using bound
  | member layout base name values =>
    obtain ⟨m, found, _, stored⟩ := StructLayout.patch_eq_ok_iff.mp accepted
    obtain ⟨_, bound, _, rfl⟩ := Target.patch_eq_ok_iff.mp stored
    refine ⟨.value m.type.shape values, ?_, rfl, ?_⟩
    · simp only [Write.aim, found, Option.map_some, StructLayout.target]
    · simpa only [Patch.reach, Shape.length_stored, Target.reach] using bound
  | indices layout first list =>
    obtain ⟨bound, _, rfl⟩ := IndexLayout.patch_eq_ok_iff.mp accepted
    refine ⟨.words layout.format list, rfl, rfl, ?_⟩
    have length := (Payload.words layout.format list).length_bytes
    simp only [Payload.bytes, Payload.size] at length
    simpa only [Patch.reach, length] using bound

end GpuBuffer
