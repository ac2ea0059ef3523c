import GpuBuffer.Device.Pipeline
import GpuBuffer.Proofs.Capacity

namespace GpuBuffer

/-- Pieces, each given by its offset and its length, that follow one another from `start` to `stop`
with no gap and no overlap. -/
inductive Tiles : Nat → Nat → List (Nat × Nat) → Prop
  | done (stop : Nat) : Tiles stop stop []
  | piece {start length stop : Nat} {rest : List (Nat × Nat)} (later : Tiles (start + length) stop rest) :
      Tiles start stop ((start, length) :: rest)

theorem placeAttributes_tiles (start : Nat) (attributes : List Attribute) :
    Tiles start (start + (attributes.map (·.format.size)).sum)
      ((placeAttributes start attributes).map fun a => (a.offset, a.size)) := by
  induction attributes generalizing start with
  | nil => exact .done start
  | cons first rest ih =>
    have later := ih (start + first.format.size)
    rw [Nat.add_assoc] at later
    exact .piece later

namespace Image

/-- The later image is the earlier one with these bytes written from `start` on, and no others. -/
structure Written (before after : Image) (start : Nat) (bytes : List UInt8) : Prop where
  within : start + bytes.length ≤ before.size
  found : after.read start bytes.length = bytes
  kept : ∀ p, p < start ∨ start + bytes.length ≤ p → after.bytes[p]? = before.bytes[p]?

theorem written_patch {image : Image} {p : Patch} (fits : p.reach ≤ image.size) :
    image.Written (image.patch p) p.offset p.bytes :=
  ⟨fits, image.read_patch fits, fun _ outside => image.getElem?_patch_outside outside⟩

end Image

namespace PipelineFormat

/-- A conversion keeps the format: its name, and so its size. -/
@[simp] theorem name_ofVertexFormat (format : VertexFormat) :
    (ofVertexFormat format).name = Tagged.name format := by
  cases format <;> rfl

@[simp] theorem size_ofVertexFormat (format : VertexFormat) : (ofVertexFormat format).size = format.size := by
  cases format <;> rfl

end PipelineFormat

namespace PipelineStepMode

@[simp] theorem name_ofStepMode (mode : StepMode) : (ofStepMode mode).name = mode.name := by
  cases mode <;> rfl

/-- Every step mode of a pipeline stands for exactly one step mode of a stream. -/
theorem ofStepMode_bijective : Function.Bijective ofStepMode := by
  constructor
  · intro m n same
    cases m <;> cases n <;> first | rfl | cases same
  · intro converted
    cases converted with
    | eachVertex => exact ⟨.perVertex, rfl⟩
    | eachInstance => exact ⟨.perInstance, rfl⟩

end PipelineStepMode

namespace PipelineIndexFormat

@[simp] theorem name_ofIndexFormat (format : IndexFormat) : (ofIndexFormat format).name = Tagged.name format := by
  cases format <;> rfl

@[simp] theorem size_ofIndexFormat (format : IndexFormat) : (ofIndexFormat format).size = format.size := by
  cases format <;> rfl

end PipelineIndexFormat

namespace VertexLayout
variable {layout : VertexLayout} {image : Image} {element : Nat} {key : AttributeKey} {values : Values}
  {a : PlacedAttribute}

theorem written_of_write (found : layout.find? key = some a)
    (accepted : (image.write (.vertex layout element key values)).1 = .ok ()) :
    image.Written (image.write (.vertex layout element key values)).2 (layout.elementStart element + a.offset)
      (a.format.shape.stored values.numbers) := by
  obtain ⟨p, patched⟩ := Image.write_eq_ok_iff.mp accepted
  obtain ⟨other, same, _, stored⟩ := patch_eq_ok_iff.mp patched
  cases found.symm.trans same
  obtain ⟨_, bound, _, rfl⟩ := Target.patch_eq_ok_iff.mp stored
  rw [Image.write_of_patch patched]
  exact Image.written_patch (by simpa only [Patch.reach, Shape.length_stored, Target.reach] using bound)

theorem suits_iff (found : layout.find? key = some a) :
    (Write.vertex layout element key values).Suits ↔
      values.length = a.format.shape.arity ∧ ∀ x ∈ values.numbers, a.format.shape.scalar.Fits x := by
  simp only [Write.Suits, found, Option.some.injEq, exists_eq_left']

theorem pipelineLayout_attributes (layout : VertexLayout) :
    layout.binding.pipelineLayout.attributes =
      layout.attributes.map fun a => ⟨.ofVertexFormat a.format, a.offset, a.slot⟩ := by
  simp only [binding, VertexBinding.pipelineLayout, List.map_map, Function.comp_def]

theorem pipelineLayout_stepMode (layout : VertexLayout) :
    layout.binding.pipelineLayout.stepMode.name = layout.stepMode.name :=
  PipelineStepMode.name_ofStepMode layout.stepMode

theorem pipelineLayout_declared {schema : VertexSchema} (resolves : schema.ResolvesTo layout) :
    layout.binding.pipelineLayout.attributes.map (fun b => (b.location, b.format.name)) =
      schema.attributes.map fun a => (a.slot, Tagged.name a.format) := by
  have declared := placeAttributes_attributes 0 schema.attributes
  conv_rhs => rw [← declared]
  rw [layout.pipelineLayout_attributes, resolves.attributes, List.map_map, List.map_map]
  simp only [Function.comp_def, PipelineFormat.name_ofVertexFormat, VertexSchema.placed]

theorem pipelineLayout_tiles {schema : VertexSchema} (resolves : schema.ResolvesTo layout) :
    Tiles 0 schema.extent (layout.binding.pipelineLayout.attributes.map fun b => (b.offset, b.format.size)) := by
  have tiles := placeAttributes_tiles 0 schema.attributes
  rw [Nat.zero_add] at tiles
  rw [layout.pipelineLayout_attributes, resolves.attributes, List.map_map]
  simp only [Function.comp_def, PipelineFormat.size_ofVertexFormat]
  exact tiles

/-- A pipeline fetches the bytes that are written. Its step mode and its formats are the declared ones, by
name. The attributes it is given tile the extent of an element, and what it fetches for one of them is, in
every element and to the byte, what a write to the attribute at that place of the declaration stores. How
much it fetches for a format is documented only. -/
theorem pipeline_fetches_what_is_written {fetched : PipelineFormat → Nat}
    (documented : ∀ format, fetched format = format.size) {schema : VertexSchema} {layout : VertexLayout}
    (resolved : schema.layout = .ok layout) :
    let pipeline := layout.binding.pipelineLayout
    pipeline.arrayStride = layout.stride ∧ 4 ∣ pipeline.arrayStride ∧
      (pipeline.stepMode.name = layout.stepMode.name ∧ pipeline.stepMode.name = schema.stepMode.name) ∧
      pipeline.attributes.map (fun b => (b.location, b.format.name)) =
        schema.attributes.map (fun a => (a.slot, Tagged.name a.format)) ∧
      Tiles 0 schema.extent (pipeline.attributes.map fun b => (b.offset, fetched b.format)) ∧
      schema.extent ≤ pipeline.arrayStride ∧ pipeline.arrayStride < schema.extent + 4 ∧
      ∀ (i : Nat) (a : PlacedAttribute) (b : PipelineAttribute),
        layout.attributes[i]? = some a → pipeline.attributes[i]? = some b →
        layout.find? (.name a.name) = some a ∧
          ∀ key, layout.find? key = some a → ∀ element < layout.elements, ∀ values,
            (a.format.shape.stored values.numbers).length = fetched b.format ∧
              ∀ image : Image, image.size = layout.size →
                let w := Write.vertex layout element key values
                ((image.write w).1 = .ok () ↔ values.length = a.format.shape.arity ∧
                  ∀ x ∈ values.numbers, a.format.shape.scalar.Fits x) ∧
                ((image.write w).1 = .ok () →
                  image.Written (image.write w).2 (element * pipeline.arrayStride + b.offset)
                    (a.format.shape.stored values.numbers)) := by
  intro pipeline
  have resolves := VertexSchema.layout_eq_ok_iff.mp resolved
  have stride : pipeline.arrayStride = roundUp schema.extent 4 := VertexSchema.stride_eq_roundUp resolves.stride
  have tiles := pipelineLayout_tiles resolves
  have mode := layout.pipelineLayout_stepMode
  have declaredMode := mode.trans (congrArg StepMode.name resolves.stepMode)
  refine ⟨rfl, stride ▸ dvd_roundUp _ 4, ⟨mode, declaredMode⟩, pipelineLayout_declared resolves,
    by simpa only [documented] using tiles, stride ▸ le_roundUp _ (by decide),
    stride ▸ roundUp_lt _ (by decide), ?_⟩
  intro i a b declared placed
  have member := List.mem_of_getElem? declared
  rw [layout.pipelineLayout_attributes, List.getElem?_map, declared] at placed
  cases placed
  refine ⟨resolves.find?_name member, fun key found element inside values => ⟨?_, fun image size => ?_⟩⟩
  · rw [Shape.length_stored, documented, PipelineFormat.size_ofVertexFormat, VertexFormat.size]
  · have within : ¬ (Write.vertex layout element key values).Beyond :=
      fun beyond => Nat.not_le.mpr inside beyond.2
    have accepted := (write_eq_ok_iff resolves size).trans ((and_iff_left within).trans (suits_iff found))
    exact ⟨accepted, written_of_write found⟩

/-- The last attribute of the last element of a padded stream of instances. -/
theorem pipeline_fetches_what_is_written_of_padded_stream :
    let id : PlacedAttribute := ⟨⟨0, "id", .uint32⟩, 0⟩
    let flags : PlacedAttribute := ⟨⟨3, "flags", .unorm8x2⟩, 4⟩
    let schema : VertexSchema :=
      { label := "v", elements := some 2, stepMode := .perInstance,
        attributes := [id.toAttribute, flags.toAttribute] }
    let layout : VertexLayout := ⟨"v", .perInstance, 2, 8, [id, flags]⟩
    let write : Write := .vertex layout 1 (.slot 3) (.unsigned [1, 0])
    let image := Image.zeroed layout.request
    schema.layout = .ok layout ∧ layout.binding.pipelineLayout.stepMode.name = "Instance" ∧
      Tiles 0 6 [(0, 4), (4, 2)] ∧
      layout.binding.pipelineLayout.attributes[1]? = some ⟨.unorm8x2, 4, 3⟩ ∧
      (image.write write).1 = .ok () ∧ image.Written (image.write write).2 12 [255, 0] := by
  intro id flags schema layout write image
  have resolved : schema.layout = .ok layout := by decide
  have placed : layout.binding.pipelineLayout.attributes[1]? = some ⟨.unorm8x2, 4, 3⟩ := by decide
  obtain ⟨_, _, ⟨_, mode⟩, _, tiles, _, _, fields⟩ :=
    pipeline_fetches_what_is_written (fun format : PipelineFormat => Eq.refl format.size) resolved
  obtain ⟨_, reached⟩ := fields 1 flags _ rfl placed
  obtain ⟨_, stores⟩ := reached (.slot 3) (by decide) 1 (by decide) (.unsigned [1, 0])
  obtain ⟨accepted, written⟩ := stores image (Image.size_zeroed _)
  have fits := accepted.mpr (by decide +kernel)
  exact ⟨resolved, mode, tiles, placed, fits, written fits⟩

end VertexLayout

end GpuBuffer
