import GpuBuffer.Proofs.Layout
import GpuBuffer.Proofs.Resolution.Walk

namespace GpuBuffer

theorem Outcome.events_of_refused {α : Type} {events : α → List Event} {result : Except BufferError α}
    {error : BufferError} (refused : (Outcome.ofResult events result).result = .error error) :
    (Outcome.ofResult events result).events = [] := by
  cases result with
  | error _ => rfl
  | ok _ => cases refused

namespace VertexSchema

theorem stride_eq_extent_iff {schema : VertexSchema} {stride : Nat} (rounded : schema.stride = .ok stride) :
    stride = schema.extent ↔ schema.extent % 4 = 0 := by
  rw [stride_eq_roundUp rounded]
  constructor
  · intro kept
    exact Nat.mod_eq_zero_of_dvd (kept ▸ dvd_roundUp schema.extent 4)
  · intro aligned
    exact roundUp_of_dvd (by decide) (Nat.dvd_of_mod_eq_zero aligned)

/-- The reports on the attributes, in their order and where they lie, and on the stream as a whole. -/
def reports (schema : VertexSchema) (layout : VertexLayout) : List Event :=
  layout.attributes.map (fun a => .attributePlaced schema.label a.slot a.name a.format a.offset) ++
    [.vertexResolved schema.label schema.attributes.length layout.stride layout.elements]

theorem ResolvesTo.events_eq {schema : VertexSchema} {layout : VertexLayout} (resolves : schema.ResolvesTo layout) :
    schema.events layout =
      (if layout.stride = schema.extent then [] else [.stridePadded schema.label schema.extent layout.stride]) ++
        schema.reports layout := by
  have length : layout.attributes.length = schema.attributes.length := by
    rw [← resolves.declared_attributes, List.length_map]
  simp only [events, reports, length, stride_eq_extent_iff resolves.stride, List.append_assoc]

theorem levels_reports {schema : VertexSchema} {layout : VertexLayout}
    (declared : layout.attributes.map (·.toAttribute) = schema.attributes) :
    (schema.reports layout).map (·.level) = List.replicate schema.attributes.length .trace ++ [.debug] := by
  have length : layout.attributes.length = schema.attributes.length := by rw [← declared, List.length_map]
  simp [reports, Event.level, Function.comp_def, List.map_const', length]

end VertexSchema

namespace StructSchema

/-- The reports on the members, in their order and where they lie, and on the struct as a whole. -/
def reports (schema : StructSchema) (layout : StructLayout) : List Event :=
  layout.members.map (fun m => .memberPlaced schema.label m.name m.type m.offset) ++
    [.structResolved schema.label schema.binding schema.members.length layout.size layout.alignment]

theorem ResolvesTo.events_eq {schema : StructSchema} {layout : StructLayout} (resolves : schema.ResolvesTo layout) :
    events layout = schema.reports layout := by
  have length : layout.members.length = schema.members.length := by
    rw [← resolves.declared_members, List.length_map]
  simp only [events, reports, length, resolves.label, resolves.binding]

theorem levels_reports {schema : StructSchema} {layout : StructLayout}
    (declared : layout.members.map (·.toMember) = schema.members) :
    (schema.reports layout).map (·.level) = List.replicate schema.members.length .trace ++ [.debug] := by
  have length : layout.members.length = schema.members.length := by rw [← declared, List.length_map]
  simp [reports, Event.level, Function.comp_def, List.map_const', length]

end StructSchema

namespace Schema

/-- What is reported of a declaration that resolves to a layout. -/
inductive Reported : Schema → Layout → List Event → Prop
  | vertex {schema : VertexSchema} {layout : VertexLayout}
      (declared : layout.attributes.map (·.toAttribute) = schema.attributes)
      (kept : layout.stride = schema.extent) :
      Reported (.vertex schema) (.vertex layout) (schema.reports layout)
  | padded {schema : VertexSchema} {layout : VertexLayout}
      (declared : layout.attributes.map (·.toAttribute) = schema.attributes)
      (padded : layout.stride ≠ schema.extent) :
      Reported (.vertex schema) (.vertex layout)
        (.stridePadded schema.label schema.extent layout.stride :: schema.reports layout)
  | struct {schema : StructSchema} {layout : StructLayout}
      (declared : layout.members.map (·.toMember) = schema.members) :
      Reported (.struct schema) (.struct layout) (schema.reports layout)
  | index {schema : IndexSchema} {layout : IndexLayout} :
      Reported (.index schema) (.index layout) [.indexResolved schema.label schema.count schema.format]

/-- How many fields are declared. -/
def fieldCount : Schema → Nat
  | .vertex schema => schema.attributes.length
  | .struct schema => schema.members.length
  | .index _ => 0

/-- Whether the layout is that of a stream whose stride had to be padded. -/
def paddedIn : Schema → Layout → Bool
  | .vertex schema, .vertex layout => layout.stride != schema.extent
  | _, _ => false

theorem Reported.levels {schema : Schema} {layout : Layout} {events : List Event}
    (reported : Reported schema layout events) :
    events.map (·.level) =
      (if schema.paddedIn layout then [.warn] else []) ++ List.replicate schema.fieldCount .trace ++ [.debug] := by
  cases reported with
  | vertex declared kept =>
    simp only [paddedIn, kept, bne_self_eq_false, VertexSchema.levels_reports declared, fieldCount]
    rfl
  | padded declared padded =>
    simp only [paddedIn, bne_iff_ne.mpr padded, List.map_cons, VertexSchema.levels_reports declared, fieldCount]
    rfl
  | struct declared => exact StructSchema.levels_reports declared
  | index => rfl

theorem reported_resolve {schema : Schema} {layout : Layout} (resolved : schema.resolve.result = .ok layout) :
    schema.Reported layout schema.resolve.events := by
  cases resolvesTo_of_resolve resolved with
  | @vertex schema layout own =>
    rw [resolve, Outcome.map, VertexSchema.resolve, VertexSchema.layout_eq_ok_iff.mpr own, Outcome.ofResult,
      own.events_eq]
    by_cases kept : layout.stride = schema.extent
    · rw [if_pos kept]
      exact .vertex own.declared_attributes kept
    · rw [if_neg kept]
      exact .padded own.declared_attributes kept
  | struct own =>
    rw [resolve, Outcome.map, StructSchema.resolve, StructSchema.layout_eq_ok_iff.mpr own, Outcome.ofResult,
      own.events_eq]
    exact .struct own.declared_members
  | index own =>
    rw [resolve, Outcome.map, IndexSchema.resolve, IndexSchema.layout_eq_ok_iff.mpr own, Outcome.ofResult, own.label,
      own.count, own.format]
    exact .index

theorem events_of_refused {schema : Schema} {error : BufferError} (refused : schema.resolve.result = .error error) :
    schema.resolve.events = [] := by
  cases schema <;> exact Outcome.events_of_refused (map_eq_error_iff.mp refused)

/-- Resolves a declaration of any kind check by check, reporting on the way. -/
def walk : Schema → Outcome Layout
  | .vertex schema => schema.walk.map .vertex
  | .struct schema => schema.walk.map .struct
  | .index schema => schema.walk.map .index

theorem walk_eq_resolve (schema : Schema) : schema.walk = schema.resolve := by
  cases schema with
  | vertex schema => rw [walk, schema.walk_eq_resolve, resolve]
  | struct schema => rw [walk, schema.walk_eq_resolve, resolve]
  | index schema => rw [walk, schema.walk_eq_resolve, resolve]

/-- A declaration resolves exactly if nothing is wrong with it, and fails with the first thing that is wrong.
Going through the checks one by one and reporting on the way comes to the same: a failure has reported
nothing, whatever was checked before it, and a success has reported a padded stride, then the fields in their
order, each where it lies, then the whole. -/
theorem resolve_reports_first_defect (schema : Schema) :
    schema.walk = schema.resolve ∧
      (∀ error, schema.resolve.result = .error error ↔
        ∃ defect, Defect.First schema.Has defect ∧ defect.Reports schema.label error) ∧
      ((∃ layout, schema.resolve.result = .ok layout) ↔ ∀ defect, ¬ schema.Has defect) ∧
      (∀ error, schema.resolve.result = .error error → schema.resolve.events = []) ∧
      ∀ layout, schema.resolve.result = .ok layout →
        schema.Reported layout schema.resolve.events ∧
          schema.resolve.events.map (·.level) =
            (if schema.paddedIn layout then [.warn] else []) ++ List.replicate schema.fieldCount .trace ++
              [.debug] := by
  obtain ⟨failures, successes⟩ := schema.reportsFirst_resolve
  refine ⟨schema.walk_eq_resolve, failures, successes, fun _ => events_of_refused, fun layout resolved => ?_⟩
  have reported := reported_resolve resolved
  exact ⟨reported, reported.levels⟩

/-- Two names repeat and the stride is refused: the name that repeats first is reported, and nothing else. Without
the repeating fields and with a padded stride, the warning comes before the fields. -/
theorem resolve_reports_first_defect_of_repeated_names :
    let fields : List Attribute := [⟨0, "id", .uint8x2⟩, ⟨1, "normal", .float32x3⟩, ⟨2, "uv", .float32x2⟩]
    let repeating : VertexSchema :=
      { label := "v", elements := some 4, rounding := .refuse,
        attributes := fields ++ [⟨3, "normal", .float32⟩, ⟨4, "id", .float32⟩] }
    let padding : VertexSchema := { label := "v", elements := some 4, attributes := fields }
    Defect.First repeating.Has (.repeated "normal") ∧ repeating.Has (.unaligned 30) ∧
      (Schema.vertex repeating).walk = ⟨[], .error (.duplicateField "v" "normal")⟩ ∧
      (Schema.vertex padding).walk.events.map (·.level) = [.warn, .trace, .trace, .trace, .debug] := by
  intro fields repeating padding
  obtain ⟨walks, failures, -, silent, -⟩ := resolve_reports_first_defect (.vertex repeating)
  have failed : (Schema.vertex repeating).resolve.result = .error (.duplicateField "v" "normal") := by decide
  obtain ⟨defect, first, reports⟩ := (failures _).mp failed
  cases reports
  obtain ⟨walksOn, -, -, -, reported⟩ := resolve_reports_first_defect (.vertex padding)
  have resolved : (Schema.vertex padding).resolve.result =
      .ok (.vertex ⟨"v", .perVertex, 4, 24, padding.placed⟩) := by decide
  refine ⟨first, .unaligned rfl (by decide), ?_, ?_⟩
  · rw [walks, ← silent _ failed, ← failed]
  · rw [walksOn, (reported _ resolved).2]
    rfl

end Schema

end GpuBuffer
