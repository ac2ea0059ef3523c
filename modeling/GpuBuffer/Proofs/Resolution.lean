import GpuBuffer.Layout

namespace GpuBuffer

/-- No repeated name is found exactly where all names differ, also from those seen before. -/
theorem repeatedName?_eq_none_iff {seen names : List String} :
    repeatedName? seen names = none ↔ names.Nodup ∧ ∀ name ∈ names, name ∉ seen := by
  induction names generalizing seen with
  | nil => simp [repeatedName?]
  | cons name rest ih =>
    by_cases known : name ∈ seen
    · simp [repeatedName?, known]
    · simp only [repeatedName?, if_neg known, ih, List.nodup_cons, List.mem_cons, not_or]
      constructor
      · intro unrepeated
        obtain ⟨distinct, fresh⟩ := unrepeated
        refine ⟨⟨fun again => (fresh name again).1 rfl, distinct⟩, ?_⟩
        rintro other (rfl | member)
        · exact known
        · exact (fresh other member).2
      · intro facts
        obtain ⟨⟨unrepeated, distinct⟩, fresh⟩ := facts
        refine ⟨distinct, fun other member => ⟨?_, fresh other (Or.inr member)⟩⟩
        rintro rfl
        exact unrepeated member

namespace VertexSchema

theorem count_eq_ok_iff {schema : VertexSchema} {n : Nat} :
    schema.count = .ok n ↔ schema.elements = some n ∧ 0 < n := by
  unfold count
  split
  · rename_i unset
    simp [unset]
  · rename_i zero
    simp only [zero, reduceCtorEq, Option.some.injEq, false_iff, not_and]
    omega
  · rename_i m counted
    simp only [counted, Except.ok.injEq, Option.some.injEq]
    omega

structure ResolvesTo (schema : VertexSchema) (layout : VertexLayout) : Prop where
  labelled : schema.label ≠ ""
  declared : schema.attributes ≠ []
  counted : schema.elements = some layout.elements
  positive : 0 < layout.elements
  distinct : (schema.attributes.map (·.name)).Nodup
  stride : schema.stride = .ok layout.stride
  label : layout.label = schema.label
  stepMode : layout.stepMode = schema.stepMode
  attributes : layout.attributes = schema.placed

theorem layout_eq_ok_iff {schema : VertexSchema} {layout : VertexLayout} :
    schema.layout = .ok layout ↔ schema.ResolvesTo layout := by
  constructor
  · intro resolved
    unfold VertexSchema.layout at resolved
    split at resolved
    · cases resolved
    rename_i labelled
    split at resolved
    · cases resolved
    rename_i declared
    split at resolved
    · cases resolved
    rename_i n counted
    split at resolved
    · cases resolved
    rename_i unrepeated
    split at resolved
    · cases resolved
    rename_i stride rounded
    cases resolved
    obtain ⟨elements, positive⟩ := count_eq_ok_iff.mp counted
    exact ⟨labelled, declared, elements, positive, (repeatedName?_eq_none_iff.mp unrepeated).1,
      rounded, rfl, rfl, rfl⟩
  · intro resolves
    have counted := count_eq_ok_iff.mpr ⟨resolves.counted, resolves.positive⟩
    have unrepeated : repeatedName? [] (schema.attributes.map (·.name)) = none :=
      repeatedName?_eq_none_iff.mpr ⟨resolves.distinct, by simp⟩
    have stride := resolves.stride
    obtain ⟨label, stepMode, elements, width, attributes⟩ := layout
    cases resolves.label
    cases resolves.stepMode
    cases resolves.attributes
    simp only [VertexSchema.layout, if_neg resolves.labelled, if_neg resolves.declared, counted, unrepeated,
      stride]
    rfl

end VertexSchema

namespace StructSchema

structure ResolvesTo (schema : StructSchema) (layout : StructLayout) : Prop where
  labelled : schema.label ≠ ""
  declared : schema.members ≠ []
  distinct : (schema.members.map (·.name)).Nodup
  label : layout.label = schema.label
  binding : layout.binding = schema.binding
  members : layout.members = schema.placed
  size : layout.size = schema.size
  alignment : layout.alignment = schema.alignment

theorem layout_eq_ok_iff {schema : StructSchema} {layout : StructLayout} :
    schema.layout = .ok layout ↔ schema.ResolvesTo layout := by
  constructor
  · intro resolved
    unfold StructSchema.layout at resolved
    split at resolved
    · cases resolved
    rename_i labelled
    split at resolved
    · cases resolved
    rename_i declared
    split at resolved
    · cases resolved
    rename_i unrepeated
    cases resolved
    exact ⟨labelled, declared, (repeatedName?_eq_none_iff.mp unrepeated).1, rfl, rfl, rfl, rfl, rfl⟩
  · intro resolves
    have unrepeated : repeatedName? [] (schema.members.map (·.name)) = none :=
      repeatedName?_eq_none_iff.mpr ⟨resolves.distinct, by simp⟩
    obtain ⟨label, binding, members, size, alignment⟩ := layout
    cases resolves.label
    cases resolves.binding
    cases resolves.members
    cases resolves.size
    cases resolves.alignment
    simp only [StructSchema.layout, if_neg resolves.labelled, if_neg resolves.declared, unrepeated]
    rfl

end StructSchema

namespace IndexSchema

structure ResolvesTo (schema : IndexSchema) (layout : IndexLayout) : Prop where
  labelled : schema.label ≠ ""
  positive : 0 < layout.count
  label : layout.label = schema.label
  count : layout.count = schema.count
  format : layout.format = schema.format

theorem layout_eq_ok_iff {schema : IndexSchema} {layout : IndexLayout} :
    schema.layout = .ok layout ↔ schema.ResolvesTo layout := by
  constructor
  · intro resolved
    unfold IndexSchema.layout at resolved
    split at resolved
    · cases resolved
    rename_i labelled
    split at resolved
    · cases resolved
    rename_i counted
    cases resolved
    exact ⟨labelled, Nat.pos_of_ne_zero counted, rfl, rfl, rfl⟩
  · intro resolves
    have counted : schema.count ≠ 0 := by rw [← resolves.count]; exact Nat.ne_of_gt resolves.positive
    obtain ⟨label, count, format⟩ := layout
    cases resolves.label
    cases resolves.count
    cases resolves.format
    simp only [IndexSchema.layout, if_neg resolves.labelled, if_neg counted]

end IndexSchema

@[simp] theorem Outcome.result_ofResult {α : Type} (events : α → List Event) (result : Except BufferError α) :
    (Outcome.ofResult events result).result = result := by
  cases result <;> rfl

end GpuBuffer
