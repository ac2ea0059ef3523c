import GpuBuffer.Proofs.Resolution.Defect

namespace GpuBuffer

namespace Outcome

/-- What was reported before a failure stays reported. -/
instance : Monad Outcome where
  pure value := ⟨[], .ok value⟩
  bind first next := match first.result with
    | .ok value => ⟨first.events ++ (next value).events, (next value).result⟩
    | .error error => ⟨first.events, .error error⟩

def report (event : Event) : Outcome Unit :=
  ⟨[event], .ok ()⟩

/-- A step that reports nothing. -/
def silent {α : Type} (result : Except BufferError α) : Outcome α :=
  ⟨[], result⟩

def require (holds : Prop) [Decidable holds] (error : BufferError) : Outcome Unit :=
  silent (if holds then .ok () else .error error)

def present {α : Type} (value : Option α) (error : BufferError) : Outcome α :=
  silent (match value with
    | some value => .ok value
    | none => .error error)

/-- Refuses the first name that was seen before, going through the names one by one. -/
def requireDistinct (label : String) (seen : List String) : List String → Outcome Unit
  | [] => pure ()
  | name :: rest => do
    require (name ∉ seen) (.duplicateField label name)
    requireDistinct label (name :: seen) rest

variable {α β : Type}

@[simp] theorem silent_ok_bind (value : α) (next : α → Outcome β) : silent (.ok value) >>= next = next value := rfl

theorem require_of {holds : Prop} [Decidable holds] (error : BufferError) (proof : holds) :
    require holds error = silent (.ok ()) := by
  rw [require, if_pos proof]

theorem require_of_not {holds : Prop} [Decidable holds] (error : BufferError) (fails : ¬ holds) :
    require holds error = silent (.error error) := by
  rw [require, if_neg fails]

theorem requireDistinct_eq (label : String) (seen names : List String) :
    requireDistinct label seen names = silent (match repeatedName? seen names with
      | some name => .error (.duplicateField label name)
      | none => .ok ()) := by
  induction names generalizing seen with
  | nil => rfl
  | cons name rest ih =>
    by_cases known : name ∈ seen
    · rw [requireDistinct, require_of_not _ (not_not.mpr known), repeatedName?, if_pos known]
      rfl
    · rw [requireDistinct, require_of _ known, repeatedName?, if_neg known, silent_ok_bind, ih]

theorem forM_report (event : α → Event) (values : List α) :
    (forM values fun value => report (event value)) = ⟨values.map event, .ok ()⟩ := by
  induction values with
  | nil => rfl
  | cons value rest ih =>
    rw [List.forM_cons, ih]
    rfl

end Outcome

open Outcome

namespace VertexSchema

/-- Rounds the stride, and warns where that changes it. -/
def roundStride (schema : VertexSchema) (extent : Nat) : Outcome Nat :=
  if extent % 4 = 0 then pure extent
  else match schema.rounding with
    | .pad => do
      report (.stridePadded schema.label extent (roundUp extent 4))
      return roundUp extent 4
    | .refuse => silent (.error (.unalignedStride schema.label extent))

/-- Resolves a stream check by check, reporting on the way. -/
def walk (schema : VertexSchema) : Outcome VertexLayout := do
  require (schema.label ≠ "") (.incomplete schema.label .label)
  let last ← present schema.placed.getLast? (.incomplete schema.label .fields)
  let count ← silent schema.count
  requireDistinct schema.label [] (schema.attributes.map (·.name))
  let stride ← schema.roundStride last.reach
  forM schema.placed fun a => report (.attributePlaced schema.label a.slot a.name a.format a.offset)
  report (.vertexResolved schema.label schema.placed.length stride count)
  return ⟨schema.label, schema.stepMode, count, stride, schema.placed⟩

theorem getLast?_placed_eq_none_iff {schema : VertexSchema} :
    schema.placed.getLast? = none ↔ schema.attributes = [] := by
  rw [List.getLast?_eq_none_iff, ← List.map_eq_nil_iff, placed, placeAttributes_attributes]

theorem reach_eq_extent {schema : VertexSchema} {last : PlacedAttribute}
    (atEnd : schema.placed.getLast? = some last) : last.reach = schema.extent := by
  have reach := reach_getLast schema.attributes
  rw [← placed, atEnd] at reach
  exact reach

theorem roundStride_eq (schema : VertexSchema) : schema.roundStride schema.extent =
    ⟨match schema.stride with
      | .ok stride => if schema.extent % 4 = 0 then [] else [.stridePadded schema.label schema.extent stride]
      | .error _ => [], schema.stride⟩ := by
  unfold roundStride stride
  by_cases aligned : schema.extent % 4 = 0
  · simp only [if_pos aligned]
    rfl
  · simp only [if_neg aligned]
    cases schema.rounding <;> rfl

theorem walk_eq_resolve (schema : VertexSchema) : schema.walk = schema.resolve := by
  unfold walk resolve layout
  by_cases blank : schema.label = ""
  · rw [require_of_not _ (not_not.mpr blank), if_pos blank]
    rfl
  rw [require_of _ blank, if_neg blank, silent_ok_bind]
  cases atEnd : schema.placed.getLast? with
  | none =>
    rw [if_pos (getLast?_placed_eq_none_iff.mp atEnd)]
    rfl
  | some last =>
    have declared : schema.attributes ≠ [] := fun empty => by
      cases (getLast?_placed_eq_none_iff.mpr empty).symm.trans atEnd
    rw [if_neg declared]
    simp only [present, silent_ok_bind]
    cases counted : schema.count with
    | error e => rfl
    | ok count =>
      rw [silent_ok_bind, requireDistinct_eq]
      cases repeats : repeatedName? [] (schema.attributes.map (·.name)) with
      | some name => rfl
      | none =>
        simp only [silent_ok_bind, reach_eq_extent atEnd, roundStride_eq, forM_report]
        cases rounded : schema.stride with
        | error e => rfl
        | ok stride =>
          simp only [Outcome.ofResult, events, List.append_assoc]
          rfl

end VertexSchema

/-- Where placing members has come to: the byte behind the last one, the largest alignment, and those
placed. -/
@[ext] structure Placing where
  cursor : Nat := 0
  alignment : Nat := 4
  placed : List PlacedMember := []

namespace Placing

def next (state : Placing) (m : Member) : Placing :=
  let offset := roundUp state.cursor m.type.alignment
  ⟨offset + m.type.size, max state.alignment m.type.alignment, state.placed ++ [⟨m, offset⟩]⟩

theorem cursor_next (state : Placing) (m : Member) :
    (state.next m).cursor = roundUp state.cursor m.type.alignment + m.type.size := rfl

/-- Places one more member, and reports its offset. -/
def step (label : String) (state : Placing) (m : Member) : Outcome Placing := do
  report (.memberPlaced label m.name m.type (roundUp state.cursor m.type.alignment))
  return state.next m

theorem step_bind {α : Type} (label : String) (state : Placing) (m : Member) (following : Placing → Outcome α) :
    step label state m >>= following =
      ⟨.memberPlaced label m.name m.type (roundUp state.cursor m.type.alignment) :: (following (state.next m)).events,
        (following (state.next m)).result⟩ := rfl

theorem placed_foldl_next (state : Placing) (members : List Member) :
    (members.foldl next state).placed = state.placed ++ placeMembers state.cursor members := by
  induction members generalizing state with
  | nil => exact (List.append_nil _).symm
  | cons m rest ih =>
    rw [List.foldl_cons, ih, placeMembers, next, List.append_assoc]
    rfl

theorem alignment_foldl_next (state : Placing) (members : List Member) :
    (members.foldl next state).alignment =
      members.foldl (fun alignment m => max alignment m.type.alignment) state.alignment := by
  induction members generalizing state with
  | nil => rfl
  | cons m rest ih => exact ih (state.next m)

theorem cursor_foldl_next (state : Placing) (members : List Member) :
    (members.foldl next state).cursor =
      ((placeMembers state.cursor members).getLast?.map (·.reach)).getD state.cursor := by
  induction members generalizing state with
  | nil => rfl
  | cons m rest ih =>
    rw [List.foldl_cons, ih, placeMembers, List.getLast?_cons, cursor_next]
    cases (placeMembers (roundUp state.cursor m.type.alignment + m.type.size) rest).getLast? <;> rfl

/-- All members are placed and reported in order. -/
theorem foldlM_step (label : String) (state : Placing) (members : List Member) :
    members.foldlM (step label) state =
      ⟨(placeMembers state.cursor members).map fun m => .memberPlaced label m.name m.type m.offset,
        .ok (members.foldl next state)⟩ := by
  induction members generalizing state with
  | nil => rfl
  | cons m rest ih =>
    rw [List.foldlM_cons, step_bind, ih]
    rfl

end Placing

namespace StructSchema

/-- Resolves a struct check by check, reporting on the way. -/
def walk (schema : StructSchema) : Outcome StructLayout := do
  require (schema.label ≠ "") (.incomplete schema.label .label)
  require (schema.members ≠ []) (.incomplete schema.label .fields)
  requireDistinct schema.label [] (schema.members.map (·.name))
  let ⟨cursor, alignment, placed⟩ ← schema.members.foldlM (Placing.step schema.label) {}
  report (.structResolved schema.label schema.binding placed.length (roundUp cursor alignment) alignment)
  return ⟨schema.label, schema.binding, placed, roundUp cursor alignment, alignment⟩

theorem foldl_next_members (schema : StructSchema) :
    schema.members.foldl Placing.next {} = ⟨schema.extent, schema.alignment, schema.placed⟩ := by
  apply Placing.ext
  · rw [Placing.cursor_foldl_next, extent, placed]
    cases (placeMembers 0 schema.members).getLast? <;> rfl
  · exact Placing.alignment_foldl_next {} schema.members
  · exact Placing.placed_foldl_next {} schema.members

theorem walk_eq_resolve (schema : StructSchema) : schema.walk = schema.resolve := by
  unfold walk resolve layout
  by_cases blank : schema.label = ""
  · rw [require_of_not _ (not_not.mpr blank), if_pos blank]
    rfl
  by_cases empty : schema.members = []
  · rw [require_of _ blank, if_neg blank, require_of_not _ (not_not.mpr empty), if_pos empty]
    rfl
  rw [require_of _ blank, if_neg blank, require_of _ empty, if_neg empty, requireDistinct_eq]
  cases repeats : repeatedName? [] (schema.members.map (·.name)) with
  | some name => rfl
  | none =>
    simp only [silent_ok_bind, Placing.foldlM_step, foldl_next_members]
    rfl

end StructSchema

namespace IndexSchema

/-- Resolves an index list check by check, reporting on the way. -/
def walk (schema : IndexSchema) : Outcome IndexLayout := do
  require (schema.label ≠ "") (.incomplete schema.label .label)
  require (schema.count ≠ 0) (.incomplete schema.label .anyIndex)
  report (.indexResolved schema.label schema.count schema.format)
  return ⟨schema.label, schema.count, schema.format⟩

theorem walk_eq_resolve (schema : IndexSchema) : schema.walk = schema.resolve := by
  unfold walk resolve layout
  by_cases blank : schema.label = ""
  · rw [require_of_not _ (not_not.mpr blank), if_pos blank]
    rfl
  by_cases zero : schema.count = 0
  · rw [require_of _ blank, if_neg blank, require_of_not _ (not_not.mpr zero), if_pos zero]
    rfl
  · rw [require_of _ blank, if_neg blank, require_of _ zero, if_neg zero]
    rfl

end IndexSchema

end GpuBuffer
