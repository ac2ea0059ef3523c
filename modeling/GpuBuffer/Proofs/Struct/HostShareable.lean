import GpuBuffer.Proofs.Alignment
import GpuBuffer.Proofs.Placement
import Mathlib.Algebra.Order.Floor.Div

namespace GpuBuffer

namespace HostShareable

/-- The least multiple of `unit` from `n` on. -/
def multipleFrom (unit n : Nat) : Nat :=
  n ⌈/⌉ unit * unit

def vectorAlignment (length : Nat) : Nat :=
  if length = 2 then 8 else 16

def vectorSize (length : Nat) : Nat :=
  4 * length

/-- A matrix is an array of its columns, each a vector that starts at a multiple of its alignment. -/
def matrixSize (columns rows : Nat) : Nat :=
  columns * multipleFrom (vectorAlignment rows) (vectorSize rows)

/-- A matrix is aligned like one of its columns. -/
def typeAlignment : MemberType → Nat
  | .f32 | .i32 | .u32 => 4
  | .vec2f | .vec2i | .vec2u | .mat2x2f => vectorAlignment 2
  | .vec3f | .vec3i | .vec3u | .mat3x3f => vectorAlignment 3
  | .vec4f | .vec4i | .vec4u | .mat4x4f => vectorAlignment 4

def typeSize : MemberType → Nat
  | .f32 | .i32 | .u32 => 4
  | .vec2f | .vec2i | .vec2u => vectorSize 2
  | .vec3f | .vec3i | .vec3u => vectorSize 3
  | .vec4f | .vec4i | .vec4u => vectorSize 4
  | .mat2x2f => matrixSize 2 2
  | .mat3x3f => matrixSize 3 3
  | .mat4x4f => matrixSize 4 4

/-- The offsets of the members that follow one of the given type at the given offset. -/
def offsetsAfter (offset : Nat) (type : MemberType) : List MemberType → List Nat
  | [] => []
  | next :: rest =>
    let start := multipleFrom (typeAlignment next) (offset + typeSize type)
    start :: offsetsAfter start next rest

/-- The offsets at which a shader finds the members of a host-shareable struct. -/
def offsets : List MemberType → List Nat
  | [] => []
  | first :: rest => 0 :: offsetsAfter 0 first rest

/-- Where the last member ends. -/
def extent (types : List MemberType) : Nat :=
  match (types.zip (offsets types)).getLast? with
  | some (type, offset) => offset + typeSize type
  | none => 0

def structAlignment (types : List MemberType) : Nat :=
  (types.map typeAlignment).max?.getD 0

def structSize (types : List MemberType) : Nat :=
  multipleFrom (structAlignment types) (extent types)

theorem multipleFrom_eq_roundUp {unit : Nat} (positive : 0 < unit) (n : Nat) :
    multipleFrom unit n = roundUp n unit := by
  have least : IsLeast {m | unit ∣ m ∧ n ≤ m} (multipleFrom unit n) := by
    refine ⟨⟨Dvd.intro_left _ rfl, ?_⟩, ?_⟩
    · have covers := le_smul_ceilDiv positive (b := n)
      rwa [smul_eq_mul, Nat.mul_comm] at covers
    · rintro _ ⟨⟨count, rfl⟩, above⟩
      have steps : n ⌈/⌉ unit ≤ count := (ceilDiv_le_iff_le_mul positive).mpr above
      rw [Nat.mul_comm unit count]
      exact Nat.mul_le_mul_right unit steps
  exact least.unique (isLeast_roundUp n positive)

theorem typeSize_eq (type : MemberType) : typeSize type = type.size := by cases type <;> rfl

theorem typeAlignment_pos (type : MemberType) : 0 < typeAlignment type := by cases type <;> decide

theorem typeAlignment_eq_iff (type : MemberType) : type.alignment = typeAlignment type ↔ type ≠ .mat2x2f := by
  cases type <;> decide

theorem isGreatest_structAlignment {types : List MemberType} (declared : types ≠ []) :
    IsGreatest {a | a ∈ types.map typeAlignment} (structAlignment types) := by
  obtain ⟨greatest, found⟩ : ∃ greatest, (types.map typeAlignment).max? = some greatest := by
    apply Option.ne_none_iff_exists'.mp
    simpa using declared
  rw [structAlignment, found, Option.getD_some]
  exact List.max?_eq_some_iff.mp found

theorem typeAlignment_dvd_sixteen (type : MemberType) : typeAlignment type ∣ 16 := by
  cases type <;> decide

/-- A cursor is rounded for a type as a shader rounds it, unless the type is a two-column matrix and
the shader's place no multiple of 16. -/
theorem roundUp_alignment_eq_iff (cursor : Nat) (type : MemberType) :
    roundUp cursor type.alignment = multipleFrom (typeAlignment type) cursor ↔
      (type = .mat2x2f → 16 ∣ multipleFrom (typeAlignment type) cursor) := by
  rw [multipleFrom_eq_roundUp (typeAlignment_pos type)]
  by_cases matrix : type = .mat2x2f
  · have sixteen : type.alignment = 16 := by rw [matrix]; rfl
    rw [sixteen, roundUp_eq_roundUp_iff (typeAlignment_pos type) (by decide) (typeAlignment_dvd_sixteen type)]
    exact ⟨fun reached _ => reached, fun reached => reached matrix⟩
  · rw [(typeAlignment_eq_iff type).mpr matrix]
    exact ⟨fun _ same => absurd same matrix, fun _ => rfl⟩

theorem placeMembers_offsets_eq_iff (offset : Nat) (type : MemberType) (members : List Member) :
    (placeMembers (offset + typeSize type) members).map (·.offset) =
        offsetsAfter offset type (members.map (·.type)) ↔
      ∀ p ∈ (members.map (·.type)).zip (offsetsAfter offset type (members.map (·.type))),
        p.1 = .mat2x2f → 16 ∣ p.2 := by
  induction members generalizing offset type with
  | nil => simp [placeMembers, offsetsAfter]
  | cons m rest ih =>
    simp only [List.map_cons, placeMembers, offsetsAfter, List.cons.injEq, List.zip_cons_cons,
      List.forall_mem_cons, ← roundUp_alignment_eq_iff]
    -- Where the offsets of `m` agree, so do the cursors behind it.
    refine and_congr_right fun same => ?_
    rw [same, ← typeSize_eq m.type]
    exact ih _ m.type

end HostShareable

namespace StructSchema
open HostShareable

def types (schema : StructSchema) : List MemberType :=
  schema.members.map (·.type)

theorem types_ne_nil {schema : StructSchema} (declared : schema.members ≠ []) : schema.types ≠ [] := by
  simpa [types] using declared

theorem offsets_eq_iff (schema : StructSchema) :
    schema.placed.map (·.offset) = offsets schema.types ↔
      ∀ p ∈ schema.types.zip (offsets schema.types), p.1 = .mat2x2f → 16 ∣ p.2 := by
  unfold placed types
  cases schema.members with
  | nil => simp [placeMembers, offsets]
  | cons first rest =>
    have start : roundUp 0 first.type.alignment = 0 := roundUp_of_dvd first.type.alignment_pos (Nat.dvd_zero _)
    have later := placeMembers_offsets_eq_iff 0 first.type rest
    simp only [List.map_cons, placeMembers, offsets, List.cons.injEq, List.zip_cons_cons,
      List.forall_mem_cons, start, ← typeSize_eq, later]
    simp

theorem types_placed (schema : StructSchema) : schema.placed.map (·.type) = schema.types := by
  have members : schema.placed.map (·.toMember) = schema.members := placeMembers_members 0 schema.members
  rw [types, ← members, List.map_map]
  rfl

theorem extent_eq {schema : StructSchema} (same : schema.placed.map (·.offset) = offsets schema.types) :
    schema.extent = HostShareable.extent schema.types := by
  unfold StructSchema.extent HostShareable.extent
  rw [← same, ← schema.types_placed, List.zip_map', List.getLast?_map]
  cases schema.placed.getLast? with
  | none => rfl
  | some last => simp only [Option.map_some, typeSize_eq, PlacedMember.reach, PlacedMember.size]

theorem alignment_eq_sixteen {schema : StructSchema} (matrix : .mat2x2f ∈ schema.types) :
    schema.alignment = 16 := by
  have bounded : ∀ type : MemberType, type.alignment ≤ 16 := by intro type; cases type <;> decide
  obtain ⟨m, member, type⟩ := List.mem_map.mp matrix
  refine schema.isGreatest_alignment.unique ⟨?_, ?_⟩
  · exact List.mem_cons_of_mem _ (List.mem_map.mpr ⟨m, member, by rw [type]; rfl⟩)
  · intro a among
    rcases List.mem_cons.mp among with rfl | ofMember
    · decide
    · obtain ⟨n, _, rfl⟩ := List.mem_map.mp ofMember
      exact bounded n.type

/-- Without a two-column matrix both alignments are the largest of the same list. That a layout's
own alignment is at least 4 makes no difference, since every type's is. -/
theorem alignment_eq_structAlignment {schema : StructSchema} (declared : schema.members ≠ [])
    (noMatrix : .mat2x2f ∉ schema.types) : schema.alignment = structAlignment schema.types := by
  have alignments : schema.members.map (·.type.alignment) = schema.types.map typeAlignment := by
    rw [types, List.map_map]
    refine List.map_congr_left fun m member => (typeAlignment_eq_iff m.type).mpr ?_
    exact fun matrix => noMatrix (List.mem_map.mpr ⟨m, member, matrix⟩)
  obtain ⟨attained, bounded⟩ := schema.isGreatest_alignment
  rw [alignments] at attained bounded
  have greatest : IsGreatest {a | a ∈ schema.types.map typeAlignment} schema.alignment := by
    refine ⟨?_, fun a among => bounded (List.mem_cons_of_mem _ among)⟩
    rcases List.mem_cons.mp attained with least | ofMember
    · obtain ⟨m, member⟩ := List.exists_mem_of_ne_nil _ declared
      have among : typeAlignment m.type ∈ schema.types.map typeAlignment :=
        List.mem_map_of_mem (List.mem_map_of_mem member)
      have above : 4 ≤ typeAlignment m.type := by cases m.type <;> decide
      have same : schema.alignment = typeAlignment m.type :=
        Nat.le_antisymm (least.trans_le above) (bounded (List.mem_cons_of_mem _ among))
      exact same ▸ among
    · exact ofMember
  exact greatest.unique (isGreatest_structAlignment (types_ne_nil declared))

theorem size_eq_iff {schema : StructSchema} (declared : schema.members ≠ [])
    (same : schema.extent = HostShareable.extent schema.types) :
    schema.size = structSize schema.types ↔ (.mat2x2f ∈ schema.types → 16 ∣ structSize schema.types) := by
  obtain ⟨attained, _⟩ := isGreatest_structAlignment (types_ne_nil declared)
  obtain ⟨type, _, alignment⟩ := List.mem_map.mp attained
  have positive := alignment ▸ typeAlignment_pos type
  rw [StructSchema.size, structSize, multipleFrom_eq_roundUp positive, same]
  by_cases matrix : .mat2x2f ∈ schema.types
  · rw [alignment_eq_sixteen matrix,
      roundUp_eq_roundUp_iff positive (by decide) (alignment ▸ typeAlignment_dvd_sixteen type)]
    exact ⟨fun reached _ => reached, fun reached => reached matrix⟩
  · rw [alignment_eq_structAlignment declared matrix]
    exact ⟨fun _ found => absurd found matrix, fun _ => rfl⟩

/-- A layout puts the members where a shader finds them and has the size that the shader expects
exactly if the shader finds every two-column matrix on a multiple of 16 and expects such a size
where there is one. Only that matrix has another alignment than in a shader; the sizes agree. -/
theorem layout_hostShareable_iff {schema : StructSchema} {layout : StructLayout}
    (resolved : schema.layout = .ok layout) :
    (∀ type : MemberType, type.size = typeSize type ∧
        (type.alignment = typeAlignment type ↔ type ≠ .mat2x2f)) ∧
      (layout.members.map (·.offset) = offsets schema.types ∧ layout.size = structSize schema.types ↔
        (∀ p ∈ schema.types.zip (offsets schema.types), p.1 = .mat2x2f → 16 ∣ p.2) ∧
          (.mat2x2f ∈ schema.types → 16 ∣ structSize schema.types)) := by
  have resolves := layout_eq_ok_iff.mp resolved
  refine ⟨fun type => ⟨(typeSize_eq type).symm, typeAlignment_eq_iff type⟩, ?_⟩
  rw [resolves.members, resolves.size, ← schema.offsets_eq_iff]
  exact and_congr_right fun same => size_eq_iff resolves.declared (extent_eq same)

/-- A two-column matrix that follows sixteen bytes. -/
theorem layout_hostShareable_iff_of_filled_front :
    let schema : StructSchema :=
      { label := "s", members := [⟨"axis", .vec3f⟩, ⟨"scale", .f32⟩, ⟨"shear", .mat2x2f⟩, ⟨"tint", .vec3f⟩] }
    let layout : StructLayout :=
      ⟨"s", .uniform, [⟨⟨"axis", .vec3f⟩, 0⟩, ⟨⟨"scale", .f32⟩, 12⟩, ⟨⟨"shear", .mat2x2f⟩, 16⟩, ⟨⟨"tint", .vec3f⟩, 32⟩],
        48, 16⟩
    schema.layout = .ok layout ∧
      (∀ p ∈ schema.types.zip (offsets schema.types), p.1 = .mat2x2f → 16 ∣ p.2) ∧
      16 ∣ structSize schema.types ∧ layout.members.map (·.offset) = offsets schema.types ∧
      layout.size = structSize schema.types := by
  intro schema layout
  have resolved : schema.layout = .ok layout := by decide
  have reached : ∀ p ∈ schema.types.zip (offsets schema.types), p.1 = .mat2x2f → 16 ∣ p.2 := by decide
  have padded : 16 ∣ structSize schema.types := by decide
  exact ⟨resolved, reached, padded, (layout_hostShareable_iff resolved).2.mpr ⟨reached, fun _ => padded⟩⟩

/-- Behind a vector of two a matrix of two columns is put 8 bytes after the place where a shader
reads it, and the struct becomes 8 bytes longer than the shader expects. -/
theorem layout_moves_matrix_after_vector :
    let schema : StructSchema := { label := "s", members := [⟨"v", .vec2f⟩, ⟨"m", .mat2x2f⟩] }
    ∃ layout, schema.layout = .ok layout ∧
      layout.members.map (·.offset) = [0, 16] ∧ offsets schema.types = [0, 8] ∧
      layout.size = 32 ∧ structSize schema.types = 24 :=
  ⟨⟨"s", .uniform, [⟨⟨"v", .vec2f⟩, 0⟩, ⟨⟨"m", .mat2x2f⟩, 16⟩], 32, 16⟩, by decide, by decide, by decide,
    by decide, by decide⟩

end StructSchema

end GpuBuffer
