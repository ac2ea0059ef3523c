import GpuBuffer.Proofs.Encoding
import GpuBuffer.Proofs.Struct.Image
import GpuBuffer.Proofs.Vertex.Image

namespace GpuBuffer

/-- A schema of any kind resolves as one of its kind does. -/
inductive Schema.ResolvesTo : Schema → Layout → Prop
  | vertex {schema : VertexSchema} {layout : VertexLayout} (resolves : schema.ResolvesTo layout) :
      ResolvesTo (.vertex schema) (.vertex layout)
  | struct {schema : StructSchema} {layout : StructLayout} (resolves : schema.ResolvesTo layout) :
      ResolvesTo (.struct schema) (.struct layout)
  | index {schema : IndexSchema} {layout : IndexLayout} (resolves : schema.ResolvesTo layout) :
      ResolvesTo (.index schema) (.index layout)

theorem Schema.resolvesTo_of_resolve {schema : Schema} {layout : Layout}
    (resolved : schema.resolve.result = .ok layout) : schema.ResolvesTo layout := by
  cases schema with
  | vertex schema =>
    obtain ⟨_, own, rfl⟩ := map_eq_ok_iff.mp resolved
    rw [VertexSchema.resolve, Outcome.result_ofResult] at own
    exact .vertex (VertexSchema.layout_eq_ok_iff.mp own)
  | struct schema =>
    obtain ⟨_, own, rfl⟩ := map_eq_ok_iff.mp resolved
    rw [StructSchema.resolve, Outcome.result_ofResult] at own
    exact .struct (StructSchema.layout_eq_ok_iff.mp own)
  | index schema =>
    obtain ⟨_, own, rfl⟩ := map_eq_ok_iff.mp resolved
    rw [IndexSchema.resolve, Outcome.result_ofResult] at own
    exact .index (IndexSchema.layout_eq_ok_iff.mp own)

theorem VertexFormat.size_pos (format : VertexFormat) : 0 < format.size := by cases format <;> decide

theorem IndexFormat.size_pos (format : IndexFormat) : 0 < format.size := by cases format <;> decide

theorem VertexLayout.size_pos {schema : VertexSchema} {layout : VertexLayout}
    (resolves : schema.ResolvesTo layout) : 0 < layout.size := by
  obtain ⟨a, rest, attributes⟩ := List.exists_cons_of_ne_nil resolves.declared
  have padded := VertexSchema.extent_le_stride resolves.stride
  have positive := a.format.size_pos
  simp only [VertexSchema.extent, attributes, List.map_cons, List.sum_cons] at padded
  exact Nat.mul_pos (by omega) resolves.positive

theorem StructLayout.size_pos {schema : StructSchema} {layout : StructLayout}
    (resolves : schema.ResolvesTo layout) : 0 < layout.size := by
  obtain ⟨m, rest, members⟩ := List.exists_cons_of_ne_nil resolves.declared
  have first : ⟨m, roundUp 0 m.type.alignment⟩ ∈ schema.placed := by
    simp [StructSchema.placed, members, placeMembers]
  have reach := StructSchema.reach_le_extent first
  have padded := schema.extent_le_size
  have positive := m.type.size_pos
  simp only [PlacedMember.reach, PlacedMember.size] at reach
  rw [resolves.size]
  omega

theorem IndexLayout.size_pos {schema : IndexSchema} {layout : IndexLayout}
    (resolves : schema.ResolvesTo layout) : 0 < layout.size :=
  Nat.mul_pos layout.format.size_pos resolves.positive

theorem Layout.size_pos {schema : Schema} {layout : Layout} (resolves : schema.ResolvesTo layout) :
    0 < layout.request.size := by
  cases resolves with
  | vertex own => exact VertexLayout.size_pos own
  | struct own => exact StructLayout.size_pos own
  | index own => exact IndexLayout.size_pos own

end GpuBuffer
