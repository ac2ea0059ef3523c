import GpuBuffer.Proofs.Placement
import GpuBuffer.Proofs.Record

namespace GpuBuffer

theorem VertexFormat.componentStart_eq (format : VertexFormat) (i : Nat) :
    format.shape.componentStart i = i * format.shape.scalar.width := by
  cases format <;> rfl

theorem VertexFormat.size_eq (format : VertexFormat) :
    format.size = format.shape.arity * format.shape.scalar.width := by
  cases format <;> rfl

namespace VertexLayout

/-- The elements of a resolved stream, as records. -/
def record {schema : VertexSchema} {layout : VertexLayout} (resolves : schema.ResolvesTo layout) :
    Record PlacedAttribute where
  stride := layout.stride
  fields := layout.attributes
  offset a := a.offset
  shape a := a.format.shape
  within _ member :=
    (VertexSchema.reach_le_extent (resolves.attributes ▸ member)).trans
      (VertexSchema.extent_le_stride resolves.stride)
  ordered := resolves.attributes ▸ placeAttributes_ordered 0 schema.attributes

def writeOf (layout : VertexLayout) (r : RecordWrite AttributeKey) : Write :=
  .vertex layout r.index r.key r.values

theorem mem_of_find? {layout : VertexLayout} {key : AttributeKey} {a : PlacedAttribute}
    (found : layout.find? key = some a) : a ∈ layout.attributes := by
  cases key with
  | name name => exact List.mem_of_find?_eq_some found
  | slot slot => exact List.mem_of_find?_eq_some found

theorem record_reachedBy {schema : VertexSchema} {layout : VertexLayout}
    (resolves : schema.ResolvesTo layout) :
    (record resolves).ReachedBy layout.elements layout.find? layout.writeOf := by
  intro r label p accepted
  obtain ⟨a, found, index, stored⟩ := VertexLayout.patch_eq_ok_iff.mp accepted
  obtain ⟨complete, _, fits, patch⟩ := Target.patch_eq_ok_iff.mp stored
  exact ⟨a, found, mem_of_find? found, index, complete, fits, patch⟩

/-- After any run of requests, an image made for a vertex stream holds in every field of every
element the values of the last accepted request that resolved to it, component by component, or
zeros if there was none. All other bytes, which pad the elements, are zero. -/
theorem image_holds_last_values {schema : VertexSchema} {layout : VertexLayout}
    (resolved : schema.layout = .ok layout) (requests : List (RecordWrite AttributeKey)) :
    let blank := Image.zeroed layout.request
    let final := blank.writeAll (requests.map layout.writeOf)
    let stored := lastValues layout.find? (blank.carriedOut layout.writeOf requests)
    final.size = layout.size ∧
      (∀ e < layout.elements, ∀ a ∈ layout.attributes,
        a.size = a.format.shape.arity * a.format.shape.scalar.width ∧
          ∀ i < a.format.shape.arity,
            a.format.shape.Shows i
              (final.read (e * layout.stride + a.offset + i * a.format.shape.scalar.width)
                a.format.shape.scalar.width)
              (stored e a)) ∧
      ∀ p < final.size,
        (∀ e < layout.elements, ∀ a ∈ layout.attributes,
          p < e * layout.stride + a.offset ∨ e * layout.stride + a.offset + a.size ≤ p) →
        final.bytes[p]? = some 0 := by
  intro blank final stored
  have resolves := VertexSchema.layout_eq_ok_iff.mp resolved
  have size : layout.size = layout.elements * layout.stride := Nat.mul_comm _ _
  have shown : (record resolves).Shows layout.elements stored final := by
    have initial : (record resolves).Shows layout.elements (fun _ _ => none) blank := .zeroed size
    have run := initial.run (record_reachedBy resolves) requests
    simpa only [Option.or_none] using run
  refine ⟨shown.size.trans size.symm, ?_, ?_⟩
  · intro e index a member
    refine ⟨a.format.size_eq, fun i inside => ?_⟩
    have component := shown.component e index a member i inside
    rwa [show ((record resolves).shape a).componentStart i = _ from a.format.componentStart_eq i] at component
  · intro p inside outside
    refine shown.gap p inside fun e index a member i bound => ?_
    have within := a.format.shape.component_within bound
    have apart := outside e index a member
    change p < e * layout.stride + a.offset + a.format.shape.componentStart i ∨
      e * layout.stride + a.offset + a.format.shape.componentStart i + a.format.shape.scalar.width ≤ p
    rw [PlacedAttribute.size, VertexFormat.size] at apart
    omega

/-- Two attributes on one slot and a padded stride: the slot means the first of them, and a value
that does not fit or an element too many leaves nothing behind. -/
theorem image_holds_last_values_of_shared_slot :
    let id : PlacedAttribute := ⟨⟨0, "id", .uint32⟩, 0⟩
    let flags : PlacedAttribute := ⟨⟨0, "flags", .uint8x2⟩, 4⟩
    let schema : VertexSchema :=
      { label := "v", elements := some 2, attributes := [id.toAttribute, flags.toAttribute] }
    let layout : VertexLayout := ⟨"v", .perVertex, 2, 8, [id, flags]⟩
    let requests : List (RecordWrite AttributeKey) :=
      [⟨1, .slot 0, .unsigned [7]⟩, ⟨1, .name "id", .unsigned [9]⟩, ⟨1, .name "flags", .unsigned [5, 300]⟩,
        ⟨2, .slot 0, .unsigned [1]⟩]
    let final := (Image.zeroed layout.request).writeAll (requests.map layout.writeOf)
    schema.layout = .ok layout ∧
      id.format.shape.Shows 0 (final.read 8 4) (some (.unsigned [9])) ∧
      flags.format.shape.Shows 1 (final.read 13 1) none ∧ final.bytes[14]? = some 0 := by
  intro id flags schema layout requests final
  have resolved : schema.layout = .ok layout := by decide
  obtain ⟨size, shown, padding⟩ := image_holds_last_values resolved requests
  have storedId : lastValues layout.find? ((Image.zeroed layout.request).carriedOut layout.writeOf requests) 1 id =
      some (.unsigned [9]) := by decide +kernel
  have storedFlags : lastValues layout.find?
      ((Image.zeroed layout.request).carriedOut layout.writeOf requests) 1 flags = none := by decide +kernel
  have shownId := (shown 1 (by decide) id (by decide)).2 0 (by decide)
  have shownFlags := (shown 1 (by decide) flags (by decide)).2 1 (by decide)
  rw [storedId] at shownId
  rw [storedFlags] at shownFlags
  exact ⟨resolved, shownId, shownFlags, padding 14 (by rw [size]; decide) (by decide)⟩

end VertexLayout

end GpuBuffer
