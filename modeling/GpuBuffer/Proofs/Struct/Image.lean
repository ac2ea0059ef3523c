import GpuBuffer.Proofs.Placement
import GpuBuffer.Proofs.Record

namespace GpuBuffer

namespace MemberType

theorem size_pos (type : MemberType) : 0 < type.size := by cases type <;> decide

theorem width_eq (type : MemberType) : type.shape.scalar.width = 4 := by cases type <;> rfl

/-- Where component `i` lies in a member: by column and row in a matrix, one after the other else. -/
def place (type : MemberType) (i : Nat) : Nat :=
  match type.shape.dimensions? with
  | some (columns, rows) => i / rows * (type.size / columns) + i % rows * 4
  | none => i * 4

theorem componentStart_eq (type : MemberType) (i : Nat) : type.shape.componentStart i = type.place i := by
  cases type <;> rfl

end MemberType

namespace StructLayout

/-- Structs laid end to end, as records. -/
def record {schema : StructSchema} {layout : StructLayout} (resolves : schema.ResolvesTo layout) :
    Record PlacedMember where
  stride := layout.size
  fields := layout.members
  offset m := m.offset
  shape m := m.type.shape
  within _ member := by
    have reach := StructSchema.reach_le_extent (resolves.members ▸ member)
    have padded := schema.extent_le_size
    rw [← resolves.size] at padded
    exact reach.trans padded
  ordered := resolves.members ▸ placeMembers_ordered 0 schema.members

def writeOf (layout : StructLayout) (r : RecordWrite String) : Write :=
  .member layout (r.index * layout.size) r.key r.values

theorem mem_of_named? {layout : StructLayout} {name : String} {m : PlacedMember}
    (found : layout.named? name = some m) : m ∈ layout.members :=
  List.mem_of_find?_eq_some found

/-- A write that an array of `n` structs accepts goes to one of them. -/
theorem index_lt_of_patch {layout : StructLayout} {r : RecordWrite String} {label : String} {n : Nat}
    {p : Patch} (accepted : (layout.writeOf r).patch label (n * layout.size) = .ok p) : r.index < n := by
  obtain ⟨m, _, _, stored⟩ := StructLayout.patch_eq_ok_iff.mp accepted
  have room := (Target.patch_eq_ok_iff.mp stored).2.1
  have positive := m.type.size_pos
  simp only [Target.reach, StructLayout.target] at room
  unfold MemberType.size at positive
  exact Nat.lt_of_mul_lt_mul_right (show r.index * layout.size < n * layout.size by omega)

theorem record_reachedBy {schema : StructSchema} {layout : StructLayout}
    (resolves : schema.ResolvesTo layout) (n : Nat) :
    (record resolves).ReachedBy n layout.named? layout.writeOf := by
  intro r label p accepted
  have index := index_lt_of_patch accepted
  obtain ⟨m, found, _, stored⟩ := StructLayout.patch_eq_ok_iff.mp accepted
  obtain ⟨complete, _, fits, patch⟩ := Target.patch_eq_ok_iff.mp stored
  exact ⟨m, found, mem_of_named? found, index, complete, fits, patch⟩

/-- After any run of requests, a zeroed image for `n` structs holds in every member of every struct
the values of the last accepted request for it, component by component, or zeros if there was none.
All other bytes are zero: those between members, between matrix columns, and behind the last
member. A request beyond the last struct is always refused. -/
theorem array_holds_last_values {schema : StructSchema} {layout : StructLayout}
    (resolved : schema.layout = .ok layout) (n : Nat) (label : String) (usage : BufferUsage)
    (requests : List (RecordWrite String)) :
    let blank := Image.zeroed ⟨label, n * layout.size, usage⟩
    let final := blank.writeAll (requests.map layout.writeOf)
    let stored := lastValues layout.named? (blank.carriedOut layout.writeOf requests)
    (∀ (image : Image) (r : RecordWrite String), image.size = n * layout.size → n ≤ r.index →
        ∃ e, (image.write (layout.writeOf r)).1 = .error e) ∧
      final.size = n * layout.size ∧
      (∀ k < n, ∀ m ∈ layout.members, ∀ i < m.type.shape.arity,
        m.type.shape.Shows i (final.read (k * layout.size + m.offset + m.type.place i) 4) (stored k m)) ∧
      ∀ p < final.size,
        (∀ k < n, ∀ m ∈ layout.members, ∀ i < m.type.shape.arity,
          p < k * layout.size + m.offset + m.type.place i ∨
            k * layout.size + m.offset + m.type.place i + 4 ≤ p) →
        final.bytes[p]? = some 0 := by
  intro blank final stored
  have resolves := StructSchema.layout_eq_ok_iff.mp resolved
  have shown : (record resolves).Shows n stored final := by
    have initial : (record resolves).Shows n (fun _ _ => none) blank := .zeroed rfl
    have run := initial.run (record_reachedBy resolves n) requests
    simpa only [Option.or_none] using run
  refine ⟨?_, shown.size, ?_, ?_⟩
  · intro image r size beyond
    rcases image.write_cases (layout.writeOf r) with ⟨e, _, refused⟩ | ⟨p, patched, _⟩
    · exact ⟨e, by rw [refused]⟩
    · rw [size] at patched
      exact absurd (index_lt_of_patch patched) (Nat.not_lt.mpr beyond)
  · intro k index m member i inside
    have component := shown.component k index m member i inside
    rwa [show ((record resolves).shape m).componentStart i = _ from m.type.componentStart_eq i,
      show ((record resolves).shape m).scalar.width = 4 from m.type.width_eq] at component
  · intro p inside outside
    refine shown.gap p inside fun k index m member i bound => ?_
    have apart := outside k index m member i bound
    rwa [← m.type.componentStart_eq i, ← m.type.width_eq] at apart

/-- Two structs with a gap before their vector and padded matrix columns. -/
theorem array_holds_last_values_of_padded_struct :
    let scale : PlacedMember := ⟨⟨"scale", .u32⟩, 0⟩
    let axis : PlacedMember := ⟨⟨"axis", .vec3f⟩, 16⟩
    let basis : PlacedMember := ⟨⟨"basis", .mat3x3f⟩, 32⟩
    let schema : StructSchema :=
      { label := "s", members := [scale.toMember, axis.toMember, basis.toMember] }
    let layout : StructLayout := ⟨"s", .uniform, [scale, axis, basis], 80, 16⟩
    let requests : List (RecordWrite String) :=
      [⟨1, "axis", .signed [1, 2, 3]⟩, ⟨1, "axis", .unsigned [4, 5, 6]⟩, ⟨1, "axis", .signed [7]⟩,
        ⟨0, "up", .signed [1]⟩, ⟨2, "scale", .unsigned [8]⟩]
    let final := (Image.zeroed ⟨"two", 2 * layout.size, .uniform⟩).writeAll (requests.map layout.writeOf)
    schema.layout = .ok layout ∧
      axis.type.shape.Shows 2 (final.read 104 4) (some (.unsigned [4, 5, 6])) ∧ final.bytes[44]? = some 0 := by
  intro scale axis basis schema layout requests final
  have resolved : schema.layout = .ok layout := by decide
  obtain ⟨_, size, shown, padding⟩ := array_holds_last_values resolved 2 "two" .uniform requests
  have storedAxis : lastValues layout.named?
      ((Image.zeroed ⟨"two", 2 * layout.size, .uniform⟩).carriedOut layout.writeOf requests) 1 axis =
        some (.unsigned [4, 5, 6]) := by decide +kernel
  have shownAxis := shown 1 (by decide) axis (by decide) 2 (by decide)
  rw [storedAxis] at shownAxis
  exact ⟨resolved, shownAxis, padding 44 (by rw [size]; decide) (by decide)⟩

end StructLayout

end GpuBuffer
