import GpuBuffer.Proofs.Image.Bounds
import GpuBuffer.Proofs.Layout

namespace GpuBuffer

theorem VertexLayout.target_within {schema : VertexSchema} {layout : VertexLayout}
    (resolves : schema.ResolvesTo layout) {element : Nat} {a : PlacedAttribute} (inside : element < layout.elements)
    (member : a ∈ layout.attributes) : (layout.target element a).reach ≤ layout.size := by
  have within := (record resolves).start_within inside member
  rwa [Nat.mul_comm] at within

theorem StructLayout.target_within {schema : StructSchema} {layout : StructLayout}
    (resolves : schema.ResolvesTo layout) {m : PlacedMember} (member : m ∈ layout.members) :
    (StructLayout.target 0 m).reach ≤ layout.size := by
  have within := (record resolves).start_within Nat.zero_lt_one member
  rwa [Nat.one_mul, Record.start, Nat.zero_mul] at within

/-- The bytes of one element, of one struct, or of one index. -/
def Layout.unit : Layout → Nat
  | .vertex layout => layout.stride
  | .struct layout => layout.size
  | .index layout => layout.format.size

/-- The writes through a layout whose bases lie where its own buffer begins. -/
def Layout.Owns (layout : Layout) : Write → Prop
  | .vertex through _ _ _ => layout = .vertex through
  | .member through base _ _ => layout = .struct through ∧ base = 0
  | .indices through _ _ => layout = .index through

namespace Write

/-- What no buffer of the layout has room for: a known attribute of an element, or indices, beyond
the last. A single struct has no such place. -/
def Beyond : Write → Prop
  | .vertex layout element key _ => (layout.find? key).isSome ∧ layout.elements ≤ element
  | .member .. => False
  | .indices layout first list => layout.count < first + list.length

/-- The field is known and takes the values: as many as it has components, each of them in range. -/
def Suits : Write → Prop
  | .vertex layout _ key values => ∃ a, layout.find? key = some a ∧
      values.length = a.format.shape.arity ∧ ∀ x ∈ values.numbers, a.format.shape.scalar.Fits x
  | .member layout _ name values => ∃ m, layout.named? name = some m ∧
      values.length = m.type.shape.arity ∧ ∀ x ∈ values.numbers, m.type.shape.scalar.Fits x
  | .indices layout _ list => ∀ x ∈ (Values.unsigned list).numbers, layout.format.scalar.Fits x

end Write

namespace VertexLayout
variable {schema : VertexSchema} {layout : VertexLayout} {image : Image}

theorem overruns_write_iff (resolves : schema.ResolvesTo layout) (size : image.size = layout.size)
    {element : Nat} {key : AttributeKey} {values : Values} :
    Overruns (image.write (.vertex layout element key values)).1 ↔
      (Write.vertex layout element key values).Beyond := by
  rw [Image.overruns_write_iff, Write.patch, overruns_patch_iff, Write.Beyond, Option.isSome_iff_exists,
    ← exists_and_right]
  refine exists_congr fun a => and_congr_right fun found => ?_
  constructor
  · rintro (beyond | overruns)
    · exact beyond
    · obtain ⟨_, short⟩ := Target.overruns_patch_iff.mp overruns
      by_contra inside
      have within := target_within resolves (Nat.not_le.mp inside) (mem_of_find? found)
      omega
  · exact Or.inl

theorem write_eq_ok_iff (resolves : schema.ResolvesTo layout) (size : image.size = layout.size)
    {element : Nat} {key : AttributeKey} {values : Values} :
    (image.write (.vertex layout element key values)).1 = .ok () ↔
      (Write.vertex layout element key values).Suits ∧ ¬ (Write.vertex layout element key values).Beyond := by
  simp only [Image.write_eq_ok_iff, Write.patch, patch_eq_ok_iff, Target.patch_eq_ok_iff, size]
  constructor
  · rintro ⟨_, a, found, inside, complete, _, fits, rfl⟩
    exact ⟨⟨a, found, complete, fits⟩, fun beyond => Nat.not_le.mpr inside beyond.2⟩
  · rintro ⟨⟨a, found, complete, fits⟩, within⟩
    have inside : element < layout.elements := by
      by_contra beyond
      exact within ⟨Option.isSome_of_eq_some found, Nat.not_lt.mp beyond⟩
    exact ⟨_, a, found, inside, complete, target_within resolves inside (mem_of_find? found), fits, rfl⟩

end VertexLayout

namespace StructLayout
variable {schema : StructSchema} {layout : StructLayout} {image : Image}

theorem offset_lt_addressLimit (resolves : schema.ResolvesTo layout) (fits : layout.size < 2 ^ 32)
    {m : PlacedMember} (member : m ∈ layout.members) : m.offset < addressLimit := by
  have within := target_within resolves member
  simp only [Target.reach, StructLayout.target] at within
  unfold addressLimit
  omega

theorem not_overruns_write (resolves : schema.ResolvesTo layout) (fits : layout.size < 2 ^ 32)
    (size : image.size = layout.size) (name : String) (values : Values) :
    ¬ Overruns (image.write (.member layout 0 name values)).1 := by
  rw [Image.overruns_write_iff, Write.patch, overruns_patch_iff]
  rintro ⟨m, found, beyond | overruns⟩
  · have below := offset_lt_addressLimit resolves fits (mem_of_named? found)
    omega
  · obtain ⟨_, short⟩ := Target.overruns_patch_iff.mp overruns
    have within := target_within resolves (mem_of_named? found)
    omega

theorem write_eq_ok_iff (resolves : schema.ResolvesTo layout) (fits : layout.size < 2 ^ 32)
    (size : image.size = layout.size) {name : String} {values : Values} :
    (image.write (.member layout 0 name values)).1 = .ok () ↔ (Write.member layout 0 name values).Suits := by
  simp only [Image.write_eq_ok_iff, Write.patch, patch_eq_ok_iff, Target.patch_eq_ok_iff, size]
  constructor
  · rintro ⟨_, m, found, _, complete, _, suits, rfl⟩
    exact ⟨m, found, complete, suits⟩
  · rintro ⟨m, found, complete, suits⟩
    have member := mem_of_named? found
    exact ⟨_, m, found, by rw [Nat.zero_add]; exact offset_lt_addressLimit resolves fits member, complete,
      target_within resolves member, suits, rfl⟩

end StructLayout

namespace IndexLayout
variable {layout : IndexLayout} {image : Image}

theorem size_lt_iff {first count : Nat} :
    layout.size < first * layout.format.size + count * layout.format.size ↔ layout.count < first + count := by
  rw [size, Nat.mul_comm, ← Nat.add_mul]
  exact Nat.mul_lt_mul_right layout.format.size_pos

theorem overruns_write_iff (size : image.size = layout.size) {first : Nat} {list : List UInt32} :
    Overruns (image.write (.indices layout first list)).1 ↔ (Write.indices layout first list).Beyond := by
  rw [Image.overruns_write_iff, Write.patch, overruns_patch_iff, size, size_lt_iff]
  rfl

theorem write_eq_ok_iff (size : image.size = layout.size) {first : Nat} {list : List UInt32} :
    (image.write (.indices layout first list)).1 = .ok () ↔
      (Write.indices layout first list).Suits ∧ ¬ (Write.indices layout first list).Beyond := by
  simp only [Image.write_eq_ok_iff, Write.patch, patch_eq_ok_iff, size, ← Nat.not_lt, size_lt_iff]
  constructor
  · rintro ⟨_, within, fits, rfl⟩
    exact ⟨fits, within⟩
  · rintro ⟨fits, within⟩
    exact ⟨_, within, fits, rfl⟩

end IndexLayout

namespace Layout

/-- The image made for a layout holds all that the layout describes. Whatever was written to it, a
write through the layout goes beyond its end only if it names an element or an index that the layout
does not have. So every write that suits its field is accepted. -/
theorem own_image_holds_layout {schema : Schema} {layout : Layout} (resolved : schema.resolve.result = .ok layout)
    (fits : layout.unit < 2 ^ 32) (earlier : List Write) {w : Write} (owned : layout.Owns w) :
    let image := (Image.zeroed layout.request).writeAll earlier
    0 < layout.request.size ∧ (Overruns (image.write w).1 ↔ w.Beyond) ∧
      ((image.write w).1 = .ok () ↔ w.Suits ∧ ¬ w.Beyond) := by
  intro image
  have resolves := schema.resolvesTo_of_resolve resolved
  have size : image.size = layout.request.size := by rw [Image.size_writeAll, Image.size_zeroed]
  refine ⟨size_pos resolves, ?_⟩
  cases resolves with
  | vertex own =>
    cases w with
    | vertex through element key values =>
      cases owned
      exact ⟨VertexLayout.overruns_write_iff own size, VertexLayout.write_eq_ok_iff own size⟩
    | member => cases owned.1
    | indices => cases owned
  | struct own =>
    cases w with
    | vertex => cases owned
    | member through base name values =>
      obtain ⟨same, rfl⟩ := owned
      cases same
      have never := StructLayout.not_overruns_write own fits size name values
      refine ⟨⟨never, False.elim⟩, (StructLayout.write_eq_ok_iff own fits size).trans ?_⟩
      exact ⟨fun suits => ⟨suits, id⟩, And.left⟩
    | indices => cases owned
  | index own =>
    cases w with
    | vertex => cases owned
    | member => cases owned.1
    | indices through first list =>
      cases owned
      exact ⟨IndexLayout.overruns_write_iff size, IndexLayout.write_eq_ok_iff size⟩

/-- The last attribute of the last element of a padded stream, after a write elsewhere and one that
belongs to another buffer. -/
theorem own_image_holds_layout_of_padded_stream :
    let id : PlacedAttribute := ⟨⟨0, "id", .uint32⟩, 0⟩
    let flags : PlacedAttribute := ⟨⟨1, "flags", .uint8x2⟩, 4⟩
    let schema : VertexSchema :=
      { label := "v", elements := some 2, attributes := [id.toAttribute, flags.toAttribute] }
    let layout : VertexLayout := ⟨"v", .perVertex, 2, 8, [id, flags]⟩
    let earlier : List Write :=
      [.vertex layout 1 (.name "id") (.unsigned [7]), .indices ⟨"i", 9, .uint32⟩ 8 [1]]
    let w : Write := .vertex layout 1 (.slot 1) (.unsigned [5, 255])
    (Schema.vertex schema).resolve.result = .ok (.vertex layout) ∧ (Layout.vertex layout).unit < 2 ^ 32 ∧
      (Layout.vertex layout).Owns w ∧ 0 < layout.size ∧
      (((Image.zeroed layout.request).writeAll earlier).write w).1 = .ok () := by
  intro id flags schema layout earlier w
  have resolved : (Schema.vertex schema).resolve.result = .ok (.vertex layout) := by decide
  have narrow : (Layout.vertex layout).unit < 2 ^ 32 := by decide
  have suits : w.Suits := ⟨flags, by decide, by decide, by decide⟩
  have within : ¬ w.Beyond := fun beyond => absurd beyond.2 (by decide)
  obtain ⟨positive, _, accepted⟩ := own_image_holds_layout resolved narrow earlier (w := w) rfl
  exact ⟨resolved, narrow, rfl, positive, accepted.mpr ⟨suits, within⟩⟩

end Layout

end GpuBuffer
