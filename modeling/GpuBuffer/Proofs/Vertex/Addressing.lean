import GpuBuffer.Proofs.Image.Answer

namespace GpuBuffer.VertexLayout
variable {schema : VertexSchema} {layout : VertexLayout} {key : AttributeKey} {a : PlacedAttribute}

/-- A key means the first of the attributes that it names. -/
theorem find?_eq_some_iff_names :
    layout.find? key = some a ↔
      key.Names a.toAttribute ∧ ∃ i : Nat, layout.attributes[i]? = some a ∧
        ∀ j < i, ∀ b, layout.attributes[j]? = some b → ¬ key.Names b.toAttribute := by
  cases key with
  | name name =>
    rw [find?, named?, find?_eq_some_iff_first]
    simp only [beq_iff_eq, beq_eq_false_iff_ne, AttributeKey.Names, ne_eq]
  | slot slot =>
    rw [find?, atSlot?, find?_eq_some_iff_first]
    simp only [beq_iff_eq, beq_eq_false_iff_ne, AttributeKey.Names, ne_eq]

/-- Keys that mean the same attribute are interchangeable, also where the write is refused. -/
theorem write_congr_of_find? {other : AttributeKey} (found : layout.find? key = some a)
    (again : layout.find? other = some a) (image : Image) (element : Nat) (values : Values) :
    image.write (.vertex layout element key values) = image.write (.vertex layout element other values) := by
  have patches : (Write.vertex layout element key values).patch image.label image.size =
      (Write.vertex layout element other values).patch image.label image.size := by
    simp only [Write.patch, VertexLayout.patch, found, again]
  simp only [Image.write, patches]

theorem write_of_unnamed (absent : ∀ a ∈ layout.attributes, ¬ key.Names a.toAttribute) (image : Image)
    (element : Nat) (values : Values) :
    image.write (.vertex layout element key values) = (.error (.unknownField layout.label key), image) := by
  simp only [Image.write, Write.patch, VertexLayout.patch, find?_eq_none_iff_names.mpr absent]

/-- A write reaches no other attribute than the one its key means, and no other element. -/
theorem read_write_elsewhere (resolves : schema.ResolvesTo layout) (found : layout.find? key = some a)
    {b : PlacedAttribute} (member : b ∈ layout.attributes) {element k : Nat} (elsewhere : ¬ (k = element ∧ b = a))
    (image : Image) (values : Values) :
    (image.write (.vertex layout element key values)).2.read (layout.elementStart k + b.offset) b.size =
      image.read (layout.elementStart k + b.offset) b.size := by
  rcases image.write_cases (.vertex layout element key values) with ⟨_, _, refused⟩ | ⟨p, patched, accepted⟩
  · rw [refused]
  · obtain ⟨_, same, _, stored⟩ := VertexLayout.patch_eq_ok_iff.mp patched
    cases found.symm.trans same
    obtain ⟨_, _, _, rfl⟩ := Target.patch_eq_ok_iff.mp stored
    rw [accepted, Image.read_patch_outside]
    have apart := (record resolves).starts_apart (mem_of_find? found) member elsewhere
    simp only [Patch.reach, Shape.length_stored]
    exact apart.symm

/-- Slots and names address the same attributes. Each attribute is the one its name means; a slot, which
several may share, means the first of them. A write by slot is the write by the name of that
attribute, answer and image alike, and leaves all other attributes as they were, those behind it on the
same slot among them. A key that names no attribute is refused and changes nothing. -/
theorem slot_and_name_agree (resolved : schema.layout = .ok layout) :
    (layout.attributes.map (·.name)).Nodup ∧
      (∀ a ∈ layout.attributes, layout.named? a.name = some a) ∧
      (∀ (slot : Nat) (a : PlacedAttribute), layout.atSlot? slot = some a ↔
        a.slot = slot ∧ ∃ i : Nat, layout.attributes[i]? = some a ∧
          ∀ j < i, ∀ b, layout.attributes[j]? = some b → b.slot ≠ slot) ∧
      (∀ slot : Nat, layout.atSlot? slot = none ↔ ∀ a ∈ layout.attributes, a.slot ≠ slot) ∧
      (∀ (slot : Nat) (a : PlacedAttribute), layout.atSlot? slot = some a →
        ∀ (image : Image) (element : Nat) (values : Values),
          let written := image.write (.vertex layout element (.slot slot) values)
          written = image.write (.vertex layout element (.name a.name) values) ∧
            ∀ (k : Nat), ∀ b ∈ layout.attributes, ¬ (k = element ∧ b = a) →
              written.2.read (layout.elementStart k + b.offset) b.size =
                image.read (layout.elementStart k + b.offset) b.size) ∧
      ∀ key : AttributeKey, (∀ a ∈ layout.attributes, ¬ key.Names a.toAttribute) →
        ∀ (image : Image) (element : Nat) (values : Values),
          image.write (.vertex layout element key values) = (.error (.unknownField layout.label key), image) := by
  have resolves := VertexSchema.layout_eq_ok_iff.mp resolved
  refine ⟨resolves.distinct_names, fun a member => resolves.find?_name member, ?_, ?_, ?_, ?_⟩
  · intro slot a
    change layout.find? (.slot slot) = some a ↔ _
    exact find?_eq_some_iff_names
  · intro slot
    change layout.find? (.slot slot) = none ↔ _
    exact find?_eq_none_iff_names
  · intro slot a found image element values
    change layout.find? (.slot slot) = some a at found
    have byName := resolves.find?_name (mem_of_find? found)
    refine ⟨write_congr_of_find? found byName image element values, fun k b member elsewhere => ?_⟩
    exact read_write_elsewhere resolves found member elsewhere image values
  · intro key absent image element values
    exact write_of_unnamed absent image element values

/-- Two attributes on one slot, in an image made for something else: the slot means the first, with a value
that fits and with one that does not, and the second keeps its bytes. -/
theorem slot_and_name_agree_of_shared_slot :
    let id : PlacedAttribute := ⟨⟨5, "id", .uint8x2⟩, 0⟩
    let flags : PlacedAttribute := ⟨⟨5, "flags", .uint8x2⟩, 2⟩
    let schema : VertexSchema :=
      { label := "v", elements := some 2, attributes := [id.toAttribute, flags.toAttribute] }
    let layout : VertexLayout := ⟨"v", .perVertex, 2, 4, [id, flags]⟩
    let image : Image := ⟨"scratch", #[1, 2, 3, 4, 5, 6, 7, 8, 9]⟩
    schema.layout = .ok layout ∧ layout.atSlot? 5 = some id ∧
      (image.write (.vertex layout 1 (.slot 5) (.unsigned [20, 30]))).2.read 6 2 = [7, 8] ∧
      image.write (.vertex layout 1 (.slot 5) (.unsigned [20, 30])) =
        image.write (.vertex layout 1 (.name "id") (.unsigned [20, 30])) ∧
      image.write (.vertex layout 1 (.slot 5) (.unsigned [20, 300])) =
        image.write (.vertex layout 1 (.name "id") (.unsigned [20, 300])) ∧
      image.write (.vertex layout 7 (.slot 0) (.unsigned [])) = (.error (.unknownField "v" (.slot 0)), image) := by
  intro id flags schema layout image
  have resolved : schema.layout = .ok layout := by decide
  have found : layout.atSlot? 5 = some id := by decide
  obtain ⟨_, _, _, _, agree, unknown⟩ := slot_and_name_agree resolved
  have untouched := (agree 5 id found image 1 (.unsigned [20, 30])).2 1 flags (by decide) (by decide)
  exact ⟨resolved, found, untouched, (agree 5 id found image 1 _).1, (agree 5 id found image 1 _).1,
    unknown (.slot 0) (by decide) image 7 _⟩

end GpuBuffer.VertexLayout
