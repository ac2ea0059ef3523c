import GpuBuffer.Proofs.Cache.Transparent
import GpuBuffer.Proofs.Placement

namespace GpuBuffer

/-- Results from which the arguments can be read back are equal only if the arguments are. -/
theorem ok_eq_iff_of_readBack {ε α β : Type} {f : α → Except ε β} {back : β → α}
    (readBack : ∀ a b, f a = .ok b → back b = a) {a c : α} {b d : β} (first : f a = .ok b)
    (second : f c = .ok d) : b = d ↔ a = c := by
  constructor
  · intro same
    rw [← readBack a b first, same, readBack c d second]
  · intro same
    rw [same, second] at first
    exact (Except.ok.inj first).symm

namespace StructLayout

/-- The declaration as a layout shows it. -/
def schema (layout : StructLayout) : StructSchema :=
  ⟨layout.label, layout.binding, layout.members.map (·.toMember)⟩

theorem schema_eq {schema : StructSchema} {layout : StructLayout} (resolves : schema.ResolvesTo layout) :
    layout.schema = schema := by
  have members : layout.members.map (·.toMember) = schema.members := by
    rw [resolves.members]
    exact placeMembers_members 0 schema.members
  rw [StructLayout.schema, resolves.label, resolves.binding, members]

end StructLayout

theorem StructSchema.result_resolve (s : StructSchema) : (Resolvable.resolve s).result = s.layout :=
  Outcome.result_ofResult _ _

theorem StructSchema.layout_eq_iff {s t : StructSchema} {l m : StructLayout} (first : s.layout = .ok l)
    (second : t.layout = .ok m) : l = m ↔ s = t :=
  ok_eq_iff_of_readBack (fun _ _ resolved => StructLayout.schema_eq (layout_eq_ok_iff.mp resolved)) first second

namespace IndexLayout

/-- The declaration as a layout shows it. -/
def schema (layout : IndexLayout) : IndexSchema :=
  ⟨layout.label, layout.count, layout.format⟩

theorem schema_eq {schema : IndexSchema} {layout : IndexLayout} (resolves : schema.ResolvesTo layout) :
    layout.schema = schema := by
  rw [IndexLayout.schema, resolves.label, resolves.count, resolves.format]

end IndexLayout

theorem IndexSchema.result_resolve (s : IndexSchema) : (Resolvable.resolve s).result = s.layout :=
  Outcome.result_ofResult _ _

theorem IndexSchema.layout_eq_iff {s t : IndexSchema} {l m : IndexLayout} (first : s.layout = .ok l)
    (second : t.layout = .ok m) : l = m ↔ s = t :=
  ok_eq_iff_of_readBack (fun _ _ resolved => IndexLayout.schema_eq (layout_eq_ok_iff.mp resolved)) first second

namespace VertexLayout

/-- The declaration as a layout shows it. How the stride was to be rounded is not to be seen. -/
def schema (layout : VertexLayout) (rounding : StrideRounding) : VertexSchema :=
  ⟨layout.label, some layout.elements, layout.stepMode, rounding, layout.attributes.map (·.toAttribute)⟩

theorem schema_eq {schema : VertexSchema} {layout : VertexLayout} (resolves : schema.ResolvesTo layout) :
    layout.schema schema.rounding = schema := by
  have attributes : layout.attributes.map (·.toAttribute) = schema.attributes := by
    rw [resolves.attributes]
    exact placeAttributes_attributes 0 schema.attributes
  rw [VertexLayout.schema, resolves.label, ← resolves.counted, resolves.stepMode, attributes]

end VertexLayout

namespace VertexSchema

/-- The declarations agree, except perhaps on the rounding of the stride. -/
def AgreesButRounding (s t : VertexSchema) : Prop :=
  t = { s with rounding := t.rounding }

/-- A stride that both roundings accept is the same under both. -/
theorem AgreesButRounding.layout_eq {s t : VertexSchema} {l m : VertexLayout} (agrees : s.AgreesButRounding t)
    (first : s.ResolvesTo l) (second : t.ResolvesTo m) : l = m := by
  have stride := stride_eq_roundUp first.stride
  have otherStride := stride_eq_roundUp second.stride
  have label := second.label
  have stepMode := second.stepMode
  have counted := second.counted
  have attributes := second.attributes
  rw [agrees] at otherStride label stepMode counted attributes
  have elements : l.elements = m.elements := Option.some.inj (first.counted.symm.trans counted)
  cases l
  cases m
  simp only [VertexLayout.mk.injEq]
  exact ⟨first.label.trans label.symm, first.stepMode.trans stepMode.symm, elements,
    stride.trans otherStride.symm, first.attributes.trans attributes.symm⟩

theorem result_resolve (s : VertexSchema) : (Resolvable.resolve s).result = s.layout :=
  Outcome.result_ofResult _ _

theorem layout_eq_iff {s t : VertexSchema} {l m : VertexLayout} (first : s.layout = .ok l)
    (second : t.layout = .ok m) : l = m ↔ s.AgreesButRounding t := by
  have resolves := layout_eq_ok_iff.mp first
  have otherResolves := layout_eq_ok_iff.mp second
  constructor
  · intro same
    have shown := VertexLayout.schema_eq resolves
    have otherShown := VertexLayout.schema_eq otherResolves
    rw [AgreesButRounding, ← shown, same]
    exact otherShown.symm
  · intro agrees
    exact agrees.layout_eq resolves otherResolves

end VertexSchema

namespace Cache
variable {σ δ : Type} [DecidableEq σ] [Resolvable σ δ]

/-- A history of calls hands out an instance for `s`, later one for `t`, and clears nothing between. -/
def HandsOut (calls : List (CacheCall σ)) (s t : σ) (a b : Shared δ) : Prop :=
  ∃ (i j : Nat) (first second : CacheReply δ), i < j ∧
    calls[i]? = some (.get s) ∧ (replies calls)[i]? = some first ∧ first.shared = some (.ok a) ∧
    calls[j]? = some (.get t) ∧ (replies calls)[j]? = some second ∧ second.shared = some (.ok b) ∧
    ∀ k, i < k → k < j → calls[k]? ≠ some .clear

theorem resolve_of_handed {calls : List (CacheCall σ)} {i : Nat} {s : σ} {reply : CacheReply δ}
    {shared : Shared δ} (call : calls[i]? = some (.get s)) (answer : (replies calls)[i]? = some reply)
    (handed : reply.shared = some (.ok shared)) : (Resolvable.resolve s).result = .ok shared.layout :=
  (after_remembers _).resolved _ (mem_entries_reply call answer handed)

end Cache

/-- Schemas have equal layouts exactly if they are alike, and so have the instances of one cache. -/
structure Identified {σ δ : Type} [DecidableEq σ] [Resolvable σ δ] (Alike : σ → σ → Prop) : Prop where
  layouts : ∀ (s t : σ) (l m : δ), (Resolvable.resolve s).result = .ok l → (Resolvable.resolve t).result = .ok m →
    (l = m ↔ Alike s t)
  instances : ∀ (calls : List (CacheCall σ)) (s t : σ) (a b : Shared δ), Cache.HandsOut calls s t a b →
    a.id ≠ b.id → s ≠ t ∧ (a.layout = b.layout ↔ Alike s t)

/-- What holds of layouts holds of the instances that share them. Two of these are different only if
their schemas are. -/
theorem Identified.of_layouts {σ δ : Type} [DecidableEq σ] [Resolvable σ δ] {Alike : σ → σ → Prop}
    (layouts : ∀ (s t : σ) (l m : δ), (Resolvable.resolve s).result = .ok l →
      (Resolvable.resolve t).result = .ok m → (l = m ↔ Alike s t)) : Identified Alike where
  layouts := layouts
  instances := by
    rintro calls s t a b ⟨i, j, first, second, before, call, answer, handed, later, laterAnswer, laterHanded,
      uncleared⟩ distinct
    refine ⟨?_, layouts s t _ _ (Cache.resolve_of_handed call answer handed)
      (Cache.resolve_of_handed later laterAnswer laterHanded)⟩
    intro same
    exact distinct ((Cache.id_eq_iff before call later answer laterAnswer handed laterHanded).mpr ⟨same, uncleared⟩)

/-- A layout tells its schema apart from every other. Only how the stride of a stream was to be
rounded cannot be read off it: where both roundings resolve, they resolve alike. So two different
instances from one cache, with no clear between them, are equal only if they are streams declared
with different roundings and the same otherwise. -/
theorem layout_identifies_schema :
    Identified (@Eq StructSchema) ∧ Identified (@Eq IndexSchema) ∧
      Identified VertexSchema.AgreesButRounding := by
  refine ⟨.of_layouts ?_, .of_layouts ?_, .of_layouts ?_⟩
  · intro s t l m first second
    rw [StructSchema.result_resolve] at first second
    exact StructSchema.layout_eq_iff first second
  · intro s t l m first second
    rw [IndexSchema.result_resolve] at first second
    exact IndexSchema.layout_eq_iff first second
  · intro s t l m first second
    rw [VertexSchema.result_resolve] at first second
    exact VertexSchema.layout_eq_iff first second

/-- One stream declared with either rounding and with another label. The cache holds all three
apart, and only the two that differ in their rounding are equal. -/
theorem layout_identifies_schema_of_aligned_stream :
    let id : PlacedAttribute := ⟨⟨0, "id", .uint32⟩, 0⟩
    let padded : VertexSchema := { label := "v", elements := some 2, attributes := [id.toAttribute] }
    let refused : VertexSchema := { padded with rounding := .refuse }
    let other : VertexSchema := { padded with label := "w" }
    let layout : VertexLayout := ⟨"v", .perVertex, 2, 4, [id]⟩
    let calls : List (CacheCall VertexSchema) := [.get padded, .size, .get refused, .get other]
    Cache.HandsOut calls padded refused ⟨0, layout⟩ ⟨1, layout⟩ ∧ padded.AgreesButRounding refused ∧
      Cache.HandsOut calls refused other ⟨1, layout⟩ ⟨2, { layout with label := "w" }⟩ ∧
      ¬ refused.AgreesButRounding other := by
  intro id padded refused other layout calls
  have uncleared : ∀ k : Nat, calls[k]? ≠ some .clear := fun k clears =>
    absurd (List.mem_of_getElem? clears) (by simp [calls])
  have first : Cache.HandsOut calls padded refused ⟨0, layout⟩ ⟨1, layout⟩ :=
    ⟨0, 2, _, _, by decide, rfl, rfl, by decide, rfl, rfl, by decide, fun k _ _ => uncleared k⟩
  have second : Cache.HandsOut calls refused other ⟨1, layout⟩ ⟨2, { layout with label := "w" }⟩ :=
    ⟨2, 3, _, _, by decide, rfl, rfl, by decide, rfl, rfl, by decide, fun k _ _ => uncleared k⟩
  obtain ⟨_, _, streams⟩ := layout_identifies_schema
  obtain ⟨_, alike⟩ := streams.instances calls _ _ _ _ first (by decide)
  obtain ⟨_, unlike⟩ := streams.instances calls _ _ _ _ second (by decide)
  exact ⟨first, alike.mp rfl, second, fun agrees => absurd (unlike.mpr agrees) (by decide)⟩

end GpuBuffer
