import GpuBuffer.Proofs.Vertex.Sequential
import Mathlib.Algebra.Ring.Parity

namespace GpuBuffer

namespace VertexFormat

/-- The formats of two bytes. All others fill whole words. -/
def Narrow (format : VertexFormat) : Prop :=
  format = .uint8x2 ∨ format = .unorm8x2

instance : DecidablePred Narrow :=
  fun _ => inferInstanceAs (Decidable (_ ∨ _))

theorem size_mod_four (format : VertexFormat) : format.size % 4 = if format.Narrow then 2 else 0 := by
  cases format <;> decide

end VertexFormat

/-- How many of the attributes have a format of two bytes. -/
def narrowCount (attributes : List Attribute) : Nat :=
  attributes.countP (·.format.Narrow)

/-- Sizes add up to whole words or to half a word more, by the parity of the narrow formats. -/
theorem sum_sizes_mod_four (attributes : List Attribute) :
    (attributes.map (·.format.size)).sum % 4 = 2 * (narrowCount attributes % 2) := by
  induction attributes with
  | nil => rfl
  | cons first rest ih =>
    have size := first.format.size_mod_four
    simp only [narrowCount] at ih
    simp only [narrowCount, List.map_cons, List.sum_cons, List.countP_cons, decide_eq_true_eq]
    by_cases narrow : first.format.Narrow
    · simp only [if_pos narrow] at size ⊢
      omega
    · simp only [if_neg narrow] at size ⊢
      omega

namespace PlacedAttribute

variable {a : PlacedAttribute} {narrow : Nat} (parity : a.offset % 4 = 2 * (narrow % 2))
include parity

theorem word?_eq_none_iff : a.word? = none ↔ Odd narrow := by
  rw [word?, ite_eq_right_iff, Nat.odd_iff]
  simp only [reduceCtorEq, imp_false]
  omega

theorem word?_of_not_odd (even : ¬ Odd narrow) : a.word? = some (a.offset / 4) := by
  rw [Nat.odd_iff] at even
  exact if_pos (by omega)

end PlacedAttribute

namespace VertexSchema

/-- A declaration that lacks nothing, whatever becomes of its stride. -/
structure Complete (schema : VertexSchema) (count : Nat) : Prop where
  labelled : schema.label ≠ ""
  declared : schema.attributes ≠ []
  counted : schema.elements = some count
  positive : 0 < count
  distinct : (schema.attributes.map (·.name)).Nodup

theorem Complete.layout_eq {schema : VertexSchema} {count : Nat} (complete : schema.Complete count) :
    schema.layout =
      schema.stride.map fun stride => ⟨schema.label, schema.stepMode, count, stride, schema.placed⟩ := by
  have counted := count_eq_ok_iff.mpr ⟨complete.counted, complete.positive⟩
  have unrepeated : repeatedName? [] (schema.attributes.map (·.name)) = none :=
    repeatedName?_eq_none_iff.mpr ⟨complete.distinct, by simp⟩
  simp only [layout, if_neg complete.labelled, if_neg complete.declared, counted, unrepeated]
  cases schema.stride <;> rfl

theorem extent_mod_four (schema : VertexSchema) : schema.extent % 4 = 2 * (narrowCount schema.attributes % 2) :=
  sum_sizes_mod_four schema.attributes

theorem extent_unaligned_iff (schema : VertexSchema) :
    schema.extent % 4 ≠ 0 ↔ Odd (narrowCount schema.attributes) := by
  rw [extent_mod_four, Nat.odd_iff]
  omega

theorem warnings_events (schema : VertexSchema) (layout : VertexLayout) :
    (schema.events layout).filter (·.level = .warn) =
      if schema.extent % 4 = 0 then [] else [.stridePadded schema.label schema.extent layout.stride] := by
  unfold events
  split <;> simp [Event.level]

theorem offset_mod_four {schema : VertexSchema} {i : Nat} {a : PlacedAttribute}
    (placed : schema.placed[i]? = some a) :
    a.offset % 4 = 2 * (narrowCount (schema.attributes.take i) % 2) := by
  rw [offset_eq_sum_take placed, Nat.zero_add]
  exact sum_sizes_mod_four _

/-- The same declaration with another rounding of its stride. -/
def withRounding (schema : VertexSchema) (rounding : StrideRounding) : VertexSchema :=
  { schema with rounding := rounding }

/-- What a complete declaration resolves to once its stride is accepted. -/
def layoutOf (schema : VertexSchema) (count stride : Nat) : VertexLayout :=
  ⟨schema.label, schema.stepMode, count, stride, schema.placed⟩

theorem Complete.withRounding {schema : VertexSchema} {count : Nat} (complete : schema.Complete count)
    (rounding : StrideRounding) : (schema.withRounding rounding).Complete count :=
  ⟨complete.labelled, complete.declared, complete.counted, complete.positive, complete.distinct⟩

theorem Complete.resolve_of_stride {schema : VertexSchema} {count stride : Nat} (complete : schema.Complete count)
    (accepted : schema.stride = .ok stride) :
    schema.resolve = ⟨schema.events (schema.layoutOf count stride), .ok (schema.layoutOf count stride)⟩ := by
  rw [resolve, complete.layout_eq, accepted]
  rfl

theorem Complete.resolve_aligned {schema : VertexSchema} {count : Nat} (complete : schema.Complete count)
    (aligned : schema.extent % 4 = 0) :
    schema.resolve = ⟨schema.events (schema.layoutOf count schema.extent),
      .ok (schema.layoutOf count schema.extent)⟩ :=
  complete.resolve_of_stride (if_pos aligned)

theorem Complete.resolve_padded {schema : VertexSchema} {count : Nat} (complete : schema.Complete count)
    (unaligned : schema.extent % 4 = 2) (pads : schema.rounding = .pad) :
    schema.resolve = ⟨schema.events (schema.layoutOf count (schema.extent + 2)),
      .ok (schema.layoutOf count (schema.extent + 2))⟩ := by
  have rounded : roundUp schema.extent 4 = schema.extent + 2 := by
    rw [roundUp, stepsCovering, if_neg (by omega)]
    omega
  refine complete.resolve_of_stride ?_
  simp only [VertexSchema.stride, unaligned, pads, rounded]
  rfl

theorem stride_refused {schema : VertexSchema} (refuses : schema.rounding = .refuse)
    (unaligned : schema.extent % 4 ≠ 0) :
    schema.stride = .error (.unalignedStride schema.label schema.extent) := by
  simp only [stride, if_neg unaligned, refuses]

theorem Complete.resolve_refused {schema : VertexSchema} {count : Nat} (complete : schema.Complete count)
    (unaligned : schema.extent % 4 = 2) (refuses : schema.rounding = .refuse) :
    schema.resolve = ⟨[], .error (.unalignedStride schema.label schema.extent)⟩ := by
  rw [resolve, complete.layout_eq, stride_refused refuses (by omega)]
  rfl

/-- The parity of the narrow formats decides alignment throughout. An attribute starts on a word where
their number before it is even, half a word off where it is odd. If they are odd in all, padding adds
half a word and warns of it before anything else, and refusing fails; if not, the two agree and
nothing is warned of. -/
theorem narrow_formats_decide_alignment {schema : VertexSchema} {count : Nat} (complete : schema.Complete count) :
    let padding := (schema.withRounding .pad).resolve
    let refusing := (schema.withRounding .refuse).resolve
    let narrow := narrowCount schema.attributes
    (∀ (i : Nat) (a : PlacedAttribute), schema.placed[i]? = some a →
      let before := narrowCount (schema.attributes.take i)
      Even a.offset ∧ (a.word? = none ↔ Odd before) ∧ (¬ Odd before → a.word? = some (a.offset / 4))) ∧
      (¬ 4 ∣ schema.extent ↔ Odd narrow) ∧
      (Odd narrow →
        padding.result = .ok (schema.layoutOf count (schema.extent + 2)) ∧
          padding.events.filter (·.level = .warn) =
            [.stridePadded schema.label schema.extent (schema.extent + 2)] ∧
          padding.events.head? = some (.stridePadded schema.label schema.extent (schema.extent + 2)) ∧
          refusing = ⟨[], .error (.unalignedStride schema.label schema.extent)⟩) ∧
      (¬ Odd narrow →
        padding.result = .ok (schema.layoutOf count schema.extent) ∧ refusing = padding ∧
          padding.events.filter (·.level = .warn) = []) := by
  intro padding refusing narrow
  have pads := complete.withRounding .pad
  have refuses := complete.withRounding .refuse
  refine ⟨?_, ?_, ?_, ?_⟩
  · intro i a placed before
    have parity := offset_mod_four placed
    refine ⟨Nat.even_iff.mpr (by omega), a.word?_eq_none_iff parity, a.word?_of_not_odd parity⟩
  · rw [Nat.dvd_iff_mod_eq_zero]
    exact schema.extent_unaligned_iff
  · intro odd
    have unaligned : schema.extent % 4 = 2 := by
      rw [extent_mod_four, Nat.odd_iff.mp odd]
    have notAligned : ¬ (schema.withRounding .pad).extent % 4 = 0 := fun aligned => by
      cases unaligned.symm.trans aligned
    have padded : padding = _ := pads.resolve_padded unaligned rfl
    refine ⟨congrArg Outcome.result padded, ?_, ?_, refuses.resolve_refused unaligned rfl⟩
    · rw [padded, warnings_events]
      exact if_neg notAligned
    · rw [padded, events, if_neg notAligned]
      rfl
  · intro even
    have aligned : schema.extent % 4 = 0 := by
      rw [extent_mod_four]
      rw [Nat.odd_iff] at even
      omega
    have padded : padding = _ := pads.resolve_aligned aligned
    refine ⟨congrArg Outcome.result padded, (refuses.resolve_aligned aligned).trans padded.symm, ?_⟩
    rw [padded, warnings_events]
    exact if_pos aligned

/-- One narrow format before a wide one, and the same with a second narrow format behind it. -/
theorem narrow_formats_decide_alignment_of_one_and_two :
    let one : VertexSchema :=
      { label := "v", elements := some 4, attributes := [⟨0, "id", .uint8x2⟩, ⟨1, "position", .float32x3⟩] }
    let two : VertexSchema := one.addAttribute 2 "flags" .unorm8x2
    let position : PlacedAttribute := ⟨⟨1, "position", .float32x3⟩, 2⟩
    one.Complete 4 ∧ two.Complete 4 ∧ one.placed[1]? = some position ∧ position.word? = none ∧
      (one.withRounding .pad).resolve.events.filter (·.level = .warn) = [.stridePadded "v" 14 16] ∧
      (one.withRounding .refuse).resolve = ⟨[], .error (.unalignedStride "v" 14)⟩ ∧
      (two.withRounding .refuse).resolve.result = .ok (two.layoutOf 4 16) := by
  intro one two position
  have first : one.Complete 4 := ⟨by decide, by decide, rfl, by decide, by decide⟩
  have second : two.Complete 4 := ⟨by decide, by decide, rfl, by decide, by decide⟩
  obtain ⟨words, _, odd, _⟩ := narrow_formats_decide_alignment first
  obtain ⟨_, _, _, even⟩ := narrow_formats_decide_alignment second
  obtain ⟨_, warned, _, refused⟩ := odd (by decide)
  obtain ⟨accepted, alike, _⟩ := even (by decide)
  have unaligned := (words 1 position rfl).2.1.mpr (by decide)
  exact ⟨first, second, rfl, unaligned, warned, refused, alike ▸ accepted⟩

end VertexSchema

end GpuBuffer
