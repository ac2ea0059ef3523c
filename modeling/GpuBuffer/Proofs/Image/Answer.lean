import GpuBuffer.Proofs.Image.Bounds
import GpuBuffer.Proofs.Vertex.Image

namespace GpuBuffer

/-- The number of the lowest index that the scalar has no bytes for. -/
def Scalar.FirstMisfit (scalar : Scalar) (xs : List Number) (x : Number) : Prop :=
  ¬ scalar.Fits x ∧ ∃ i : Nat, xs[i]? = some x ∧ ∀ j < i, ∀ y, xs[j]? = some y → scalar.Fits y

namespace Scalar
variable {scalar : Scalar} {xs : List Number}

theorem isNone_bits?_iff {x : Number} : (scalar.bits? x).isNone ↔ ¬ scalar.Fits x := by
  simp [Fits]

theorem find?_misfit_eq_some_iff {x : Number} :
    xs.find? (fun x => (scalar.bits? x).isNone) = some x ↔ scalar.FirstMisfit xs x := by
  rw [find?_eq_some_iff_first, FirstMisfit, isNone_bits?_iff]
  simp only [Fits, Option.isNone_eq_false_iff]

theorem encodeAll_eq_error_iff_firstMisfit {field : String} {e : BufferError} :
    scalar.encodeAll field xs = .error e ↔ ∃ x, scalar.FirstMisfit xs x ∧ e = .valueRange field x := by
  simp only [encodeAll_eq_error_iff, find?_misfit_eq_some_iff]

theorem fits_or_firstMisfit (scalar : Scalar) (xs : List Number) :
    (∀ x ∈ xs, scalar.Fits x) ∨ ∃ x, scalar.FirstMisfit xs x := by
  cases search : xs.find? (fun x => (scalar.bits? x).isNone) with
  | none =>
    refine Or.inl fun x member => ?_
    have fits := List.find?_eq_none.mp search x member
    rwa [isNone_bits?_iff, not_not] at fits
  | some x => exact Or.inr ⟨x, find?_misfit_eq_some_iff.mp search⟩

end Scalar

/-- The answer to values for a target of a buffer of `size` bytes: the values are counted first, then the
bounds are checked, with `reach` as the end that is reported, and then the numbers one by one. -/
inductive Target.Answers (target : Target) (label : String) (size reach : Nat) (values : Values) :
    Except BufferError Unit → Prop
  | miscounted (count : values.length ≠ target.shape.arity) :
      Answers target label size reach values
        (.error (.valueCount target.field target.shape.arity values.length))
  | beyond (count : values.length = target.shape.arity) (beyond : size < target.reach) :
      Answers target label size reach values (.error (.outOfBounds label reach size))
  | misfit {x : Number} (count : values.length = target.shape.arity) (within : target.reach ≤ size)
      (misfit : target.shape.scalar.FirstMisfit values.numbers x) :
      Answers target label size reach values (.error (.valueRange target.field x))
  | stored (count : values.length = target.shape.arity) (within : target.reach ≤ size)
      (fits : ∀ x ∈ values.numbers, target.shape.scalar.Fits x) :
      Answers target label size reach values (.ok ())

namespace Target
variable {target : Target} {label : String} {size : Nat} {values : Values} {outcome : Except BufferError Unit}

theorem Answers.eq (answer : target.Answers label size (min target.reach (addressLimit - 1)) values outcome) :
    outcome = (target.patch label size values).map fun _ => () := by
  symm
  cases answer with
  | miscounted count =>
    simp only [patch, if_pos count]
    rfl
  | beyond count beyond =>
    simp only [patch, if_neg (not_not.mpr count), if_pos beyond]
    rfl
  | misfit count within misfit =>
    simp only [patch, if_neg (not_not.mpr count), if_neg (Nat.not_lt.mpr within), map_eq_error_iff,
      Shape.encode, Scalar.encodeAll_eq_error_iff_firstMisfit]
    exact ⟨_, misfit, rfl⟩
  | stored count within fits =>
    rw [map_eq_ok_iff]
    exact ⟨_, patch_eq_ok_iff.mpr ⟨count, within, fits, rfl⟩, rfl⟩

theorem exists_answers (target : Target) (label : String) (size reach : Nat) (values : Values) :
    ∃ outcome, target.Answers label size reach values outcome := by
  by_cases count : values.length = target.shape.arity
  · rcases Nat.lt_or_ge size target.reach with beyond | within
    · exact ⟨_, .beyond count beyond⟩
    · rcases target.shape.scalar.fits_or_firstMisfit values.numbers with fits | ⟨x, misfit⟩
      · exact ⟨_, .stored count within fits⟩
      · exact ⟨_, .misfit count within misfit⟩
  · exact ⟨_, .miscounted count⟩

end Target

/-- The answer to values for a member of the struct at `base`. Whether the member starts at an address at
all is asked before its values are counted. No end beyond the last address is reported but as that. -/
inductive StructLayout.Answers (layout : StructLayout) (label : String) (size base : Nat) (name : String)
    (values : Values) : Except BufferError Unit → Prop
  | unknown (absent : ∀ m ∈ layout.members, m.name ≠ name) :
      Answers layout label size base name values (.error (.unknownField layout.label (.name name)))
  | unaddressable {m : PlacedMember} (found : layout.named? name = some m) (beyond : addressLimit ≤ base + m.offset) :
      Answers layout label size base name values (.error (.outOfBounds label (addressLimit - 1) size))
  | reached {m : PlacedMember} {outcome : Except BufferError Unit} (found : layout.named? name = some m)
      (within : base + m.offset < addressLimit)
      (answer : (StructLayout.target base m).Answers label size
        (min (StructLayout.target base m).reach (addressLimit - 1)) values outcome) :
      Answers layout label size base name values outcome

namespace StructLayout
variable {layout : StructLayout} {label : String} {size base : Nat} {name : String} {values : Values}
  {outcome : Except BufferError Unit}

theorem named?_eq_none_iff : layout.named? name = none ↔ ∀ m ∈ layout.members, m.name ≠ name := by
  simp [named?]

theorem Answers.eq (answer : layout.Answers label size base name values outcome) :
    outcome = (layout.patch label size base name values).map fun _ => () := by
  cases answer with
  | unknown absent =>
    simp only [patch, named?_eq_none_iff.mpr absent]
    rfl
  | unaddressable found beyond =>
    simp only [patch, found, if_pos beyond]
    rfl
  | reached found within answer =>
    simp only [patch, found, if_neg (Nat.not_le.mpr within)]
    exact answer.eq

theorem exists_answers (layout : StructLayout) (label : String) (size base : Nat) (name : String)
    (values : Values) : ∃ outcome, layout.Answers label size base name values outcome := by
  cases found : layout.named? name with
  | none => exact ⟨_, .unknown (named?_eq_none_iff.mp found)⟩
  | some m =>
    rcases Nat.lt_or_ge (base + m.offset) addressLimit with within | beyond
    · obtain ⟨_, answer⟩ := (StructLayout.target base m).exists_answers label size _ values
      exact ⟨_, .reached found within answer⟩
    · exact ⟨_, .unaddressable found beyond⟩

end StructLayout

/-- What an attribute is addressed by is its own. -/
def AttributeKey.Names : AttributeKey → Attribute → Prop
  | .name field, a => a.name = field
  | .slot location, a => a.slot = location

instance (key : AttributeKey) (a : Attribute) : Decidable (key.Names a) :=
  match key with
  | .name field => inferInstanceAs (Decidable (a.name = field))
  | .slot location => inferInstanceAs (Decidable (a.slot = location))

/-- The answer to values for an attribute of one element. Whether the layout has the element is asked
first, and answered for the layout. All ends are reported exactly. -/
inductive VertexLayout.Answers (layout : VertexLayout) (label : String) (size element : Nat) (key : AttributeKey)
    (values : Values) : Except BufferError Unit → Prop
  | unknown (absent : ∀ a ∈ layout.attributes, ¬ key.Names a.toAttribute) :
      Answers layout label size element key values (.error (.unknownField layout.label key))
  | noElement {a : PlacedAttribute} (found : layout.find? key = some a) (beyond : layout.elements ≤ element) :
      Answers layout label size element key values
        (.error (.outOfBounds layout.label ((element + 1) * layout.stride) (layout.stride * layout.elements)))
  | reached {a : PlacedAttribute} {outcome : Except BufferError Unit} (found : layout.find? key = some a)
      (inside : element < layout.elements)
      (answer : (layout.target element a).Answers label size (layout.target element a).reach values outcome) :
      Answers layout label size element key values outcome

namespace VertexLayout
variable {layout : VertexLayout} {label : String} {size element : Nat} {key : AttributeKey} {values : Values}
  {outcome : Except BufferError Unit}

theorem find?_eq_none_iff_names :
    layout.find? key = none ↔ ∀ a ∈ layout.attributes, ¬ key.Names a.toAttribute := by
  cases key <;> simp [find?, named?, atSlot?, AttributeKey.Names]

/-- Every element, also one that the layout does not have, ends below the last address. -/
theorem elementEnd_lt (narrow : layout.stride < 2 ^ 32) (indexed : element < 2 ^ 32) :
    layout.elementStart element + layout.stride < addressLimit := by
  have product : (element + 1) * layout.stride ≤ 2 ^ 32 * (2 ^ 32 - 1) := Nat.mul_le_mul (by omega) (by omega)
  rw [Nat.add_one_mul] at product
  unfold elementStart addressLimit
  omega

theorem Answers.eq {schema : VertexSchema} (resolves : schema.ResolvesTo layout) (narrow : layout.stride < 2 ^ 32)
    (indexed : element < 2 ^ 32) (answer : layout.Answers label size element key values outcome) :
    outcome = (layout.patch label size element key values).map fun _ => () := by
  cases answer with
  | unknown absent =>
    simp only [patch, find?_eq_none_iff_names.mpr absent]
    rfl
  | noElement found beyond =>
    simp only [patch, found, if_pos beyond, elementStart, Nat.add_one_mul]
    rfl
  | @reached a _ found inside answer =>
    have within : a.offset + a.format.shape.size ≤ layout.stride := (record resolves).within a (mem_of_find? found)
    have last := elementEnd_lt narrow indexed
    have exact : min (layout.target element a).reach (addressLimit - 1) = (layout.target element a).reach := by
      refine Nat.min_eq_left ?_
      simp only [Target.reach, VertexLayout.target]
      omega
    rw [← exact] at answer
    simp only [patch, found, if_neg (Nat.not_le.mpr inside)]
    exact answer.eq

theorem exists_answers (layout : VertexLayout) (label : String) (size element : Nat) (key : AttributeKey)
    (values : Values) : ∃ outcome, layout.Answers label size element key values outcome := by
  cases found : layout.find? key with
  | none => exact ⟨_, .unknown (find?_eq_none_iff_names.mp found)⟩
  | some a =>
    rcases Nat.lt_or_ge element layout.elements with inside | beyond
    · obtain ⟨_, answer⟩ := (layout.target element a).exists_answers label size _ values
      exact ⟨_, .reached found inside answer⟩
    · exact ⟨_, .noElement found beyond⟩

end VertexLayout

/-- The answer to a run of indices. -/
inductive IndexLayout.Answers (layout : IndexLayout) (label : String) (size first : Nat) (list : List UInt32) :
    Except BufferError Unit → Prop
  | beyond (beyond : size < (first + list.length) * layout.format.size) :
      Answers layout label size first list
        (.error (.outOfBounds label ((first + list.length) * layout.format.size) size))
  | misfit {x : Number} (within : (first + list.length) * layout.format.size ≤ size)
      (misfit : layout.format.scalar.FirstMisfit (Values.unsigned list).numbers x) :
      Answers layout label size first list (.error (.valueRange "index" x))
  | stored (within : (first + list.length) * layout.format.size ≤ size)
      (fits : ∀ x ∈ (Values.unsigned list).numbers, layout.format.scalar.Fits x) :
      Answers layout label size first list (.ok ())

namespace IndexLayout
variable {layout : IndexLayout} {label : String} {size first : Nat} {list : List UInt32}
  {outcome : Except BufferError Unit}

theorem Answers.eq (answer : layout.Answers label size first list outcome) :
    outcome = (layout.patch label size first list).map fun _ => () := by
  symm
  cases answer with
  | beyond beyond =>
    rw [Nat.add_mul] at beyond
    simp only [patch, if_pos beyond, Nat.add_mul]
    rfl
  | misfit within misfit =>
    rw [Nat.add_mul] at within
    simp only [patch, if_neg (Nat.not_lt.mpr within), map_eq_error_iff,
      Scalar.encodeAll_eq_error_iff_firstMisfit]
    exact ⟨_, misfit, rfl⟩
  | stored within fits =>
    rw [Nat.add_mul] at within
    rw [map_eq_ok_iff]
    exact ⟨_, patch_eq_ok_iff.mpr ⟨within, fits, rfl⟩, rfl⟩

theorem exists_answers (layout : IndexLayout) (label : String) (size first : Nat) (list : List UInt32) :
    ∃ outcome, layout.Answers label size first list outcome := by
  rcases Nat.lt_or_ge size ((first + list.length) * layout.format.size) with beyond | within
  · exact ⟨_, .beyond beyond⟩
  · rcases layout.format.scalar.fits_or_firstMisfit (Values.unsigned list).numbers with fits | ⟨x, misfit⟩
    · exact ⟨_, .stored within fits⟩
    · exact ⟨_, .misfit within misfit⟩

end IndexLayout

namespace Write

/-- The answer to a write into a buffer of this label and size. -/
def Answers (w : Write) (label : String) (size : Nat) : Except BufferError Unit → Prop :=
  match w with
  | .vertex layout element key values => layout.Answers label size element key values
  | .member layout base name values => layout.Answers label size base name values
  | .indices layout first list => layout.Answers label size first list

/-- What is computed with unchecked is small enough: an element and the stride of a resolved layout are
32-bit words, as is a first index, and a list of indices is no longer than memory allows. -/
def InWords : Write → Prop
  | .vertex layout element _ _ => (∃ schema : VertexSchema, schema.layout = .ok layout) ∧ layout.stride < 2 ^ 32 ∧
      element < 2 ^ 32
  | .member .. => True
  | .indices _ first list => first < 2 ^ 32 ∧ list.length < 2 ^ 61

theorem Answers.eq {w : Write} (words : w.InWords) {label : String} {size : Nat} {outcome : Except BufferError Unit}
    (answer : w.Answers label size outcome) : outcome = (w.patch label size).map fun _ => () := by
  cases w with
  | vertex layout element key values =>
    obtain ⟨⟨schema, resolved⟩, narrow, indexed⟩ := words
    exact VertexLayout.Answers.eq (VertexSchema.layout_eq_ok_iff.mp resolved) narrow indexed answer
  | member layout base name values => exact StructLayout.Answers.eq answer
  | indices layout first list => exact IndexLayout.Answers.eq answer

theorem exists_answers (w : Write) (label : String) (size : Nat) : ∃ outcome, w.Answers label size outcome := by
  cases w with
  | vertex layout element key values => exact layout.exists_answers label size element key values
  | member layout base name values => exact layout.exists_answers label size base name values
  | indices layout first list => exact layout.exists_answers label size first list

/-- A write has one answer, the one that the checks in their order come to. -/
theorem answers_iff {w : Write} (words : w.InWords) {image : Image} {outcome : Except BufferError Unit} :
    w.Answers image.label image.size outcome ↔ (image.write w).1 = outcome := by
  rw [Image.result_write]
  constructor
  · intro answer
    exact (answer.eq words).symm
  · rintro rfl
    obtain ⟨_, answer⟩ := w.exists_answers image.label image.size
    exact answer.eq words ▸ answer

end Write

end GpuBuffer
