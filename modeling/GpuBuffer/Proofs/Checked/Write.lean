import GpuBuffer.Proofs.Checked.Encoding
import GpuBuffer.Proofs.Image.Answer

namespace GpuBuffer

namespace Image

/-- What a patch, or its refusal, makes of an image. -/
def carryOut (image : Image) : Except BufferError Patch → Except BufferError Unit × Image
  | .ok p => (.ok (), image.patch p)
  | .error e => (.error e, image)

theorem write_eq_carryOut (image : Image) (w : Write) :
    image.write w = image.carryOut (w.patch image.label image.size) := by
  unfold write
  cases w.patch image.label image.size <;> rfl

/-- Copies encoded bytes over the slice between two positions, which has to be there and as long. -/
def fill? (image : Image) (start stop : Nat) : Except BufferError (Array UInt8) →
    Option (Except BufferError Unit × Image)
  | .error e => some (.error e, image)
  | .ok encoded => do
    let length ← sliceLength? image.size start stop
    if encoded.size = length then some (.ok (), image.patch ⟨start, encoded.toList⟩) else none

theorem fill?_eq {image : Image} {start length : Nat} (inside : start + length ≤ image.size)
    {encoded : Except BufferError (Array UInt8)} (sized : ∀ bytes, encoded = .ok bytes → bytes.size = length) :
    image.fill? start (start + length) encoded =
      some (image.carryOut (encoded.map fun bytes => ⟨start, bytes.toList⟩)) := by
  cases encoded with
  | error e => rfl
  | ok bytes =>
    simp only [fill?, sliceLength?_of_le inside, Option.bind_eq_bind, Option.bind_some, if_pos (sized bytes rfl)]
    rfl

end Image

/-- Stores values at a target, in words. -/
def Target.write? (target : Target) (image : Image) (values : Values) :
    Option (Except BufferError Unit × Image) :=
  if values.length ≠ target.shape.arity then
    some (.error (.valueCount target.field target.shape.arity values.length), image)
  else if addressLimit ≤ target.reach then
    some (.error (.outOfBounds image.label (addressLimit - 1) image.size), image)
  else if image.size < target.reach then
    some (.error (.outOfBounds image.label target.reach image.size), image)
  else do
    let encoded ← target.shape.scalar.encodeInto? target.field target.shape.componentStart? values.numbers
      target.shape.arity 0 (zeros target.shape.size)
    image.fill? target.offset target.reach encoded

theorem Target.write?_eq {target : Target} {image : Image} {values : Values} (addressed : image.size < addressLimit)
    (small : target.shape.size < 2 ^ 32) :
    target.write? image values = some (image.carryOut (target.patch image.label image.size values)) := by
  unfold Target.write? Target.patch
  by_cases count : values.length = target.shape.arity
  · rw [if_neg (not_not.mpr count), if_neg (not_not.mpr count)]
    -- The end that is reported is the last address where the sum does not fit, and the sum where it does.
    by_cases far : addressLimit ≤ target.reach
    · rw [if_pos far, if_pos (Nat.lt_of_lt_of_le addressed far), Nat.min_eq_right (by omega)]
      rfl
    · rw [if_neg far]
      by_cases beyond : image.size < target.reach
      · rw [if_pos beyond, if_pos beyond, Nat.min_eq_left (by omega)]
        rfl
      · rw [if_neg beyond, if_neg beyond, Shape.encodeInto?_eq small ((Values.length_numbers values).trans count)]
        simp only [Option.bind_eq_bind, Option.bind_some, reach]
        rw [Image.fill?_eq (Nat.not_lt.mp beyond)]
        · rw [Shape.encode]
          cases target.shape.scalar.encodeAll target.field values.numbers <;> rfl
        · intro bytes assembled
          obtain ⟨words, _, rfl⟩ := map_eq_ok_iff.mp assembled
          exact target.shape.size_assemble words
  · rw [if_pos count, if_pos count]
    rfl

/-- Stores values for a member of the struct at `base`, in words. -/
def StructLayout.write? (layout : StructLayout) (image : Image) (base : Nat) (name : String) (values : Values) :
    Option (Except BufferError Unit × Image) :=
  match layout.named? name with
  | none => some (.error (.unknownField layout.label (.name name)), image)
  | some m =>
    if addressLimit ≤ base + m.offset then some (.error (.outOfBounds image.label (addressLimit - 1) image.size), image)
    else Target.write? ⟨m.name, base + m.offset, m.type.shape⟩ image values

theorem MemberType.size_le (type : MemberType) : type.shape.size ≤ 64 := by cases type <;> decide

theorem StructLayout.write?_eq (layout : StructLayout) {image : Image} (addressed : image.size < addressLimit)
    (base : Nat) (name : String) (values : Values) :
    layout.write? image base name values =
      some (image.carryOut (layout.patch image.label image.size base name values)) := by
  unfold StructLayout.write? StructLayout.patch
  cases found : layout.named? name with
  | none => rfl
  | some m =>
    by_cases far : addressLimit ≤ base + m.offset
    · simp only [if_pos far]
      rfl
    · simp only [if_neg far]
      exact Target.write?_eq addressed (Nat.lt_of_le_of_lt m.type.size_le (by decide))

/-- Stores values for an attribute of one element, in words. -/
def VertexLayout.write? (layout : VertexLayout) (image : Image) (element : Nat) (key : AttributeKey)
    (values : Values) : Option (Except BufferError Unit × Image) :=
  match layout.find? key with
  | none => some (.error (.unknownField layout.label key), image)
  | some a => do
    let start ← inWord? 64 (layout.elementStart element)
    if layout.elements ≤ element then do
      let reach ← inWord? 64 (start + layout.stride)
      let size ← inWord? 64 (layout.stride * layout.elements)
      some (.error (.outOfBounds layout.label reach size), image)
    else do
      let offset ← inWord? 64 (start + a.offset)
      Target.write? ⟨a.name, offset, a.format.shape⟩ image values

theorem VertexLayout.write?_eq {schema : VertexSchema} {layout : VertexLayout} (resolves : schema.ResolvesTo layout)
    (narrow : layout.stride < 2 ^ 32) {image : Image} (addressed : image.size < addressLimit) {element : Nat}
    (indexed : element < 2 ^ 32) (key : AttributeKey) (values : Values) :
    layout.write? image element key values =
      some (image.carryOut (layout.patch image.label image.size element key values)) := by
  unfold VertexLayout.write? VertexLayout.patch
  cases found : layout.find? key with
  | none => rfl
  | some a =>
    have last : layout.elementStart element + layout.stride < 2 ^ 64 := elementEnd_lt narrow indexed
    have within : a.offset + a.format.shape.size ≤ layout.stride := (record resolves).within a (mem_of_find? found)
    have start : layout.elementStart element < 2 ^ 64 := by omega
    have offset : layout.elementStart element + a.offset < 2 ^ 64 := by omega
    simp only [inWord?_of_lt start, Option.bind_eq_bind, Option.bind_some]
    by_cases beyond : layout.elements ≤ element
    -- An element that the layout lacks starts where the buffer ends, or later, so that size fits too.
    · have total : layout.stride * layout.elements ≤ layout.elementStart element := by
        rw [elementStart, Nat.mul_comm element]
        exact Nat.mul_le_mul_left layout.stride beyond
      simp only [if_pos beyond, inWord?_of_lt last, inWord?_of_lt (Nat.lt_of_le_of_lt total start), Option.bind_some]
      rfl
    · simp only [if_neg beyond, inWord?_of_lt offset, Option.bind_some]
      exact Target.write?_eq addressed (show a.format.shape.size < 2 ^ 32 by omega)

/-- Stores a run of indices, in words. -/
def IndexLayout.write? (layout : IndexLayout) (image : Image) (first : Nat) (list : List UInt32) :
    Option (Except BufferError Unit × Image) := do
  let start ← inWord? 64 (first * layout.format.size)
  let length ← inWord? 64 (list.length * layout.format.size)
  let reach ← inWord? 64 (start + length)
  if image.size < reach then some (.error (.outOfBounds image.label reach image.size), image)
  else do
    let encoded ← layout.format.scalar.encodeInto? "index" (fun i => inWord? 64 (i * layout.format.size))
      (Values.unsigned list).numbers list.length 0 (zeros (reach - start))
    image.fill? start reach encoded

theorem IndexLayout.write?_eq (layout : IndexLayout) (image : Image) {first : Nat} (indexed : first < 2 ^ 32)
    {list : List UInt32} (short : list.length < 2 ^ 61) :
    layout.write? image first list = some (image.carryOut (layout.patch image.label image.size first list)) := by
  have narrow : layout.format.size ≤ 4 := by cases layout.format <;> decide
  have start : first * layout.format.size ≤ 2 ^ 32 * 4 := Nat.mul_le_mul indexed.le narrow
  have length : list.length * layout.format.size ≤ (2 ^ 61 - 1) * 4 := Nat.mul_le_mul (by omega) narrow
  have held : list.length * layout.format.size < 2 ^ 64 := by omega
  simp only [IndexLayout.write?, IndexLayout.patch, Option.bind_eq_bind, Option.bind_some, Nat.add_sub_cancel_left,
    inWord?_of_lt (show first * layout.format.size < 2 ^ 64 by omega), inWord?_of_lt held,
    inWord?_of_lt (show first * layout.format.size + list.length * layout.format.size < 2 ^ 64 by omega)]
  by_cases beyond : image.size < first * layout.format.size + list.length * layout.format.size
  · rw [if_pos beyond, if_pos beyond]
    rfl
  · rw [if_neg beyond, if_neg beyond, IndexFormat.encodeInto?_eq held, Option.bind_some,
      Image.fill?_eq (Nat.not_lt.mp beyond)]
    · cases layout.format.scalar.encodeAll "index" (Values.unsigned list).numbers <;> rfl
    · intro bytes encoded
      obtain ⟨words, accepted, rfl⟩ := map_eq_ok_iff.mp encoded
      exact IndexFormat.length_flatten accepted

namespace Image

/-- A write in words: `none` where a sum or a product does not fit its word, where a slice is not there, or
where it is not as long as what is copied over it. -/
def write? (image : Image) : Write → Option (Except BufferError Unit × Image)
  | .vertex layout element key values => layout.write? image element key values
  | .member layout base name values => layout.write? image base name values
  | .indices layout first list => layout.write? image first list

theorem write?_eq {image : Image} (addressed : image.size < addressLimit) {w : Write} (words : w.InWords) :
    image.write? w = some (image.write w) := by
  rw [write_eq_carryOut]
  cases w with
  | vertex layout element key values =>
    obtain ⟨⟨schema, resolved⟩, narrow, indexed⟩ := words
    exact VertexLayout.write?_eq (VertexSchema.layout_eq_ok_iff.mp resolved) narrow addressed indexed key values
  | member layout base name values => exact layout.write?_eq addressed base name values
  | indices layout first list => exact layout.write?_eq image words.1 words.2

/-- A write has exactly one answer, and words are enough to come to it: no sum wraps, and no slice is taken
that is not there. The answer is the first, in the order of the checks, that applies; a field that does not
exist is shown by its name or its slot. -/
theorem write_answers {image : Image} (addressed : image.size < addressLimit) {w : Write} (words : w.InWords) :
    image.write? w = some (image.write w) ∧
      (∀ outcome, w.Answers image.label image.size outcome ↔ (image.write w).1 = outcome) ∧
      (∀ name, (AttributeKey.name name).text = name) ∧
      ∀ slot, (AttributeKey.slot slot).text = "@location(" ++ toString slot ++ ")" :=
  ⟨write?_eq addressed words, fun _ => Write.answers_iff words, fun _ => rfl, fun _ => rfl⟩

/-- The last element that a word can name, with values that nothing looks at, and a struct that would end one
byte past the last address. -/
theorem write_answers_at_last_address :
    let id : PlacedAttribute := ⟨⟨0, "id", .uint32⟩, 0⟩
    let schema : VertexSchema := { label := "v", elements := some 2, attributes := [id.toAttribute] }
    let stream : VertexLayout := ⟨"v", .perVertex, 2, 4, [id]⟩
    let struct : StructLayout := ⟨"s", .uniform, [⟨⟨"color", .vec4f⟩, 16⟩], 32, 16⟩
    let image := Image.zeroed struct.request
    let element : Write := .vertex stream (2 ^ 32 - 1) (.slot 0) (.unsigned [])
    let member : Write := .member struct (2 ^ 64 - 32) "color" (.unsigned [1, 2, 3, 4])
    schema.layout = .ok stream ∧ image.size < addressLimit ∧ element.InWords ∧ member.InWords ∧
      image.write? element = some (.error (.outOfBounds "v" (2 ^ 34) 8), image) ∧
      element.Answers "s" 32 (.error (.outOfBounds "v" (2 ^ 34) 8)) ∧
      image.write? member = some (.error (.outOfBounds "s" (2 ^ 64 - 1) 32), image) ∧
      member.Answers "s" 32 (.error (.outOfBounds "s" (2 ^ 64 - 1) 32)) := by
  intro id schema stream struct image element member
  have resolved : schema.layout = .ok stream := by decide
  have addressed : image.size < addressLimit := by decide
  have elementWords : element.InWords := ⟨⟨schema, resolved⟩, by decide⟩
  have memberWords : member.InWords := trivial
  have noElement : image.write element = (.error (.outOfBounds "v" (2 ^ 34) 8), image) := by decide
  have noRoom : image.write member = (.error (.outOfBounds "s" (2 ^ 64 - 1) 32), image) := by decide
  obtain ⟨ofElement, elementAnswers, _⟩ := write_answers addressed elementWords
  obtain ⟨ofMember, memberAnswers, _⟩ := write_answers addressed memberWords
  exact ⟨resolved, addressed, elementWords, memberWords, noElement ▸ ofElement,
    (elementAnswers _).mpr (congrArg Prod.fst noElement), noRoom ▸ ofMember,
    (memberAnswers _).mpr (congrArg Prod.fst noRoom)⟩

end Image

end GpuBuffer
