import GpuBuffer.Proofs.Image.Frame
import Mathlib.Data.List.Pairwise

namespace GpuBuffer

/-- Fields that lie apart in a record of `stride` bytes. -/
structure Record (φ : Type) where
  stride : Nat
  fields : List φ
  offset : φ → Nat
  shape : φ → Shape
  within : ∀ f ∈ fields, offset f + (shape f).size ≤ stride
  ordered : fields.Pairwise fun f g => offset f + (shape f).size ≤ offset g

/-- Component `i` as its bytes show it: the encoding of what was stored last, or zeros if nothing was. -/
inductive Shape.Shows (shape : Shape) (i : Nat) (bytes : List UInt8) : Option Values → Prop
  | last {values : Values} {x : Number} {bits : Nat} (chosen : values.numbers[i]? = some x)
      (encoded : shape.scalar.bits? x = some bits) (found : bytes = littleEndian shape.scalar.width bits) :
      Shows shape i bytes (some values)
  | blank (found : bytes = List.replicate shape.scalar.width 0) : Shows shape i bytes none

namespace Record
variable {φ : Type} (R : Record φ)

def start (k : Nat) (f : φ) : Nat :=
  k * R.stride + R.offset f

theorem start_within {count k : Nat} {f : φ} (index : k < count) (member : f ∈ R.fields) :
    R.start k f + (R.shape f).size ≤ count * R.stride := by
  have inside := R.within f member
  have step := Nat.mul_le_mul_right R.stride (Nat.succ_le_of_lt index)
  rw [Nat.succ_mul] at step
  unfold start
  omega

def Apart (f g : φ) : Prop :=
  R.offset f + (R.shape f).size ≤ R.offset g ∨ R.offset g + (R.shape g).size ≤ R.offset f

instance : Std.Symm R.Apart := ⟨fun _ _ => Or.symm⟩

theorem fields_apart {f g : φ} (first : f ∈ R.fields) (second : g ∈ R.fields) (different : f ≠ g) :
    R.Apart f g := by
  have pairwise : R.fields.Pairwise R.Apart := R.ordered.imp Or.inl
  exact pairwise.forall first second different

/-- Two fields share a byte only if they are the same field of the same record. -/
theorem starts_apart {j k : Nat} {f g : φ} (first : f ∈ R.fields) (second : g ∈ R.fields)
    (different : ¬ (k = j ∧ g = f)) :
    R.start j f + (R.shape f).size ≤ R.start k g ∨ R.start k g + (R.shape g).size ≤ R.start j f := by
  have fInside := R.within f first
  have gInside := R.within g second
  unfold start
  rcases Nat.lt_trichotomy j k with before | rfl | after
  · have step := Nat.mul_le_mul_right R.stride (Nat.succ_le_of_lt before)
    rw [Nat.succ_mul] at step
    omega
  · have apart := R.fields_apart first second fun same => different ⟨rfl, same.symm⟩
    unfold Apart at apart
    omega
  · have step := Nat.mul_le_mul_right R.stride (Nat.succ_le_of_lt after)
    rw [Nat.succ_mul] at step
    omega

/-- An image of `count` records that shows, at each component of each field, what was stored in
that field, and zeros at all other bytes. -/
structure Shows (count : Nat) (stored : Nat → φ → Option Values) (image : Image) : Prop where
  size : image.size = count * R.stride
  component : ∀ k < count, ∀ f ∈ R.fields, ∀ i < (R.shape f).arity,
    (R.shape f).Shows i
      (image.read (R.start k f + (R.shape f).componentStart i) (R.shape f).scalar.width) (stored k f)
  gap : ∀ p < image.size,
    (∀ k < count, ∀ f ∈ R.fields, ∀ i < (R.shape f).arity,
      p < R.start k f + (R.shape f).componentStart i ∨
        R.start k f + (R.shape f).componentStart i + (R.shape f).scalar.width ≤ p) →
    image.bytes[p]? = some 0

variable {R}

theorem Shows.zeroed {count : Nat} {request : BufferRequest} (size : request.size = count * R.stride) :
    R.Shows count (fun _ _ => none) (Image.zeroed request) where
  size := (Image.size_zeroed request).trans size
  component := by
    intro k index f member i inside
    have fits := R.start_within index member
    have component := (R.shape f).component_within inside
    exact .blank (Image.read_zeroed (by omega))
  gap := by
    intro p inside _
    exact Image.getElem?_zeroed (by rwa [Image.size_zeroed] at inside)

/-- Storing values in one field shows them there and disturbs no other field and no padding. -/
theorem Shows.store [DecidableEq φ] {count k : Nat} {f : φ} {values : Values}
    {stored : Nat → φ → Option Values} {image : Image} (shown : R.Shows count stored image)
    (index : k < count) (member : f ∈ R.fields) (complete : values.length = (R.shape f).arity)
    (fits : ∀ x ∈ values.numbers, (R.shape f).scalar.Fits x) :
    R.Shows count (fun j g => if k = j ∧ f = g then some values else stored j g)
      (image.patch ⟨R.start k f, (R.shape f).stored values.numbers⟩) := by
  have count_numbers : values.numbers.length = (R.shape f).arity := by rwa [Values.length_numbers]
  have room : (Patch.mk (R.start k f) ((R.shape f).stored values.numbers)).reach ≤ image.size := by
    rw [Patch.reach, Shape.length_stored, shown.size]
    exact R.start_within index member
  refine ⟨by rw [Image.size_patch, shown.size], ?_, ?_⟩
  · intro j below g other i inside
    have component := (R.shape g).component_within inside
    -- The patch answers for the field it stores. All others lie apart from it.
    by_cases same : k = j ∧ f = g
    · obtain ⟨rfl, rfl⟩ := same
      rw [if_pos ⟨rfl, rfl⟩, Image.read_patch_inside room (by simpa using component)]
      obtain ⟨x, atIndex⟩ : ∃ x, values.numbers[i]? = some x :=
        ⟨_, List.getElem?_eq_getElem (by omega)⟩
      obtain ⟨bits, encoded⟩ := Option.isSome_iff_exists.mp (fits x (List.mem_of_getElem? atIndex))
      refine .last atIndex encoded ?_
      rw [(R.shape f).stored_component count_numbers atIndex, Scalar.stored, encoded, Option.getD_some]
    · rw [if_neg same, Image.read_patch_outside]
      · exact shown.component j below g other i inside
      · have apart := R.starts_apart other member same
        simp only [Patch.reach, Shape.length_stored]
        omega
  · intro p inside between
    rw [Image.size_patch] at inside
    -- A byte between the field's own components is padding that the patch brings along as zero.
    by_cases covered : R.start k f ≤ p ∧ p < R.start k f + (R.shape f).size
    · obtain ⟨q, rfl⟩ : ∃ q, p = R.start k f + q := ⟨p - R.start k f, by omega⟩
      rw [Image.getElem?_patch_inside room (by simp only [Shape.length_stored]; omega)]
      refine (R.shape f).stored_gap count_numbers (by omega) fun i bound => ?_
      have outside := between k index f member i bound
      omega
    · rw [Image.getElem?_patch_outside _ (by simp only [Patch.reach, Shape.length_stored]; omega)]
      exact shown.gap p inside between

end Record

structure RecordWrite (κ : Type) where
  index : Nat
  key : κ
  values : Values

/-- The values of the last of the requests that resolve to field `f` of record `k`. -/
def lastValues {κ φ : Type} [DecidableEq φ] (find? : κ → Option φ) (requests : List (RecordWrite κ))
    (k : Nat) (f : φ) : Option Values :=
  (requests.filter fun r => r.index = k ∧ find? r.key = some f).getLast?.map (·.values)

theorem lastValues_cons {κ φ : Type} [DecidableEq φ] (find? : κ → Option φ) (r : RecordWrite κ)
    (rest : List (RecordWrite κ)) (k : Nat) (f : φ) :
    lastValues find? (r :: rest) k f =
      (lastValues find? rest k f).or (if r.index = k ∧ find? r.key = some f then some r.values else none) := by
  unfold lastValues
  by_cases aimed : r.index = k ∧ find? r.key = some f
  · rw [List.filter_cons_of_pos (by simpa using aimed), List.getLast?_cons, if_pos aimed]
    cases (rest.filter fun r => r.index = k ∧ find? r.key = some f).getLast? <;> rfl
  · rw [List.filter_cons_of_neg (by simpa using aimed), if_neg aimed, Option.or_none]

namespace Image

/-- The requests of a run whose writes were accepted, in order. -/
def carriedOut {ρ : Type} (image : Image) (write : ρ → Write) : List ρ → List ρ
  | [] => []
  | r :: rest =>
    match image.write (write r) with
    | (.ok (), next) => r :: next.carriedOut write rest
    | (.error _, next) => next.carriedOut write rest

theorem writeAll_cons (image : Image) (w : Write) (rest : List Write) :
    image.writeAll (w :: rest) = (image.write w).2.writeAll rest := rfl

end Image

namespace Record
variable {φ κ : Type} {R : Record φ}

/-- Every accepted write of a request stores its values in the field that the request resolves to. -/
def ReachedBy (R : Record φ) (count : Nat) (find? : κ → Option φ) (write : RecordWrite κ → Write) : Prop :=
  ∀ r label p, (write r).patch label (count * R.stride) = .ok p →
    ∃ f, find? r.key = some f ∧ f ∈ R.fields ∧ r.index < count ∧
      r.values.length = (R.shape f).arity ∧ (∀ x ∈ r.values.numbers, (R.shape f).scalar.Fits x) ∧
      p = ⟨R.start r.index f, (R.shape f).stored r.values.numbers⟩

/-- After any run of requests an image shows, in each field, the last values stored there. -/
theorem Shows.run [DecidableEq φ] {count : Nat} {find? : κ → Option φ} {write : RecordWrite κ → Write}
    (reached : R.ReachedBy count find? write) {stored : Nat → φ → Option Values} {image : Image}
    (shown : R.Shows count stored image) (requests : List (RecordWrite κ)) :
    R.Shows count (fun k f => (lastValues find? (image.carriedOut write requests) k f).or (stored k f))
      (image.writeAll (requests.map write)) := by
  induction requests generalizing image stored with
  | nil => exact shown
  | cons r rest ih =>
    rcases image.write_cases (write r) with ⟨e, _, refused⟩ | ⟨p, patched, accepted⟩
    · simp only [Image.carriedOut, Image.writeAll_cons, List.map_cons, refused]
      exact ih shown
    · have sized := shown.size ▸ patched
      obtain ⟨f, found, member, index, complete, fits, rfl⟩ := reached r _ _ sized
      have stepped := ih (shown.store index member complete fits)
      simp only [Image.carriedOut, Image.writeAll_cons, List.map_cons, accepted]
      convert stepped using 3 with k g
      simp only [lastValues_cons, Option.or_assoc, found, Option.some.injEq]
      split <;> rfl

end Record

end GpuBuffer
