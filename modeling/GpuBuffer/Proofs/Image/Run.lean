import GpuBuffer.Proofs.Checked.Encoding
import GpuBuffer.Proofs.Index.Pieces

namespace GpuBuffer

/-- The bytes that a write stores, wherever it goes. -/
def Write.content (w : Write) : List UInt8 :=
  match w.aim with
  | some (_, payload) => payload.bytes
  | none => []

theorem Write.content_of_aim {w : Write} {start : Nat} {payload : Payload} (aim : w.aim = some (start, payload)) :
    w.content = payload.bytes := by
  simp only [content, aim]

/-- Writes that reach from `start` to `stop`, each right behind the one before it. -/
inductive Adjoin : Nat → List Write → Nat → Prop
  | nil (start : Nat) : Adjoin start [] start
  | cons {start stop : Nat} {w : Write} {payload : Payload} {rest : List Write}
      (aim : w.aim = some (start, payload)) (next : Adjoin (start + payload.size) rest stop) :
      Adjoin start (w :: rest) stop

namespace Adjoin

theorem append {start middle stop : Nat} {front back : List Write} (before : Adjoin start front middle)
    (behind : Adjoin middle back stop) : Adjoin start (front ++ back) stop := by
  induction before with
  | nil => exact behind
  | cons aim _ ih => exact .cons aim (ih behind)

theorem length_content {start stop : Nat} {writes : List Write} (adjoin : Adjoin start writes stop) :
    start + (writes.flatMap Write.content).length = stop := by
  induction adjoin with
  | nil => rfl
  | cons aim _ ih =>
    rw [List.flatMap_cons, List.length_append, Write.content_of_aim aim, Payload.length_bytes, ← Nat.add_assoc, ih]

/-- Elements of one width, each written in full. -/
theorem elements {writes : Nat → List Write} {width count : Nat}
    (each : ∀ i < count, Adjoin (i * width) (writes i) ((i + 1) * width)) :
    Adjoin 0 ((List.range count).flatMap writes) (count * width) := by
  induction count with
  | zero =>
    rw [Nat.zero_mul]
    exact .nil 0
  | succ count ih =>
    rw [List.range_succ, List.flatMap_append, List.flatMap_singleton]
    exact (ih fun i inside => each i (Nat.lt_succ_of_lt inside)).append (each count (Nat.lt_succ_self count))

/-- Together they are one patch. -/
theorem writeAll {start stop : Nat} {writes : List Write} (adjoin : Adjoin start writes stop) {image : Image}
    (accepted : ∀ w ∈ writes, (image.write w).1 = .ok ()) :
    image.writeAll writes = image.patch ⟨start, writes.flatMap Write.content⟩ := by
  induction adjoin generalizing image with
  | nil => rfl
  | @cons start stop w payload rest aim _ ih =>
    obtain ⟨first, later⟩ := List.forall_mem_cons.mp accepted
    obtain ⟨p, patched⟩ := Image.write_eq_ok_iff.mp first
    obtain ⟨content, atOffset, stored, _⟩ := Write.patch_aim patched
    cases aim.symm.trans atOffset
    have acceptedLater : ∀ v ∈ rest, ((image.patch p).write v).1 = .ok () := fun v member =>
      (Image.write_result_congr (image.label_patch p) (image.size_patch p) v).trans (later v member)
    have joined := image.patch_append p.offset payload.bytes (rest.flatMap Write.content)
    rw [payload.length_bytes, ← stored] at joined
    rw [Image.writeAll_cons, Image.write_of_patch patched, ih acceptedLater, List.flatMap_cons,
      Write.content_of_aim aim, ← stored]
    exact joined.symm

end Adjoin

namespace Image

theorem writeAll_append (image : Image) (front back : List Write) :
    image.writeAll (front ++ back) = (image.writeAll front).writeAll back := List.foldl_append

/-- Two images of one label and one size that have the same byte at `k`. -/
structure AgreeAt (k : Nat) (image other : Image) : Prop where
  label : image.label = other.label
  size : image.size = other.size
  byte : image.bytes[k]? = other.bytes[k]?

namespace AgreeAt
variable {k : Nat} {image other : Image}

theorem patch (agree : AgreeAt k image other) (p : Patch) : AgreeAt k (image.patch p) (other.patch p) where
  label := agree.label
  size := (image.size_patch p).trans (agree.size.trans (other.size_patch p).symm)
  byte := by
    have size : image.bytes.size = other.bytes.size := agree.size
    simp only [Image.patch, getElem?_overlay, size, agree.byte]

theorem write (agree : AgreeAt k image other) (w : Write) : AgreeAt k (image.write w).2 (other.write w).2 := by
  rcases image.write_cases w with ⟨e, patched, result⟩ | ⟨p, patched, result⟩
  · rw [agree.label, agree.size] at patched
    rw [result, write_of_refused patched]
    exact agree
  · rw [agree.label, agree.size] at patched
    rw [result, write_of_patch patched]
    exact agree.patch p

/-- What is written to both makes no difference. -/
theorem writeAll (agree : AgreeAt k image other) (writes : List Write) :
    AgreeAt k (image.writeAll writes) (other.writeAll writes) := by
  induction writes generalizing image other with
  | nil => exact agree
  | cons w rest ih =>
    rw [writeAll_cons, writeAll_cons]
    exact ih (agree.write w)

end AgreeAt

/-- Nothing of the zeros is left where every byte was written. -/
theorem zeroed_patch_full {request : BufferRequest} {bytes : List UInt8} (full : bytes.length = request.size) :
    ((Image.zeroed request).patch ⟨0, bytes⟩).bytes = bytes.toArray := by
  rw [← overlay_zeros, full]
  rfl

end Image

/-- In words of one width, a byte of the list is a byte of one of them. -/
theorem getElem?_flatMap_uniform {α β : Type} {f : α → List β} {width : Nat} (positive : 0 < width)
    (uniform : ∀ x, (f x).length = width) (xs : List α) (k : Nat) :
    (xs.flatMap f)[k]? = xs[k / width]?.bind fun x => (f x)[k % width]? := by
  cases chosen : xs[k / width]? with
  | none =>
    have beyond : xs.length * width ≤ k := by
      rw [← Nat.le_div_iff_mul_le positive]
      exact List.getElem?_eq_none_iff.mp chosen
    refine List.getElem?_eq_none ?_
    simpa only [List.length_flatMap, uniform, List.map_const', List.sum_replicate_nat] using beyond
  | some x =>
    rw [Option.bind_some, ← take_drop_flatMap uniform chosen, List.getElem?_take_of_lt (Nat.mod_lt k positive),
      List.getElem?_drop, Nat.div_add_mod']

/-- A value whose components leave no gap is stored as they are, one behind the other. -/
theorem Shape.stored_contiguous {shape : Shape} (placed : ∀ i, shape.componentStart i = i * shape.scalar.width)
    {xs : List Number} (filled : xs.length * shape.scalar.width = shape.size) :
    shape.stored xs = xs.flatMap shape.scalar.stored := by
  have uniform : ∀ word ∈ xs.map shape.scalar.stored, word.length = shape.scalar.width := by
    intro word member
    obtain ⟨x, _, rfl⟩ := List.mem_map.mp member
    exact shape.scalar.length_stored x
  have length : (xs.map shape.scalar.stored).flatten.length = shape.size := by
    simp only [← List.flatMap_def, List.length_flatMap, Scalar.length_stored, List.map_const', List.sum_replicate_nat,
      filled]
  have laid := layWords_contiguous uniform (zeros shape.size) 0
  rw [← funext placed, Nat.zero_mul, ← length, overlay_zeros, length] at laid
  rw [List.flatMap_def]
  exact congrArg Array.toList laid

end GpuBuffer
