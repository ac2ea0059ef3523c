import GpuBuffer.Image.Basic
import Mathlib.Order.Nat

namespace GpuBuffer

/-- Windows of two lists agree where their entries do. -/
theorem take_drop_congr {α : Type} {xs ys : List α} {m n length : Nat}
    (same : ∀ k < length, xs[m + k]? = ys[n + k]?) :
    (xs.drop m).take length = (ys.drop n).take length := by
  apply List.ext_getElem?
  intro k
  by_cases inside : k < length
  · rw [List.getElem?_take_of_lt inside, List.getElem?_take_of_lt inside, List.getElem?_drop,
      List.getElem?_drop, same k inside]
  · rw [List.getElem?_eq_none (by simp only [List.length_take]; omega),
      List.getElem?_eq_none (by simp only [List.length_take]; omega)]

theorem overlay_append (bytes : Array UInt8) (start : Nat) (front back : List UInt8) :
    overlay bytes start (front ++ back) = overlay (overlay bytes start front) (start + front.length) back := by
  induction front generalizing bytes start with
  | nil => rfl
  | cons b rest ih =>
    simp only [List.cons_append, overlay, ih, List.length_cons]
    congr 1
    omega

def Patch.reach (p : Patch) : Nat :=
  p.offset + p.bytes.length

namespace Image

/-- The `length` bytes from `start` on, or as many of them as there are. -/
def read (image : Image) (start length : Nat) : List UInt8 :=
  (image.bytes.toList.drop start).take length

theorem read_congr {image other : Image} {start length : Nat}
    (same : ∀ k < length, image.bytes[start + k]? = other.bytes[start + k]?) :
    image.read start length = other.read start length :=
  take_drop_congr (by simpa only [Array.getElem?_toList] using same)

theorem eq_of_getElem? {image other : Image} (label : image.label = other.label)
    (same : ∀ i : Nat, image.bytes[i]? = other.bytes[i]?) : image = other := by
  obtain ⟨_, bytes⟩ := image
  obtain ⟨_, otherBytes⟩ := other
  cases label
  exact congrArg _ (Array.ext_getElem? same)

@[simp] theorem size_zeroed (request : BufferRequest) : (zeroed request).size = request.size := by
  simp [zeroed, size, zeros]

theorem getElem?_zeroed {request : BufferRequest} {i : Nat} (inside : i < request.size) :
    (zeroed request).bytes[i]? = some 0 := by
  simp [zeroed, zeros, inside]

theorem read_zeroed {request : BufferRequest} {start length : Nat} (inside : start + length ≤ request.size) :
    (zeroed request).read start length = List.replicate length 0 := by
  simp only [read, zeroed, zeros, Array.toList_replicate, List.drop_replicate, List.take_replicate]
  congr 1
  omega

@[simp] theorem label_patch (image : Image) (p : Patch) : (image.patch p).label = image.label := rfl

@[simp] theorem size_patch (image : Image) (p : Patch) : (image.patch p).size = image.size :=
  size_overlay _ _ _

theorem getElem?_patch_outside (image : Image) {p : Patch} {i : Nat}
    (outside : i < p.offset ∨ p.reach ≤ i) : (image.patch p).bytes[i]? = image.bytes[i]? := by
  unfold Patch.reach at outside
  rw [patch, getElem?_overlay, if_neg (by omega)]

theorem getElem?_patch_inside {image : Image} {p : Patch} (fits : p.reach ≤ image.size) {k : Nat}
    (inside : k < p.bytes.length) : (image.patch p).bytes[p.offset + k]? = p.bytes[k]? := by
  unfold Patch.reach size at fits
  rw [patch, getElem?_overlay, if_pos (by omega), Nat.add_sub_cancel_left]

theorem read_patch_outside (image : Image) {p : Patch} {start length : Nat}
    (apart : start + length ≤ p.offset ∨ p.reach ≤ start) :
    (image.patch p).read start length = image.read start length :=
  read_congr fun _ _ => image.getElem?_patch_outside (by omega)

theorem read_patch_inside {image : Image} {p : Patch} (fits : p.reach ≤ image.size) {start length : Nat}
    (within : start + length ≤ p.bytes.length) :
    (image.patch p).read (p.offset + start) length = (p.bytes.drop start).take length := by
  refine take_drop_congr fun k inside => ?_
  rw [Array.getElem?_toList, Nat.add_assoc]
  exact getElem?_patch_inside fits (by omega)

theorem read_patch (image : Image) {p : Patch} (fits : p.reach ≤ image.size) :
    (image.patch p).read p.offset p.bytes.length = p.bytes := by
  have found : (image.patch p).read (p.offset + 0) p.bytes.length = (p.bytes.drop 0).take p.bytes.length :=
    read_patch_inside fits (Nat.zero_add _).le
  simpa using found

/-- A patch takes nothing from the bytes it covers, so a second time it changes nothing. -/
theorem patch_patch (image : Image) (p : Patch) : (image.patch p).patch p = image.patch p := by
  refine eq_of_getElem? rfl fun i => ?_
  simp only [patch, getElem?_overlay, size_overlay]
  split <;> rfl

theorem patch_append (image : Image) (offset : Nat) (front back : List UInt8) :
    image.patch ⟨offset, front ++ back⟩ = (image.patch ⟨offset, front⟩).patch ⟨offset + front.length, back⟩ :=
  congrArg (Image.mk image.label) (overlay_append image.bytes offset front back)

/-- Patches that share no byte can change places. -/
theorem patch_comm (image : Image) {p q : Patch} (apart : p.reach ≤ q.offset ∨ q.reach ≤ p.offset) :
    (image.patch p).patch q = (image.patch q).patch p := by
  unfold Patch.reach at apart
  refine eq_of_getElem? rfl fun i => ?_
  simp only [patch, getElem?_overlay, size_overlay]
  by_cases first : p.offset ≤ i ∧ i < p.offset + p.bytes.length ∧ i < image.bytes.size
  · rw [if_neg (by omega), if_pos first, if_pos first]
  · rw [if_neg first, if_neg first]

end Image

end GpuBuffer
