import GpuBuffer.Proofs.Image.Write

namespace GpuBuffer.Image

/-- A write is refused and leaves the image alone, or lays its patch over it. Which of the two it
is does not depend on the bytes. -/
theorem write_cases (image : Image) (w : Write) :
    (∃ e, w.patch image.label image.size = .error e ∧ image.write w = (.error e, image)) ∨
      ∃ p, w.patch image.label image.size = .ok p ∧ image.write w = (.ok (), image.patch p) := by
  unfold write
  cases w.patch image.label image.size with
  | error e => exact Or.inl ⟨e, rfl, rfl⟩
  | ok p => exact Or.inr ⟨p, rfl, rfl⟩

theorem write_of_patch {image : Image} {w : Write} {p : Patch}
    (accepted : w.patch image.label image.size = .ok p) : image.write w = (.ok (), image.patch p) := by
  simp only [write, accepted]

theorem result_write (image : Image) (w : Write) :
    (image.write w).1 = (w.patch image.label image.size).map fun _ => () := by
  unfold write
  cases w.patch image.label image.size <;> rfl

theorem write_eq_ok_iff {image : Image} {w : Write} :
    (image.write w).1 = .ok () ↔ ∃ p, w.patch image.label image.size = .ok p := by
  simp [result_write, map_eq_ok_iff]

@[simp] theorem label_write (image : Image) (w : Write) : (image.write w).2.label = image.label := by
  rcases image.write_cases w with ⟨_, _, result⟩ | ⟨_, _, result⟩
  · rw [result]
  · rw [result]
    exact image.label_patch _

@[simp] theorem size_write (image : Image) (w : Write) : (image.write w).2.size = image.size := by
  rcases image.write_cases w with ⟨_, _, result⟩ | ⟨_, _, result⟩
  · rw [result]
  · rw [result]
    exact image.size_patch _

/-- Images of one label and size accept the same writes. -/
theorem write_result_congr {image other : Image} (label : image.label = other.label)
    (size : image.size = other.size) (w : Write) : (image.write w).1 = (other.write w).1 := by
  rw [result_write, result_write, label, size]

theorem write_twice {image : Image} {w : Write} (accepted : (image.write w).1 = .ok ()) :
    (image.write w).2.write w = (.ok (), (image.write w).2) := by
  obtain ⟨p, patched⟩ := write_eq_ok_iff.mp accepted
  have again : w.patch (image.patch p).label (image.patch p).size = .ok p := by simpa using patched
  rw [write_of_patch patched, write_of_patch again, image.patch_patch]

theorem write_comm {image : Image} {w v : Write} {offset other : Nat} {payload content : Payload}
    (first : (image.write w).1 = .ok ()) (second : (image.write v).1 = .ok ())
    (aim : w.aim = some (offset, payload)) (otherAim : v.aim = some (other, content))
    (apart : offset + payload.size ≤ other ∨ other + content.size ≤ offset) :
    ((image.write w).2.write v).2 = ((image.write v).2.write w).2 := by
  obtain ⟨p, patched⟩ := write_eq_ok_iff.mp first
  obtain ⟨q, otherPatched⟩ := write_eq_ok_iff.mp second
  obtain ⟨_, atOffset, bytes, _⟩ := Write.patch_aim patched
  obtain ⟨_, atOther, otherBytes, _⟩ := Write.patch_aim otherPatched
  cases aim.symm.trans atOffset
  cases otherAim.symm.trans atOther
  have after : v.patch (image.patch p).label (image.patch p).size = .ok q := by simpa using otherPatched
  have before : w.patch (image.patch q).label (image.patch q).size = .ok p := by simpa using patched
  rw [write_of_patch patched, write_of_patch otherPatched, write_of_patch after, write_of_patch before]
  refine image.patch_comm ?_
  simpa only [Patch.reach, bytes, otherBytes, Payload.length_bytes] using apart

/-- A refused write changes nothing. An accepted one changes its target range only, to bytes that
come from its payload alone. It is accepted again and then changes nothing, it leaves every other
write accepted or refused as it was, and it commutes with those that share no byte with it. -/
theorem write_changes_only_target (image : Image) (w : Write) :
    (∀ e, (image.write w).1 = .error e → (image.write w).2 = image) ∧
      ((image.write w).1 = .ok () →
        ∃ offset payload, w.aim = some (offset, payload) ∧ offset + payload.size ≤ image.size ∧
          (image.write w).2.label = image.label ∧ (image.write w).2.size = image.size ∧
          (∀ i, i < offset ∨ offset + payload.size ≤ i →
            (image.write w).2.bytes[i]? = image.bytes[i]?) ∧
          (image.write w).2.read offset payload.size = payload.bytes ∧
          (image.write w).2.write w = (.ok (), (image.write w).2) ∧
          ∀ v, ((image.write w).2.write v).1 = (image.write v).1 ∧
            ∀ other content, (image.write v).1 = .ok () → v.aim = some (other, content) →
              offset + payload.size ≤ other ∨ other + content.size ≤ offset →
              ((image.write w).2.write v).2 = ((image.write v).2.write w).2) := by
  constructor
  · intro e refused
    rcases image.write_cases w with ⟨_, _, result⟩ | ⟨_, _, result⟩
    · rw [result]
    · rw [result] at refused
      cases refused
  · intro accepted
    obtain ⟨p, patched⟩ := write_eq_ok_iff.mp accepted
    obtain ⟨payload, aim, bytes, fits⟩ := Write.patch_aim patched
    have reach : p.reach = p.offset + payload.size := by rw [Patch.reach, bytes, payload.length_bytes]
    refine ⟨p.offset, payload, aim, reach ▸ fits, image.label_write w, image.size_write w, ?_, ?_,
      write_twice accepted, fun v => ⟨?_, ?_⟩⟩
    · intro i outside
      rw [write_of_patch patched]
      exact image.getElem?_patch_outside (reach ▸ outside)
    · have found := image.read_patch fits
      rw [write_of_patch patched]
      rwa [bytes, payload.length_bytes] at found
    · exact write_result_congr (image.label_write w) (image.size_write w) v
    · intro other content second otherAim apart
      exact write_comm accepted second aim otherAim apart

end GpuBuffer.Image
