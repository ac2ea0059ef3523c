import GpuBuffer.Device.Buffer
import GpuBuffer.Proofs.Layout
import GpuBuffer.Proofs.Struct.Tight
import Mathlib.Algebra.Ring.Parity

namespace GpuBuffer

namespace UsageFlags

def Has (flags flag : UsageFlags) : Prop :=
  flags.bits &&& flag.bits = flag.bits

instance (flags flag : UsageFlags) : Decidable (flags.Has flag) :=
  inferInstanceAs (Decidable (_ = _))

theorem ofUsage_has_copyDestination (usage : BufferUsage) : (ofUsage usage).Has copyDestination := by
  cases usage <;> decide

end UsageFlags

/-- A device that keeps buffers: it makes one from a description, tells what a buffer is, and copies bytes
into one from an offset on, or refuses to. -/
structure Device where
  Buffer : Type
  create : DeviceBuffer → Buffer
  told : Buffer → DeviceBuffer
  copy : Buffer → Nat → Array UInt8 → Option Buffer

namespace Device

/-- What is documented of a device: a buffer has the size and the flags it was made with, and whole words are
copied to a word of a buffer that is flagged for it and reaches far enough. -/
structure Documented (device : Device) : Prop where
  size_create : ∀ made, (device.told (device.create made)).size = made.size
  flags_create : ∀ made, (device.told (device.create made)).flags = made.flags
  copy_accepted : ∀ buffer offset bytes, (device.told buffer).flags.Has .copyDestination →
    copyAlignment ∣ offset → copyAlignment ∣ bytes.size → offset + bytes.size ≤ (device.told buffer).size →
    ∃ filled, device.copy buffer offset bytes = some filled

def allocate (device : Device) (request : BufferRequest) : device.Buffer :=
  device.create (DeviceBuffer.allocate request).1

/-- Fills a buffer from its start, once the host has checked that the image can be copied. -/
def upload (device : Device) (buffer : device.Buffer) (image : Image) :
    Except UploadError (Option device.Buffer) :=
  ((device.told buffer).upload image).map fun _ => device.copy buffer 0 image.bytes

def Uploads (device : Device) (buffer : device.Buffer) (image : Image) : Prop :=
  ∃ filled, device.upload buffer image = .ok (some filled)

variable {device : Device} {request made : BufferRequest} {image : Image}

theorem upload_of_short (documented : device.Documented) (short : made.size < image.size) :
    device.upload (device.allocate made) image = .error (.tooLarge image.label image.size made.size) := by
  have size : (device.told (device.allocate made)).size = made.size := documented.size_create _
  rw [upload, DeviceBuffer.upload, size, if_pos short]
  rfl

theorem upload_of_unaligned (documented : device.Documented) (room : image.size ≤ made.size)
    (unaligned : ¬ 4 ∣ image.size) :
    device.upload (device.allocate made) image = .error (.unaligned image.label image.size) := by
  have size : (device.told (device.allocate made)).size = made.size := documented.size_create _
  have remainder : image.size % copyAlignment ≠ 0 := mt Nat.dvd_of_mod_eq_zero unaligned
  rw [upload, DeviceBuffer.upload, size, if_neg (Nat.not_lt.mpr room), if_pos remainder]
  rfl

theorem uploads_of_aligned (documented : device.Documented) (room : image.size ≤ made.size)
    (aligned : 4 ∣ image.size) : device.Uploads (device.allocate made) image := by
  have size : (device.told (device.allocate made)).size = made.size := documented.size_create _
  have flags : (device.told (device.allocate made)).flags = .ofUsage made.usage := documented.flags_create _
  obtain ⟨filled, copied⟩ := documented.copy_accepted (device.allocate made) 0 image.bytes
    (flags ▸ UsageFlags.ofUsage_has_copyDestination made.usage) (Nat.dvd_zero _) aligned
    (by rw [Nat.zero_add, size]; exact room)
  have whole : image.size % copyAlignment = 0 := Nat.mod_eq_zero_of_dvd aligned
  refine ⟨filled, ?_⟩
  rw [upload, DeviceBuffer.upload, size, if_neg (Nat.not_lt.mpr room), if_neg (not_not.mpr whole), copied]
  rfl

theorem uploads_iff (documented : device.Documented) :
    device.Uploads (device.allocate made) image ↔ image.size ≤ made.size ∧ 4 ∣ image.size := by
  constructor
  · intro uploads
    obtain ⟨filled, uploaded⟩ := uploads
    have room : image.size ≤ made.size := by
      by_contra short
      cases (upload_of_short documented (Nat.not_le.mp short)).symm.trans uploaded
    refine ⟨room, ?_⟩
    by_contra unaligned
    cases (upload_of_unaligned documented room unaligned).symm.trans uploaded
  · intro fits
    exact uploads_of_aligned documented fits.1 fits.2

end Device

/-- An index list whose last index leaves half a word over. -/
def Layout.EndsMidWord : Layout → Prop
  | .vertex _ | .struct _ => False
  | .index layout => layout.format = .uint16 ∧ Odd layout.count

theorem VertexLayout.four_dvd_size {schema : VertexSchema} {layout : VertexLayout}
    (resolves : schema.ResolvesTo layout) : 4 ∣ layout.size := by
  have stride : 4 ∣ layout.stride := VertexSchema.stride_eq_roundUp resolves.stride ▸ dvd_roundUp _ 4
  exact Nat.dvd_trans stride (Nat.dvd_mul_right _ _)

theorem StructLayout.four_dvd_size {schema : StructSchema} {layout : StructLayout}
    (resolves : schema.ResolvesTo layout) : 4 ∣ layout.size :=
  resolves.size ▸ Nat.dvd_trans schema.four_dvd_alignment schema.isLeast_size.1.1

theorem IndexLayout.four_dvd_size_iff (layout : IndexLayout) :
    4 ∣ layout.size ↔ ¬ (layout.format = .uint16 ∧ Odd layout.count) := by
  obtain ⟨label, count, format⟩ := layout
  cases format with
  | uint16 =>
    change 4 ∣ 2 * count ↔ _
    simp only [true_and, Nat.not_odd_iff_even, even_iff_two_dvd]
    omega
  | uint32 =>
    change 4 ∣ 4 * count ↔ _
    simp

/-- Streams and structs are whole words. Index lists are not padded, so those of two-byte indices may end
inside one. -/
theorem Layout.four_dvd_size_iff {schema : Schema} {layout : Layout} (resolves : schema.ResolvesTo layout) :
    4 ∣ layout.request.size ↔ ¬ layout.EndsMidWord := by
  cases resolves with
  | vertex own => exact iff_of_true (VertexLayout.four_dvd_size own) id
  | struct own => exact iff_of_true (StructLayout.four_dvd_size own) id
  | @index _ layout own => exact layout.four_dvd_size_iff

/-- An image is uploaded to a buffer exactly if it fits and is whole words; one that does not fit is refused
for that, whatever its alignment. So the image of a layout, with any bytes, is uploaded to the buffer made for
that layout, except for a list of two-byte indices with an odd count, which is refused as no multiple of 4.
What the device does is documented only. -/
theorem Device.uploads_iff_fits_in_words {device : Device} (documented : device.Documented) :
    (∀ (schema : Schema) (layout : Layout) (image : Image), schema.resolve.result = .ok layout →
      image.label = layout.request.label → image.size = layout.request.size →
      let buffer := device.allocate layout.request
      (device.Uploads buffer image ↔ ¬ layout.EndsMidWord) ∧
        (layout.EndsMidWord →
          device.upload buffer image = .error (.unaligned layout.request.label layout.request.size))) ∧
      (∀ (made own : BufferRequest) (image : Image), image.label = own.label → image.size = own.size →
        let buffer := device.allocate made
        (device.Uploads buffer image ↔ own.size ≤ made.size ∧ 4 ∣ own.size) ∧
          (made.size < own.size → device.upload buffer image = .error (.tooLarge own.label own.size made.size)) ∧
          (own.size ≤ made.size → ¬ 4 ∣ own.size →
            device.upload buffer image = .error (.unaligned own.label own.size))) ∧
      copyAlignment = 4 ∧
      ∀ label size, (UploadError.unaligned label size).message =
        "staging image `" ++ label ++ "` is " ++ toString size ++ " bytes, not a multiple of " ++
          toString copyAlignment := by
  refine ⟨?_, ?_, ?_⟩
  · intro schema layout image resolved label size buffer
    have words := Layout.four_dvd_size_iff (schema.resolvesTo_of_resolve resolved)
    constructor
    · rw [uploads_iff documented, size, words]
      exact and_iff_right le_rfl
    · intro midWord
      rw [← label, ← size]
      exact upload_of_unaligned documented size.le (size ▸ fun aligned => words.mp aligned midWord)
  · intro made own image label size buffer
    rw [← label, ← size]
    exact ⟨uploads_iff documented, upload_of_short documented, upload_of_unaligned documented⟩
  · exact ⟨rfl, fun _ _ => rfl⟩

/-- A device whose buffers are descriptions with bytes. -/
def Device.inMemory : Device where
  Buffer := DeviceBuffer × Array UInt8
  create made := (made, zeros made.size)
  told buffer := buffer.1
  copy buffer offset bytes :=
    if buffer.1.flags.Has .copyDestination ∧ copyAlignment ∣ offset ∧ copyAlignment ∣ bytes.size ∧
        offset + bytes.size ≤ buffer.1.size then
      some (buffer.1, overlay buffer.2 offset bytes.toList)
    else none

theorem Device.inMemory_documented : Device.inMemory.Documented where
  size_create _ := rfl
  flags_create _ := rfl
  copy_accepted _ _ _ flagged atWord words inside := ⟨_, if_pos ⟨flagged, atWord, words, inside⟩⟩

/-- Three two-byte indices, refused by their own buffer and, before that, by one too small; and a stream whose
stride was padded. -/
theorem Device.uploads_iff_fits_in_words_of_odd_indices :
    let triangle : IndexLayout := ⟨"i", 3, .uint16⟩
    let stream : VertexLayout := ⟨"v", .perVertex, 3, 4, [⟨⟨0, "flags", .uint8x2⟩, 0⟩]⟩
    let device := Device.inMemory
    device.upload (device.allocate triangle.request) (Image.zeroed triangle.request) = .error (.unaligned "i" 6) ∧
      device.upload (device.allocate ⟨"b", 4, .index⟩) (Image.zeroed triangle.request) =
        .error (.tooLarge "i" 6 4) ∧
      device.Uploads (device.allocate stream.request) (Image.zeroed stream.request) := by
  intro triangle stream device
  have indices : (Schema.index ⟨"i", 3, .uint16⟩).resolve.result = .ok (.index triangle) := by decide
  have padded : (Schema.vertex { label := "v", elements := some 3, attributes := [⟨0, "flags", .uint8x2⟩] }
      ).resolve.result = .ok (.vertex stream) := by decide
  obtain ⟨layouts, requests, _⟩ := uploads_iff_fits_in_words inMemory_documented
  obtain ⟨_, odd⟩ := layouts _ _ (Image.zeroed triangle.request) indices rfl rfl
  obtain ⟨whole, _⟩ := layouts _ _ (Image.zeroed stream.request) padded rfl rfl
  obtain ⟨_, short, _⟩ := requests ⟨"b", 4, .index⟩ triangle.request (Image.zeroed triangle.request) rfl rfl
  exact ⟨odd ⟨rfl, by decide⟩, short (by decide), whole.mpr id⟩

end GpuBuffer
