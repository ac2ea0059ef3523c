import GpuBuffer.Event
import GpuBuffer.Image.Basic

namespace GpuBuffer

/-- What a device buffer may be used for, as a set of flag bits. -/
structure UsageFlags where
  bits : Nat
  deriving DecidableEq

namespace UsageFlags

def copyDestination : UsageFlags := ⟨8⟩
def index : UsageFlags := ⟨16⟩
def vertex : UsageFlags := ⟨32⟩
def uniform : UsageFlags := ⟨64⟩
def storage : UsageFlags := ⟨128⟩

def union (a b : UsageFlags) : UsageFlags :=
  ⟨a.bits ||| b.bits⟩

/-- The flags of a buffer that is filled from the host. Storage is one flag, read-only or not. -/
def ofUsage (usage : BufferUsage) : UsageFlags :=
  union copyDestination <|
    match usage with
    | .vertex => vertex
    | .index => index
    | .uniform => uniform
    | .storage | .readOnlyStorage => storage

end UsageFlags

structure DeviceBuffer where
  label : String
  size : Nat
  flags : UsageFlags
  deriving DecidableEq

def DeviceBuffer.allocate (request : BufferRequest) : DeviceBuffer × List Event :=
  (⟨request.label, request.size, .ofUsage request.usage⟩, [.allocating request])

/-- Copies go to a device in units of this many bytes. -/
def copyAlignment : Nat := 4

inductive UploadError
  | tooLarge (label : String) (size capacity : Nat)
  | unaligned (label : String) (size : Nat)
  deriving DecidableEq

def UploadError.message : UploadError → String
  | .tooLarge label size capacity =>
    s!"staging image `{label}` ({size} bytes) does not fit buffer of {capacity} bytes"
  | .unaligned label size => s!"staging image `{label}` is {size} bytes, not a multiple of {copyAlignment}"

/-- Whether an image can be copied to the start of a buffer. -/
def DeviceBuffer.upload (buffer : DeviceBuffer) (image : Image) : Except UploadError Unit :=
  if buffer.size < image.size then .error (.tooLarge image.label image.size buffer.size)
  else if image.size % copyAlignment ≠ 0 then .error (.unaligned image.label image.size)
  else .ok ()

end GpuBuffer
