import GpuBuffer.Image.Bytes
import GpuBuffer.Binding

namespace GpuBuffer

/-- The host's copy of one buffer. -/
structure Image where
  label : String
  bytes : Array UInt8
  deriving DecidableEq

/-- A run of bytes and where it goes. -/
structure Patch where
  offset : Nat
  bytes : List UInt8
  deriving DecidableEq

namespace Image

def zeroed (request : BufferRequest) : Image :=
  ⟨request.label, zeros request.size⟩

def size (image : Image) : Nat :=
  image.bytes.size

def isEmpty (image : Image) : Bool :=
  image.size == 0

def patch (image : Image) (p : Patch) : Image :=
  ⟨image.label, overlay image.bytes p.offset p.bytes⟩

end Image

end GpuBuffer
