import GpuBuffer.Format.VertexFormat
import GpuBuffer.Format.MemberType
import GpuBuffer.Format.IndexFormat

namespace GpuBuffer

/-- The size of any type tag: of a vertex format, else of a member type, else of an index format.
A tag that belongs to several has one size. -/
def sizeOfTag (tag : String) : Except BufferError Nat :=
  match (Tagged.ofTag tag : Except BufferError VertexFormat) with
  | .ok format => .ok format.size
  | .error _ =>
    match (Tagged.ofTag tag : Except BufferError MemberType) with
    | .ok type => .ok type.size
    | .error _ => (Tagged.ofTag tag : Except BufferError IndexFormat).map IndexFormat.size

/-- The alignment of a member type's tag. Vertex and index formats have none. -/
def alignmentOfTag (tag : String) : Except BufferError Nat :=
  (Tagged.ofTag tag : Except BufferError MemberType).map MemberType.alignment

end GpuBuffer
