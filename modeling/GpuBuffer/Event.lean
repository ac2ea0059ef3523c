import GpuBuffer.Format.VertexFormat
import GpuBuffer.Format.MemberType
import GpuBuffer.Format.IndexFormat
import GpuBuffer.Binding

namespace GpuBuffer

inductive Level
  | trace
  | debug
  | warn
  deriving DecidableEq

def Level.text : Level → String
  | .trace => "trace"
  | .debug => "debug"
  | .warn => "warn"

/-- What the library reports while it resolves, caches and allocates. -/
inductive Event
  | stridePadded (label : String) (extent stride : Nat)
  | attributePlaced (label : String) (slot : Nat) (name : String) (format : VertexFormat) (offset : Nat)
  | vertexResolved (label : String) (fields stride elements : Nat)
  | memberPlaced (label name : String) (type : MemberType) (offset : Nat)
  | structResolved (label : String) (binding : StructBinding) (fields size alignment : Nat)
  | indexResolved (label : String) (count : Nat) (format : IndexFormat)
  | cacheHit
  | cacheMiss
  | allocating (request : BufferRequest)
  deriving DecidableEq

namespace Event

def level : Event → Level
  | .stridePadded .. => .warn
  | .attributePlaced .. | .memberPlaced .. => .trace
  | .vertexResolved .. | .structResolved .. | .indexResolved .. => .debug
  | .cacheHit | .cacheMiss | .allocating .. => .debug

def message : Event → String
  | .stridePadded label extent stride =>
    s!"vertex stride of `{label}` is {extent} bytes, not a multiple of 4; padding to {stride}"
  | .attributePlaced label slot name format offset => s!"{label}: @{slot} {name} {format.tag} +{offset}"
  | .vertexResolved label fields stride elements =>
    s!"finalized vertex layout `{label}`: {fields} field(s), stride {stride}, {elements} element(s)"
  | .memberPlaced label name type offset => s!"{label}: {name}: {type.tag} +{offset}"
  | .structResolved label binding fields size alignment =>
    s!"finalized struct layout `{label}` ({binding.name}): {fields} field(s), size {size}, align {alignment}"
  | .indexResolved label count format => s!"finalized index layout `{label}`: {count} x {format.tag}"
  | .cacheHit => "layout cache hit"
  | .cacheMiss => "layout cache miss; finalizing"
  | .allocating request =>
    s!"allocating `{request.label}`: {request.size} bytes as {request.usage.text}"

end Event

end GpuBuffer
