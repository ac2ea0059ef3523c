import GpuBuffer.Vertex.Layout
import GpuBuffer.Struct.Layout
import GpuBuffer.IndexList

namespace GpuBuffer

/-- A schema of any kind. -/
inductive Schema
  | vertex (schema : VertexSchema)
  | struct (schema : StructSchema)
  | index (schema : IndexSchema)
  deriving DecidableEq

/-- A layout of any kind. -/
inductive Layout
  | vertex (layout : VertexLayout)
  | struct (layout : StructLayout)
  | index (layout : IndexLayout)
  deriving DecidableEq

def Outcome.map {α β : Type} (f : α → β) (outcome : Outcome α) : Outcome β :=
  ⟨outcome.events, outcome.result.map f⟩

def Schema.resolve : Schema → Outcome Layout
  | .vertex schema => schema.resolve.map .vertex
  | .struct schema => schema.resolve.map .struct
  | .index schema => schema.resolve.map .index

instance : Resolvable Schema Layout := ⟨Schema.resolve⟩

def Layout.request : Layout → BufferRequest
  | .vertex layout => layout.request
  | .struct layout => layout.request
  | .index layout => layout.request

end GpuBuffer
