namespace GpuBuffer

/-- What a buffer is bound as. -/
inductive BufferUsage
  | vertex
  | index
  | uniform
  | storage
  | readOnlyStorage
  deriving DecidableEq

def BufferUsage.text : BufferUsage → String
  | .vertex => "vertex"
  | .index => "index"
  | .uniform => "uniform"
  | .storage => "storage"
  | .readOnlyStorage => "read-only-storage"

/-- The ways a shader binds a struct. -/
inductive StructBinding
  | uniform
  | storage
  | readOnlyStorage
  deriving DecidableEq

namespace StructBinding

def name : StructBinding → String
  | .uniform => "Uniform"
  | .storage => "Storage"
  | .readOnlyStorage => "ReadOnlyStorage"

def usage : StructBinding → BufferUsage
  | .uniform => .uniform
  | .storage => .storage
  | .readOnlyStorage => .readOnlyStorage

end StructBinding

/-- Whether a stream advances with every vertex or with every instance. -/
inductive StepMode
  | perVertex
  | perInstance
  deriving DecidableEq

def StepMode.name : StepMode → String
  | .perVertex => "Vertex"
  | .perInstance => "Instance"

/-- What must be known of a buffer to provide its storage. -/
structure BufferRequest where
  label : String
  size : Nat
  usage : BufferUsage
  deriving DecidableEq

end GpuBuffer
