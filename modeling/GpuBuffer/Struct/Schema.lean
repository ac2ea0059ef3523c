import GpuBuffer.Outcome

namespace GpuBuffer

structure Member where
  name : String
  type : MemberType
  deriving DecidableEq

/-- The declaration of a struct that a shader binds. -/
structure StructSchema where
  label : String
  binding : StructBinding := .uniform
  members : List Member := []
  deriving DecidableEq

namespace StructSchema

def addMember (schema : StructSchema) (name : String) (type : MemberType) : StructSchema :=
  { schema with members := schema.members ++ [⟨name, type⟩] }

/-- One step in declaring a struct. A type is given by its tag. -/
inductive Call
  | binding (binding : StructBinding)
  | field (name tag : String)
  deriving DecidableEq

def apply (schema : StructSchema) : Call → Except BufferError StructSchema
  | .binding binding => .ok { schema with binding := binding }
  | .field name tag => (Tagged.ofTag tag).map (schema.addMember name)

def declare (start : StructSchema) (calls : List Call) : Except RefusedCall StructSchema :=
  applyCalls apply 0 start calls

end StructSchema

end GpuBuffer
