import GpuBuffer.Outcome

namespace GpuBuffer

/-- One attribute of a vertex stream. Slots are not checked and may repeat. -/
structure Attribute where
  slot : Nat
  name : String
  format : VertexFormat
  deriving DecidableEq

/-- What to do with a packed extent that is no multiple of 4. -/
inductive StrideRounding
  | pad
  | refuse
  deriving DecidableEq

/-- The declaration of a vertex stream. -/
structure VertexSchema where
  label : String
  elements : Option Nat := none
  stepMode : StepMode := .perVertex
  rounding : StrideRounding := .pad
  attributes : List Attribute := []
  deriving DecidableEq

namespace VertexSchema

/-- A stream with its element count and step mode, and no attribute yet. -/
def ofElements (label : String) (count : Nat) (stepMode : StepMode) : VertexSchema :=
  { label := label, elements := some count, stepMode := stepMode }

def addAttribute (schema : VertexSchema) (slot : Nat) (name : String) (format : VertexFormat) : VertexSchema :=
  { schema with attributes := schema.attributes ++ [⟨slot, name, format⟩] }

/-- One step in declaring a stream. A format is given by its tag. -/
inductive Call
  | elements (count : Nat)
  | stepMode (mode : StepMode)
  | rounding (rounding : StrideRounding)
  | field (slot : Nat) (name tag : String)
  deriving DecidableEq

def apply (schema : VertexSchema) : Call → Except BufferError VertexSchema
  | .elements count => .ok { schema with elements := some count }
  | .stepMode mode => .ok { schema with stepMode := mode }
  | .rounding rounding => .ok { schema with rounding := rounding }
  | .field slot name tag => (Tagged.ofTag tag).map (schema.addAttribute slot name)

def declare (start : VertexSchema) (calls : List Call) : Except RefusedCall VertexSchema :=
  applyCalls apply 0 start calls

end VertexSchema

end GpuBuffer
