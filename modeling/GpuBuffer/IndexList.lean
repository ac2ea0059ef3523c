import GpuBuffer.Outcome

namespace GpuBuffer

/-- The declaration of a flat list of indices. -/
structure IndexSchema where
  label : String
  count : Nat
  format : IndexFormat
  deriving DecidableEq

/-- The resolved layout of a flat list of indices. -/
structure IndexLayout where
  label : String
  count : Nat
  format : IndexFormat
  deriving DecidableEq

namespace IndexSchema

def ofTag (label : String) (count : Nat) (tag : String) : Except BufferError IndexSchema :=
  (Tagged.ofTag tag).map (IndexSchema.mk label count)

/-- The layout of a complete schema, or the first of its defects. -/
def layout (schema : IndexSchema) : Except BufferError IndexLayout :=
  if schema.label = "" then .error (.incomplete schema.label .label)
  else if schema.count = 0 then .error (.incomplete schema.label .anyIndex)
  else .ok ⟨schema.label, schema.count, schema.format⟩

def resolve (schema : IndexSchema) : Outcome IndexLayout :=
  .ofResult (fun layout => [.indexResolved layout.label layout.count layout.format]) schema.layout

instance : Resolvable IndexSchema IndexLayout := ⟨resolve⟩

end IndexSchema

namespace IndexLayout

def size (layout : IndexLayout) : Nat :=
  layout.format.size * layout.count

def request (layout : IndexLayout) : BufferRequest :=
  ⟨layout.label, layout.size, .index⟩

end IndexLayout

end GpuBuffer
