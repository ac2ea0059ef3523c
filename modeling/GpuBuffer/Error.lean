import GpuBuffer.Number.Shortest

namespace GpuBuffer

/-- A vertex attribute is addressed by its name or by its shader slot. -/
inductive AttributeKey
  | name (field : String)
  | slot (location : Nat)
  deriving DecidableEq

def AttributeKey.text : AttributeKey → String
  | .name field => field
  | .slot location => s!"@location({location})"

/-- What a schema lacks. -/
inductive Missing
  | label
  | fields
  | countOfElements
  | anyElement
  | anyIndex
  deriving DecidableEq

def Missing.text : Missing → String
  | .label => "label is empty"
  | .fields => "no fields declared"
  | .countOfElements => "element count not set"
  | .anyElement => "element count is zero"
  | .anyIndex => "index count is zero"

/-- A mistake in a schema, or in the data written through a layout. -/
inductive BufferError
  | unsupportedType (tag : String)
  | incomplete (label : String) (missing : Missing)
  | unknownField (label : String) (key : AttributeKey)
  | duplicateField (label name : String)
  | unalignedStride (label : String) (extent : Nat)
  | valueCount (field : String) (expected got : Nat)
  | valueRange (field : String) (value : Number)
  | outOfBounds (label : String) (reach size : Nat)
  deriving DecidableEq

def BufferError.message : BufferError → String
  | .unsupportedType tag => s!"unsupported type tag `{tag}`"
  | .incomplete label missing => s!"incomplete descriptor `{label}`: {missing.text}"
  | .unknownField label key => s!"descriptor `{label}` has no field `{key.text}`"
  | .duplicateField label name => s!"descriptor `{label}` declares field `{name}` more than once"
  | .unalignedStride label extent =>
    s!"vertex stride of `{label}` is {extent} bytes, not a multiple of 4"
  | .valueCount field expected got => s!"field `{field}` takes {expected} component(s), got {got}"
  | .valueRange field value => s!"value {value.text} does not fit field `{field}`"
  | .outOfBounds label reach size =>
    s!"write into `{label}` ends at byte {reach}, buffer holds {size}"

end GpuBuffer
