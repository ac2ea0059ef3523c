import GpuBuffer.Vertex.Schema

namespace GpuBuffer

-- The zero of a sum is the literal, whatever else is in scope.
attribute [local instance(high)] Zero.ofOfNat0

structure PlacedAttribute extends Attribute where
  offset : Nat
  deriving DecidableEq

namespace PlacedAttribute

def size (a : PlacedAttribute) : Nat :=
  a.format.size

def reach (a : PlacedAttribute) : Nat :=
  a.offset + a.size

/-- The offset in 4-byte words, unless a narrow format before the attribute left it between two. -/
def word? (a : PlacedAttribute) : Option Nat :=
  if a.offset % 4 = 0 then some (a.offset / 4) else none

end PlacedAttribute

/-- Attributes lie back to back in declaration order. -/
def placeAttributes (start : Nat) : List Attribute → List PlacedAttribute
  | [] => []
  | a :: rest => ⟨a, start⟩ :: placeAttributes (start + a.format.size) rest

/-- The resolved layout of a vertex stream. -/
structure VertexLayout where
  label : String
  stepMode : StepMode
  elements : Nat
  stride : Nat
  attributes : List PlacedAttribute
  deriving DecidableEq

namespace VertexSchema

def placed (schema : VertexSchema) : List PlacedAttribute :=
  placeAttributes 0 schema.attributes

/-- The bytes of one element before its stride is rounded. -/
def extent (schema : VertexSchema) : Nat :=
  (schema.attributes.map (·.format.size)).sum

/-- The distance between elements, which vertex fetch requires to be a multiple of 4. -/
def stride (schema : VertexSchema) : Except BufferError Nat :=
  if schema.extent % 4 = 0 then .ok schema.extent
  else match schema.rounding with
    | .pad => .ok (roundUp schema.extent 4)
    | .refuse => .error (.unalignedStride schema.label schema.extent)

/-- The count of elements, which must be set and positive. -/
def count (schema : VertexSchema) : Except BufferError Nat :=
  match schema.elements with
  | none => .error (.incomplete schema.label .countOfElements)
  | some 0 => .error (.incomplete schema.label .anyElement)
  | some (n + 1) => .ok (n + 1)

/-- The layout of a complete schema, or the first of its defects. -/
def layout (schema : VertexSchema) : Except BufferError VertexLayout :=
  if schema.label = "" then .error (.incomplete schema.label .label)
  else if schema.attributes = [] then .error (.incomplete schema.label .fields)
  else match schema.count with
    | .error e => .error e
    | .ok count =>
      match repeatedName? [] (schema.attributes.map (·.name)) with
      | some name => .error (.duplicateField schema.label name)
      | none =>
        match schema.stride with
        | .error e => .error e
        | .ok stride => .ok ⟨schema.label, schema.stepMode, count, stride, schema.placed⟩

/-- A padded stride is warned of first; then come the attributes, then the whole. -/
def events (schema : VertexSchema) (layout : VertexLayout) : List Event :=
  (if schema.extent % 4 = 0 then [] else [.stridePadded schema.label schema.extent layout.stride]) ++
    layout.attributes.map (fun a => .attributePlaced schema.label a.slot a.name a.format a.offset) ++
    [.vertexResolved schema.label layout.attributes.length layout.stride layout.elements]

def resolve (schema : VertexSchema) : Outcome VertexLayout :=
  .ofResult schema.events schema.layout

instance : Resolvable VertexSchema VertexLayout := ⟨resolve⟩

end VertexSchema

/-- What a pipeline needs to know of an attribute. -/
structure AttributeBinding where
  slot : Nat
  format : VertexFormat
  offset : Nat
  deriving DecidableEq

structure VertexBinding where
  arrayStride : Nat
  stepMode : StepMode
  attributes : List AttributeBinding
  deriving DecidableEq

namespace VertexLayout

def strideInWords (layout : VertexLayout) : Nat :=
  layout.stride / 4

def named? (layout : VertexLayout) (name : String) : Option PlacedAttribute :=
  layout.attributes.find? (·.name == name)

/-- The first attribute bound to a slot. -/
def atSlot? (layout : VertexLayout) (slot : Nat) : Option PlacedAttribute :=
  layout.attributes.find? (·.slot == slot)

def find? (layout : VertexLayout) : AttributeKey → Option PlacedAttribute
  | .name name => layout.named? name
  | .slot slot => layout.atSlot? slot

def elementStart (layout : VertexLayout) (element : Nat) : Nat :=
  element * layout.stride

def size (layout : VertexLayout) : Nat :=
  layout.stride * layout.elements

def request (layout : VertexLayout) : BufferRequest :=
  ⟨layout.label, layout.size, .vertex⟩

def binding (layout : VertexLayout) : VertexBinding :=
  ⟨layout.stride, layout.stepMode, layout.attributes.map fun a => ⟨a.slot, a.format, a.offset⟩⟩

end VertexLayout

end GpuBuffer
