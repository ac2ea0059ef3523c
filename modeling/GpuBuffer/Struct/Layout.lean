import GpuBuffer.Struct.Schema

namespace GpuBuffer

structure PlacedMember extends Member where
  offset : Nat
  deriving DecidableEq

namespace PlacedMember

def size (m : PlacedMember) : Nat :=
  m.type.size

def reach (m : PlacedMember) : Nat :=
  m.offset + m.size

/-- The offset in 4-byte words. Members always start on one. -/
def word (m : PlacedMember) : Nat :=
  m.offset / 4

end PlacedMember

/-- Members keep their order; each starts at the next multiple of its alignment. -/
def placeMembers (start : Nat) : List Member → List PlacedMember
  | [] => []
  | m :: rest =>
    let offset := roundUp start m.type.alignment
    ⟨m, offset⟩ :: placeMembers (offset + m.type.size) rest

/-- The resolved layout of a struct. -/
structure StructLayout where
  label : String
  binding : StructBinding
  members : List PlacedMember
  size : Nat
  alignment : Nat
  deriving DecidableEq

namespace StructSchema

def placed (schema : StructSchema) : List PlacedMember :=
  placeMembers 0 schema.members

/-- Where the last member ends. -/
def extent (schema : StructSchema) : Nat :=
  match schema.placed.getLast? with
  | some last => last.reach
  | none => 0

/-- The largest member alignment, and at least 4. -/
def alignment (schema : StructSchema) : Nat :=
  schema.members.foldl (fun alignment m => max alignment m.type.alignment) 4

/-- The size, padded so that structs laid end to end keep their members aligned. -/
def size (schema : StructSchema) : Nat :=
  roundUp schema.extent schema.alignment

/-- The layout of a complete schema, or the first of its defects. -/
def layout (schema : StructSchema) : Except BufferError StructLayout :=
  if schema.label = "" then .error (.incomplete schema.label .label)
  else if schema.members = [] then .error (.incomplete schema.label .fields)
  else match repeatedName? [] (schema.members.map (·.name)) with
    | some name => .error (.duplicateField schema.label name)
    | none => .ok ⟨schema.label, schema.binding, schema.placed, schema.size, schema.alignment⟩

def events (layout : StructLayout) : List Event :=
  layout.members.map (fun m => .memberPlaced layout.label m.name m.type m.offset) ++
    [.structResolved layout.label layout.binding layout.members.length layout.size layout.alignment]

def resolve (schema : StructSchema) : Outcome StructLayout :=
  .ofResult events schema.layout

instance : Resolvable StructSchema StructLayout := ⟨resolve⟩

end StructSchema

namespace StructLayout

def sizeInWords (layout : StructLayout) : Nat :=
  layout.size / 4

def named? (layout : StructLayout) (name : String) : Option PlacedMember :=
  layout.members.find? (·.name == name)

def memberOffset (layout : StructLayout) (name : String) : Except BufferError Nat :=
  match layout.named? name with
  | some m => .ok m.offset
  | none => .error (.unknownField layout.label (.name name))

def request (layout : StructLayout) : BufferRequest :=
  ⟨layout.label, layout.size, layout.binding.usage⟩

end StructLayout

end GpuBuffer
