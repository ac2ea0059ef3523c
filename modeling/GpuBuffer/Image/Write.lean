import GpuBuffer.Image.Basic
import GpuBuffer.Encoding
import GpuBuffer.Values
import GpuBuffer.Layout

namespace GpuBuffer

-- Powers are those of the core library, whatever else is in scope.
attribute [local instance(high)] instPowNat

/-- One past the largest byte address. -/
def addressLimit : Nat := 2 ^ (64 : Nat)

/-- One write through a layout. The image it goes to need not have been made for that layout. -/
inductive Write
  | vertex (layout : VertexLayout) (element : Nat) (key : AttributeKey) (values : Values)
  | member (layout : StructLayout) (base : Nat) (name : String) (values : Values)
  | indices (layout : IndexLayout) (first : Nat) (list : List UInt32)
  deriving DecidableEq

/-- A field's place in an image. -/
structure Target where
  field : String
  offset : Nat
  shape : Shape

namespace Target

def reach (target : Target) : Nat :=
  target.offset + target.shape.size

/-- The patch that stores values at a target of an image of `size` bytes. An end past the last
address is reported as that address. -/
def patch (target : Target) (label : String) (size : Nat) (values : Values) : Except BufferError Patch :=
  if values.length ≠ target.shape.arity then
    .error (.valueCount target.field target.shape.arity values.length)
  else if size < target.reach then
    .error (.outOfBounds label (min target.reach (addressLimit - 1)) size)
  else (target.shape.encode target.field values.numbers).map (Patch.mk target.offset)

end Target

/-- The patch of an attribute of one element. An element that the layout does not have is refused
before its values are looked at. -/
def VertexLayout.patch (layout : VertexLayout) (label : String) (size element : Nat) (key : AttributeKey)
    (values : Values) : Except BufferError Patch :=
  match layout.find? key with
  | none => .error (.unknownField layout.label key)
  | some a =>
    if layout.elements ≤ element then
      .error (.outOfBounds layout.label (layout.elementStart element + layout.stride) layout.size)
    else
      Target.patch ⟨a.name, layout.elementStart element + a.offset, a.format.shape⟩ label size values

/-- The patch of a member of the struct that starts at `base`. A start past the last address is
refused before its values are looked at. -/
def StructLayout.patch (layout : StructLayout) (label : String) (size base : Nat) (name : String)
    (values : Values) : Except BufferError Patch :=
  match layout.named? name with
  | none => .error (.unknownField layout.label (.name name))
  | some m =>
    if addressLimit ≤ base + m.offset then .error (.outOfBounds label (addressLimit - 1) size)
    else Target.patch ⟨m.name, base + m.offset, m.type.shape⟩ label size values

/-- The patch of a run of indices. -/
def IndexLayout.patch (layout : IndexLayout) (label : String) (size first : Nat) (list : List UInt32) :
    Except BufferError Patch :=
  let start := first * layout.format.size
  let reach := start + list.length * layout.format.size
  if size < reach then .error (.outOfBounds label reach size)
  else (layout.format.scalar.encodeAll "index" (Values.unsigned list).numbers).map fun encoded =>
    ⟨start, encoded.flatten⟩

/-- What a write does to an image of this label and size, whatever its bytes. -/
def Write.patch (write : Write) (label : String) (size : Nat) : Except BufferError Patch :=
  match write with
  | .vertex layout element key values => layout.patch label size element key values
  | .member layout base name values => layout.patch label size base name values
  | .indices layout first list => layout.patch label size first list

namespace Image

/-- Carries out a write. A refused one leaves the image as it is. -/
def write (image : Image) (write : Write) : Except BufferError Unit × Image :=
  match write.patch image.label image.size with
  | .ok p => (.ok (), image.patch p)
  | .error e => (.error e, image)

/-- Carries out writes in order, the refused ones without effect. -/
def writeAll (image : Image) (writes : List Write) : Image :=
  writes.foldl (fun image write => (image.write write).2) image

/-- Carries out writes in order, up to the first that is refused. -/
def writeEach (image : Image) : List Write → Except BufferError Image
  | [] => .ok image
  | write :: rest =>
    match image.write write with
    | (.ok (), next) => next.writeEach rest
    | (.error e, _) => .error e

end Image

end GpuBuffer
