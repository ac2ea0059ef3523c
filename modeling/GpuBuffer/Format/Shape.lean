import GpuBuffer.Alignment

namespace GpuBuffer

/-- How one component is stored. A `unorm8` byte stands for its 255th part. -/
inductive Scalar
  | float32
  | sint32
  | uint32
  | uint16
  | uint8
  | unorm8
  deriving DecidableEq

namespace Scalar

def width : Scalar → Nat
  | .float32 | .sint32 | .uint32 => 4
  | .uint16 => 2
  | .uint8 | .unorm8 => 1

theorem width_pos (s : Scalar) : 0 < s.width := by cases s <;> decide

def name : Scalar → String
  | .float32 => "F32"
  | .sint32 => "I32"
  | .uint32 => "U32"
  | .uint16 => "U16"
  | .uint8 => "U8"
  | .unorm8 => "Unorm8"

end Scalar

inductive Arrangement
  | single
  | vector (length : Nat)
  | matrix (columns rows : Nat)
  deriving DecidableEq

/-- The storage of a typed value: what its components are and how they are arranged. -/
structure Shape where
  scalar : Scalar
  arrangement : Arrangement
  deriving DecidableEq

namespace Shape

/-- A vector of three is aligned like one of four. -/
def vectorAlignment (scalar : Scalar) (length : Nat) : Nat :=
  if length = 2 then 2 * scalar.width else 4 * scalar.width

/-- The distance between matrix columns: each is stored as a vector, padded to its alignment. -/
def columnSpan (scalar : Scalar) (rows : Nat) : Nat :=
  roundUp (rows * scalar.width) (vectorAlignment scalar rows)

def size (shape : Shape) : Nat :=
  match shape.arrangement with
  | .single => shape.scalar.width
  | .vector length => length * shape.scalar.width
  | .matrix columns rows => columns * columnSpan shape.scalar rows

/-- The alignment of a struct member. A matrix starts on 16 bytes whatever its columns. -/
def alignment (shape : Shape) : Nat :=
  match shape.arrangement with
  | .single => shape.scalar.width
  | .vector length => vectorAlignment shape.scalar length
  | .matrix _ _ => 16

/-- The components the host supplies. Column padding is not among them. -/
def arity (shape : Shape) : Nat :=
  match shape.arrangement with
  | .single => 1
  | .vector length => length
  | .matrix columns rows => columns * rows

/-- Where a component starts inside the value. Matrices are stored column by column. -/
def componentStart (shape : Shape) (i : Nat) : Nat :=
  match shape.arrangement with
  | .single | .vector _ => i * shape.scalar.width
  | .matrix _ rows => i / rows * columnSpan shape.scalar rows + i % rows * shape.scalar.width

/-- Columns and rows of a matrix. -/
def dimensions? (shape : Shape) : Option (Nat × Nat) :=
  match shape.arrangement with
  | .matrix columns rows => some (columns, rows)
  | _ => none

def columnSpan? (shape : Shape) : Option Nat :=
  match shape.arrangement with
  | .matrix _ rows => some (columnSpan shape.scalar rows)
  | _ => none

end Shape

end GpuBuffer
