import GpuBuffer.Image.Bytes
import GpuBuffer.Error
import GpuBuffer.Format.Shape
import GpuBuffer.Number.Binary32

namespace GpuBuffer

-- Powers are those of the core library, whatever else is in scope.
attribute [local instance(high)] instPowNat

/-- The byte that stands for a number clamped to `[0, 1]`: the nearest 255th part, a half upward. -/
def unormByte? : Number → Option Nat
  | .nan => none
  | .infinity negative => some (if negative then 0 else 255)
  | .finite negative mantissa exponent =>
    let (num, den) := ratioOfScaled mantissa exponent
    some (if negative then 0 else if den ≤ num then 255 else roundQuotient .upward (255 * num) den)

/-- The integer a number denotes, if it is one in the range `[low, high]`. -/
def integerIn? (low high : Int) (x : Number) : Option Int :=
  match x.toInt? with
  | some i => if low ≤ i ∧ i ≤ high then some i else none
  | none => none

namespace Scalar

/-- The bits stored for a number, unless it does not fit. Floats are rounded and always fit; signed
integers are stored in two's complement. -/
def bits? (scalar : Scalar) (x : Number) : Option Nat :=
  match scalar with
  | .float32 => some (Binary32.ofNumber x).bits.toNat
  | .sint32 => (integerIn? (-2 ^ (31 : Nat)) (2 ^ (31 : Nat) - 1) x).map fun i => (i % 2 ^ (32 : Nat)).toNat
  | .uint32 => (integerIn? 0 (2 ^ (32 : Nat) - 1) x).map Int.toNat
  | .uint16 => (integerIn? 0 (2 ^ (16 : Nat) - 1) x).map Int.toNat
  | .uint8 => (integerIn? 0 (2 ^ (8 : Nat) - 1) x).map Int.toNat
  | .unorm8 => unormByte? x

/-- The bytes of one component of `field`. -/
def encode (scalar : Scalar) (field : String) (x : Number) : Except BufferError (List UInt8) :=
  match scalar.bits? x with
  | some bits => .ok (littleEndian scalar.width bits)
  | none => .error (.valueRange field x)

/-- Encodes the components in order, up to the first that does not fit. -/
def encodeAll (scalar : Scalar) (field : String) : List Number → Except BufferError (List (List UInt8))
  | [] => .ok []
  | x :: rest =>
    match scalar.encode field x with
    | .error e => .error e
    | .ok bytes => (scalar.encodeAll field rest).map (bytes :: ·)

end Scalar

namespace Shape

/-- Puts encoded components at their places in a value. The bytes between them stay zero. -/
def assemble (shape : Shape) (components : List (List UInt8)) : Array UInt8 :=
  components.zipIdx.foldl (fun bytes (component, i) => overlay bytes (shape.componentStart i) component)
    (zeros shape.size)

def encode (shape : Shape) (field : String) (components : List Number) : Except BufferError (List UInt8) :=
  (shape.scalar.encodeAll field components).map fun encoded => (shape.assemble encoded).toList

end Shape

end GpuBuffer
