import GpuBuffer.Number.Binary32

namespace GpuBuffer

/-- The numbers the host supplies for one field, in one of its number types. -/
inductive Values
  | floats (list : List Binary32)
  | signed (list : List Int32)
  | unsigned (list : List UInt32)
  deriving DecidableEq

namespace Values

def numbers : Values → List Number
  | .floats list => list.map Binary32.toNumber
  | .signed list => list.map fun x => .ofInt x.toInt
  | .unsigned list => list.map fun x => .ofInt x.toNat

def length : Values → Nat
  | .floats list => list.length
  | .signed list => list.length
  | .unsigned list => list.length

def isEmpty (values : Values) : Bool :=
  values.length == 0

@[simp] theorem length_numbers (values : Values) : values.numbers.length = values.length := by
  cases values <;> simp [numbers, length]

end Values

end GpuBuffer
