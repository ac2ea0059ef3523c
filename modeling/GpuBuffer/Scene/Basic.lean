import GpuBuffer.Cache
import GpuBuffer.Image.Write
import GpuBuffer.Scene.Hash

namespace GpuBuffer

/-- A layout with an image filled through it. -/
structure Filled (δ : Type) where
  layout : δ
  image : Image

def Filled.ofWrites {δ : Type} (layout : δ) (request : BufferRequest) (writes : List Write) :
    Except BufferError (Filled δ) :=
  ((Image.zeroed request).writeEach writes).map (Filled.mk layout)

abbrev StructCache := Cache StructSchema StructLayout

namespace Scene

/-- What a scene of cubes is made with. -/
structure Settings where
  instances : Nat := 16
  canvasWidth : Binary32 := 800
  canvasHeight : Binary32 := 600
  gridScale : UInt32 := 8

/-! ### The cube -/

def corners : List (List Binary32) :=
  [[1, 1, 1], [-1, -1, 1], [1, -1, 1], [-1, 1, 1],
   [1, 1, -1], [-1, -1, -1], [1, -1, -1], [-1, 1, -1]]

def halfExtent : Binary32 := 50

/-- Two triangles for each side: front, back, right, left, top, bottom. -/
def triangles : List UInt32 :=
  [0, 1, 2, 0, 3, 1,
   4, 5, 6, 4, 7, 5,
   4, 2, 6, 4, 0, 2,
   7, 1, 5, 7, 3, 1,
   4, 3, 0, 4, 7, 3,
   6, 1, 2, 6, 5, 1]

def cubeSchema : VertexSchema :=
  (VertexSchema.ofElements "cube vertex buffer" corners.length .perVertex).addAttribute 0 "position" .float32x3

def cubeWrites (layout : VertexLayout) : List Write :=
  corners.zipIdx.map fun (corner, i) =>
    .vertex layout i (.name "position") (.floats (corner.map (· * halfExtent)))

def cubeStream : Except BufferError (Filled VertexLayout) := do
  let layout ← cubeSchema.resolve.result
  Filled.ofWrites layout layout.request (cubeWrites layout)

def indexSchema : IndexSchema :=
  ⟨"index buffer", triangles.length, .uint32⟩

def indexList : Except BufferError (Filled IndexLayout) := do
  let layout ← indexSchema.resolve.result
  Filled.ofWrites layout layout.request [.indices layout 0 triangles]

/-! ### Its instances -/

def instanceSchema (count : Nat) : VertexSchema :=
  (VertexSchema.ofElements "instance buffer" count .perInstance)
    |>.addAttribute 1 "color1" .float32x4
    |>.addAttribute 2 "color2" .float32x4
    |>.addAttribute 3 "scale" .float32x2
    |>.addAttribute 4 "offset" .float32x2

/-- A hash in `[0, 1)` as a coordinate in `[-9/10, 9/10)`. -/
def spread (x : Binary32) : Binary32 :=
  x * (18 / 10) - 9 / 10

/-- Everything about an instance follows from its number. Instances share some of their seeds. -/
def instanceWrites (layout : VertexLayout) (i : Nat) : List Write :=
  let hash (k : Nat) := unitHash (UInt32.ofNat (4 * i + k))
  let scale := 1 / 10 + 9 / 10 * hash 3
  [.vertex layout i (.name "color1") (.floats [hash 0, hash 1, 0, 1]),
   .vertex layout i (.name "color2") (.floats [hash 1, hash 0, 0, 1]),
   .vertex layout i (.name "scale") (.floats [scale, scale]),
   .vertex layout i (.name "offset") (.floats [spread (hash 2), spread (hash 5)])]

def instanceStream (count : Nat) : Except BufferError (Filled VertexLayout) := do
  let layout ← (instanceSchema count).resolve.result
  Filled.ofWrites layout layout.request ((List.range count).flatMap (instanceWrites layout))

/-! ### Its uniforms -/

def projectionSchema : StructSchema :=
  ({ label := "projection uniforms" } : StructSchema)
    |>.addMember "ndc" .mat4x4f
    |>.addMember "fudge" .f32
    |>.addMember "translation" .mat4x4f
    |>.addMember "rotation" .mat4x4f

def gridSchema : StructSchema :=
  ({ label := "grid uniforms" } : StructSchema).addMember "grid_scale" .u32

def near : Binary32 := 1
def far : Binary32 := 1000

/-- The orthographic projection of the canvas, column by column. -/
def orthographic (width height : Binary32) : List Binary32 :=
  [2 / width, 0, 0, 0,
   0, -2 / height, 0, 0,
   0, 0, 1 / (far - near), 0,
   0, 0, -near / (far - near), 1]

def shiftAlongX (x : Binary32) : List Binary32 :=
  [1, 0, 0, 0,
   0, 1, 0, 0,
   0, 0, 1, 0,
   x, 0, 0, 1]

/-- The sine and the cosine of an angle as a platform computes them. How they are rounded is its own
affair, except that those of zero are exact. -/
structure SineCosine where
  of : Binary32 → Binary32 × Binary32
  of_zero : of 0 = (0, 1)

/-- The matrix of a rotation about the z axis, from the sine and the cosine of its angle. -/
def rotationMatrix (sine cosine : Binary32) : List Binary32 :=
  [cosine, sine, 0, 0,
   -sine, cosine, 0, 0,
   0, 0, 1, 0,
   0, 0, 0, 1]

/-- The rotation about the z axis by an angle. -/
def rotation (platform : SineCosine) (angle : Binary32) : List Binary32 :=
  let (sine, cosine) := platform.of angle
  rotationMatrix sine cosine

/-- The rotation by the angle zero, the only angle that a scene is turned by. It is the same on every
platform. -/
def unturned : List Binary32 :=
  rotationMatrix 0 1

theorem rotation_zero (platform : SineCosine) : rotation platform 0 = unturned := by
  rw [rotation, platform.of_zero, unturned]

def projectionWrites (settings : Settings) (layout : StructLayout) : List Write :=
  [.member layout 0 "ndc" (.floats (orthographic settings.canvasWidth settings.canvasHeight)),
   .member layout 0 "fudge" (.floats [2]),
   .member layout 0 "translation" (.floats (shiftAlongX 100)),
   .member layout 0 "rotation" (.floats unturned)]

def gridWrites (settings : Settings) (layout : StructLayout) : List Write :=
  [.member layout 0 "grid_scale" (.unsigned [settings.gridScale])]

/-- Fills a struct whose layout comes from the cache. -/
def uniforms (schema : StructSchema) (writes : StructLayout → List Write) (cache : StructCache) :
    StructCache × Except BufferError (Filled (Shared StructLayout)) :=
  let (next, outcome) := cache.get schema
  (next, do
    let shared ← outcome.result
    Filled.ofWrites shared shared.layout.request (writes shared.layout))

end Scene

structure Scene where
  vertices : Filled VertexLayout
  instances : Filled VertexLayout
  projection : Filled (Shared StructLayout)
  grid : Filled (Shared StructLayout)
  indices : Filled IndexLayout

/-- Makes the buffers of a scene in order, up to the first that fails. The streams come before the
cache is asked for anything. -/
def Scene.build (settings : Settings) (cache : StructCache) : StructCache × Except BufferError Scene :=
  match cubeStream, instanceStream settings.instances with
  | .error e, _ => (cache, .error e)
  | .ok _, .error e => (cache, .error e)
  | .ok vertices, .ok instances =>
    match uniforms projectionSchema (projectionWrites settings) cache with
    | (cache, .error e) => (cache, .error e)
    | (cache, .ok projection) =>
      match uniforms gridSchema (gridWrites settings) cache with
      | (cache, .error e) => (cache, .error e)
      | (cache, .ok grid) => (cache, indexList.map (⟨vertices, instances, projection, grid, ·⟩))

end GpuBuffer
