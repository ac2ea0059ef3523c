import GpuBuffer.Proofs.Index.Pieces
import GpuBuffer.Scene.Basic

namespace GpuBuffer

theorem Scalar.fits_float32 (x : Number) : Scalar.float32.Fits x := rfl

theorem IndexFormat.holds_uint32 (index : UInt32) : IndexFormat.uint32.Holds index :=
  fun narrow => nomatch narrow

/-- An attribute of floats takes any floats, as many as it has components. -/
theorem VertexLayout.write_floats {schema : VertexSchema} {layout : VertexLayout} {image : Image}
    (resolves : schema.ResolvesTo layout) (size : image.size = layout.size) {element : Nat}
    (inside : element < layout.elements) {a : PlacedAttribute} (member : a ∈ layout.attributes)
    (float : a.format.shape.scalar = .float32) {list : List Binary32} (count : list.length = a.format.shape.arity) :
    (image.write (.vertex layout element (.name a.name) (.floats list))).1 = .ok () := by
  refine (write_eq_ok_iff resolves size).mpr ⟨⟨a, resolves.find?_name member, count, fun x _ => ?_⟩, ?_⟩
  · rw [float]
    exact Scalar.fits_float32 x
  · exact fun beyond => Nat.not_le.mpr inside beyond.2

/-- So does a member of floats. -/
theorem StructLayout.write_floats {schema : StructSchema} {layout : StructLayout} {image : Image}
    (resolves : schema.ResolvesTo layout) (fits : layout.size < 2 ^ 32) (size : image.size = layout.size)
    {m : PlacedMember} (member : m ∈ layout.members) (float : m.type.shape.scalar = .float32) {list : List Binary32}
    (count : list.length = m.type.shape.arity) :
    (image.write (.member layout 0 m.name (.floats list))).1 = .ok () := by
  refine (write_eq_ok_iff resolves fits size).mpr ⟨m, resolves.named?_name member, count, fun x _ => ?_⟩
  rw [float]
  exact Scalar.fits_float32 x

theorem VertexSchema.ResolvesTo.result {schema : VertexSchema} {layout : VertexLayout}
    (resolves : schema.ResolvesTo layout) : schema.resolve.result = pure layout :=
  (Outcome.result_ofResult ..).trans (layout_eq_ok_iff.mpr resolves)

theorem StructSchema.ResolvesTo.result {schema : StructSchema} {layout : StructLayout}
    (resolves : schema.ResolvesTo layout) : schema.resolve.result = pure layout :=
  (Outcome.result_ofResult ..).trans (layout_eq_ok_iff.mpr resolves)

theorem IndexSchema.ResolvesTo.result {schema : IndexSchema} {layout : IndexLayout}
    (resolves : schema.ResolvesTo layout) : schema.resolve.result = pure layout :=
  (Outcome.result_ofResult ..).trans (layout_eq_ok_iff.mpr resolves)

theorem Filled.ofWrites_eq {δ : Type} (layout : δ) {request : BufferRequest} {writes : List Write}
    (accepted : ∀ w ∈ writes, ((Image.zeroed request).write w).1 = .ok ()) :
    Filled.ofWrites layout request writes = .ok ⟨layout, (Image.zeroed request).writeAll writes⟩ := by
  rw [Filled.ofWrites, Image.writeEach_eq_ok accepted]
  rfl

namespace Scene

/-! ### The cube -/

def position : PlacedAttribute := ⟨⟨0, "position", .float32x3⟩, 0⟩

def cubeLayout : VertexLayout := ⟨"cube vertex buffer", .perVertex, 8, 12, [position]⟩

def cubeImage : Image :=
  (Image.zeroed cubeLayout.request).writeAll (cubeWrites cubeLayout)

theorem cubeSchema_resolvesTo : cubeSchema.ResolvesTo cubeLayout :=
  VertexSchema.layout_eq_ok_iff.mp (by decide)

theorem mem_cubeWrites {layout : VertexLayout} {w : Write} (member : w ∈ cubeWrites layout) :
    ∃ i < corners.length, ∃ list, list.length = position.format.shape.arity ∧
      w = .vertex layout i (.name position.name) (.floats list) := by
  obtain ⟨⟨corner, i⟩, listed, rfl⟩ := List.mem_map.mp member
  have found := List.mem_zipIdx_iff_getElem?.mp listed
  have count : ∀ corner ∈ corners, corner.length = 3 := by decide
  have components : (corner.map (· * halfExtent)).length = 3 := by
    rw [List.length_map, count corner (List.mem_of_getElem? found)]
  exact ⟨i, (List.getElem?_eq_some_iff.mp found).1, _, components, rfl⟩

theorem cubeWrites_accepted {w : Write} (member : w ∈ cubeWrites cubeLayout) :
    ((Image.zeroed cubeLayout.request).write w).1 = .ok () := by
  obtain ⟨i, inside, list, all, rfl⟩ := mem_cubeWrites member
  have placed : position ∈ cubeLayout.attributes := List.mem_singleton_self _
  exact VertexLayout.write_floats cubeSchema_resolvesTo (Image.size_zeroed _) inside placed rfl all

theorem cubeStream_eq : cubeStream = .ok ⟨cubeLayout, cubeImage⟩ := by
  rw [cubeStream, cubeSchema_resolvesTo.result, pure_bind]
  exact Filled.ofWrites_eq cubeLayout fun _ => cubeWrites_accepted

def indexLayout : IndexLayout := ⟨"index buffer", 36, .uint32⟩

def indexImage : Image :=
  (Image.zeroed indexLayout.request).writeAll [.indices indexLayout 0 triangles]

theorem indexSchema_resolvesTo : indexSchema.ResolvesTo indexLayout :=
  IndexSchema.layout_eq_ok_iff.mp (by decide)

theorem indexList_eq : indexList = .ok ⟨indexLayout, indexImage⟩ := by
  rw [indexList, indexSchema_resolvesTo.result, pure_bind]
  refine Filled.ofWrites_eq indexLayout fun w member => ?_
  rw [List.mem_singleton.mp member, IndexLayout.write_eq_ok_iff (Image.size_zeroed _)]
  have suits : ∀ x ∈ (Values.unsigned triangles).numbers, Scalar.uint32.Fits x := by decide
  exact ⟨suits, Nat.lt_irrefl _⟩

/-! ### Its instances -/

def color1 : PlacedAttribute := ⟨⟨1, "color1", .float32x4⟩, 0⟩

def color2 : PlacedAttribute := ⟨⟨2, "color2", .float32x4⟩, 16⟩

def scale : PlacedAttribute := ⟨⟨3, "scale", .float32x2⟩, 32⟩

def offset : PlacedAttribute := ⟨⟨4, "offset", .float32x2⟩, 40⟩

def instanceLayout (count : Nat) : VertexLayout :=
  ⟨"instance buffer", .perInstance, count, 48, [color1, color2, scale, offset]⟩

def instanceImage (count : Nat) : Image :=
  (Image.zeroed (instanceLayout count).request).writeAll
    ((List.range count).flatMap (instanceWrites (instanceLayout count)))

theorem instanceSchema_resolvesTo {count : Nat} (positive : 0 < count) :
    (instanceSchema count).ResolvesTo (instanceLayout count) where
  labelled := show "instance buffer" ≠ "" by decide
  declared := List.cons_ne_nil _ _
  counted := rfl
  positive := positive
  distinct := show ["color1", "color2", "scale", "offset"].Nodup by decide
  stride := by
    have extent : (instanceSchema count).extent = 48 := rfl
    rw [VertexSchema.stride, extent]
    rfl
  label := rfl
  stepMode := rfl
  attributes := rfl

theorem mem_instanceWrites {layout : VertexLayout} {i : Nat} {w : Write} (member : w ∈ instanceWrites layout i) :
    ∃ a ∈ [color1, color2, scale, offset], ∃ list, list.length = a.format.shape.arity ∧
      w = .vertex layout i (.name a.name) (.floats list) := by
  simp only [instanceWrites, List.mem_cons, List.not_mem_nil, or_false] at member
  rcases member with rfl | rfl | rfl | rfl
  · exact ⟨color1, by decide, _, rfl, rfl⟩
  · exact ⟨color2, by decide, _, rfl, rfl⟩
  · exact ⟨scale, by decide, _, rfl, rfl⟩
  · exact ⟨offset, by decide, _, rfl, rfl⟩

theorem instanceWrites_accepted {count i : Nat} (inside : i < count) {w : Write}
    (member : w ∈ instanceWrites (instanceLayout count) i) :
    ((Image.zeroed (instanceLayout count).request).write w).1 = .ok () := by
  obtain ⟨a, placed, list, all, rfl⟩ := mem_instanceWrites member
  have float : ∀ a ∈ [color1, color2, scale, offset], a.format.shape.scalar = .float32 := by decide
  exact VertexLayout.write_floats (instanceSchema_resolvesTo (Nat.zero_lt_of_lt inside)) (Image.size_zeroed _) inside
    placed (float a placed) all

theorem allInstances_accepted {count : Nat} {w : Write}
    (member : w ∈ (List.range count).flatMap (instanceWrites (instanceLayout count))) :
    ((Image.zeroed (instanceLayout count).request).write w).1 = .ok () := by
  obtain ⟨i, inside, written⟩ := List.mem_flatMap.mp member
  exact instanceWrites_accepted (List.mem_range.mp inside) written

theorem instanceStream_eq {count : Nat} (positive : 0 < count) :
    instanceStream count = .ok ⟨instanceLayout count, instanceImage count⟩ := by
  rw [instanceStream, (instanceSchema_resolvesTo positive).result, pure_bind]
  exact Filled.ofWrites_eq (instanceLayout count) fun _ => allInstances_accepted

theorem instanceStream_zero : instanceStream 0 = .error (.incomplete "instance buffer" .anyElement) := by
  have refused : (instanceSchema 0).resolve.result = .error (.incomplete "instance buffer" .anyElement) := by decide
  rw [instanceStream, refused]
  rfl

/-! ### Its uniforms -/

def ndc : PlacedMember := ⟨⟨"ndc", .mat4x4f⟩, 0⟩

def fudge : PlacedMember := ⟨⟨"fudge", .f32⟩, 64⟩

def translation : PlacedMember := ⟨⟨"translation", .mat4x4f⟩, 80⟩

def turn : PlacedMember := ⟨⟨"rotation", .mat4x4f⟩, 144⟩

def projectionLayout : StructLayout :=
  ⟨"projection uniforms", .uniform, [ndc, fudge, translation, turn], 208, 16⟩

def projectionImage (settings : Settings) : Image :=
  (Image.zeroed projectionLayout.request).writeAll (projectionWrites settings projectionLayout)

theorem projectionSchema_resolvesTo : projectionSchema.ResolvesTo projectionLayout :=
  StructSchema.layout_eq_ok_iff.mp (by decide)

theorem mem_projectionWrites {settings : Settings} {layout : StructLayout} {w : Write}
    (member : w ∈ projectionWrites settings layout) :
    ∃ m ∈ [ndc, fudge, translation, turn], ∃ list, list.length = m.type.shape.arity ∧
      w = .member layout 0 m.name (.floats list) := by
  simp only [projectionWrites, List.mem_cons, List.not_mem_nil, or_false] at member
  rcases member with rfl | rfl | rfl | rfl
  · exact ⟨ndc, by decide, _, rfl, rfl⟩
  · exact ⟨fudge, by decide, _, rfl, rfl⟩
  · exact ⟨translation, by decide, _, rfl, rfl⟩
  · exact ⟨turn, by decide, _, rfl, rfl⟩

theorem projectionWrites_accepted {settings : Settings} {w : Write}
    (member : w ∈ projectionWrites settings projectionLayout) :
    ((Image.zeroed projectionLayout.request).write w).1 = .ok () := by
  obtain ⟨m, placed, list, all, rfl⟩ := mem_projectionWrites member
  have float : ∀ m ∈ [ndc, fudge, translation, turn], m.type.shape.scalar = .float32 := by decide
  exact StructLayout.write_floats projectionSchema_resolvesTo (by decide) (Image.size_zeroed _) placed (float m placed)
    all

def gridScale : PlacedMember := ⟨⟨"grid_scale", .u32⟩, 0⟩

def gridLayout : StructLayout := ⟨"grid uniforms", .uniform, [gridScale], 4, 4⟩

def gridImage (settings : Settings) : Image :=
  (Image.zeroed gridLayout.request).writeAll (gridWrites settings gridLayout)

theorem gridSchema_resolvesTo : gridSchema.ResolvesTo gridLayout :=
  StructSchema.layout_eq_ok_iff.mp (by decide)

theorem gridWrites_accepted {settings : Settings} {w : Write} (member : w ∈ gridWrites settings gridLayout) :
    ((Image.zeroed gridLayout.request).write w).1 = .ok () := by
  have fits : ∀ x ∈ (Values.unsigned [settings.gridScale]).numbers, gridScale.type.shape.scalar.Fits x :=
    List.forall_mem_singleton.mpr (IndexFormat.fits_index_iff.mpr (IndexFormat.holds_uint32 _))
  rw [List.mem_singleton.mp member, StructLayout.write_eq_ok_iff gridSchema_resolvesTo (by decide) (Image.size_zeroed _)]
  exact ⟨gridScale, by decide, rfl, fits⟩

theorem uniforms_of_get {schema : StructSchema} {layout : StructLayout} {cache : StructCache} {id : Nat}
    (handed : (cache.get schema).2.result = .ok ⟨id, layout⟩) {writes : StructLayout → List Write}
    (accepted : ∀ w ∈ writes layout, ((Image.zeroed layout.request).write w).1 = .ok ()) :
    uniforms schema writes cache =
      ((cache.get schema).1, .ok ⟨⟨id, layout⟩, (Image.zeroed layout.request).writeAll (writes layout)⟩) := by
  have result : (cache.get schema).2.result = pure ⟨id, layout⟩ := handed
  simp only [uniforms, result, pure_bind]
  exact congrArg (Prod.mk _) (Filled.ofWrites_eq _ accepted)

end Scene

/-- The scene of these settings, with the two structs as instances of these numbers. -/
def Scene.made (settings : Settings) (projection grid : Nat) : Scene where
  vertices := ⟨cubeLayout, cubeImage⟩
  instances := ⟨instanceLayout settings.instances, instanceImage settings.instances⟩
  projection := ⟨⟨projection, projectionLayout⟩, projectionImage settings⟩
  grid := ⟨⟨grid, gridLayout⟩, gridImage settings⟩
  indices := ⟨indexLayout, indexImage⟩

namespace Scene
variable {settings : Settings} {cache : StructCache}

/-- With an instance, a build succeeds if the cache hands out the right layouts. -/
theorem build_of_gets (positive : 0 < settings.instances) {projection grid : Nat}
    (first : (cache.get projectionSchema).2.result = .ok ⟨projection, projectionLayout⟩)
    (second : ((cache.get projectionSchema).1.get gridSchema).2.result = .ok ⟨grid, gridLayout⟩) :
    build settings cache =
      (((cache.get projectionSchema).1.get gridSchema).1, .ok (made settings projection grid)) := by
  have projected : uniforms projectionSchema (projectionWrites settings) cache =
      ((cache.get projectionSchema).1, .ok ⟨⟨projection, projectionLayout⟩, projectionImage settings⟩) :=
    uniforms_of_get first fun _ => projectionWrites_accepted
  have gridded : uniforms gridSchema (gridWrites settings) (cache.get projectionSchema).1 =
      (((cache.get projectionSchema).1.get gridSchema).1, .ok ⟨⟨grid, gridLayout⟩, gridImage settings⟩) :=
    uniforms_of_get second fun _ => gridWrites_accepted
  unfold build
  rw [cubeStream_eq, instanceStream_eq positive]
  dsimp only
  rw [projected]
  dsimp only
  rw [gridded, indexList_eq]
  rfl

/-- Without one it fails before the cache is asked. -/
theorem build_of_no_instance (absent : settings.instances = 0) :
    build settings cache = (cache, .error (.incomplete "instance buffer" .anyElement)) := by
  unfold build
  rw [cubeStream_eq, absent, instanceStream_zero]

end Scene

end GpuBuffer
