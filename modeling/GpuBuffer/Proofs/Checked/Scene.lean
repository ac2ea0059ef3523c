import GpuBuffer.Proofs.Cache.Invariant
import GpuBuffer.Proofs.Checked.Layout
import GpuBuffer.Proofs.Checked.Write
import GpuBuffer.Proofs.Scene.Buffers

namespace GpuBuffer

namespace Reckoning
variable {α : Type}

/-- The value, unless a step overflows. -/
def value? (reckoning : Reckoning α) : Option α :=
  if reckoning.Held then some reckoning.value else none

theorem Needs.value?_eq {reckoning : Reckoning α} {n : Nat} {value : α} (needs : reckoning.Needs n (· = value))
    (small : n < 2 ^ 32) : reckoning.value? = some value := by
  rw [value?, if_pos (needs.held_iff.mpr small), needs.value small]

end Reckoning

/-- What is made of the layout that a schema comes to in words, or its refusal. -/
def VertexSchema.withLayout? {α : Type} (schema : VertexSchema)
    (next : VertexLayout → Option (Except BufferError α)) : Option (Except BufferError α) :=
  match schema.layoutInWords.value? with
  | none => none
  | some (.error e) => some (.error e)
  | some (.ok layout) => next layout

theorem VertexSchema.withLayout?_eq {α : Type} {schema : VertexSchema} {layout : VertexLayout}
    (resolves : schema.ResolvesTo layout) (narrow : layout.stride < 2 ^ 32)
    (next : VertexLayout → Option (Except BufferError α)) : schema.withLayout? next = next layout := by
  simp only [withLayout?, (needs_layoutInWords resolves).value?_eq narrow]

/-- Carries out writes in words, up to the first that is refused. -/
def Image.writeEach? (image : Image) : List Write → Option (Except BufferError Image)
  | [] => some (.ok image)
  | w :: rest =>
    match image.write? w with
    | none => none
    | some (.ok (), next) => next.writeEach? rest
    | some (.error e, _) => some (.error e)

theorem Image.writeEach?_eq {image : Image} (addressed : image.size < addressLimit) {writes : List Write}
    (words : ∀ w ∈ writes, w.InWords) : image.writeEach? writes = some (image.writeEach writes) := by
  induction writes generalizing image with
  | nil => rfl
  | cons w rest ih =>
    obtain ⟨first, later⟩ := List.forall_mem_cons.mp words
    have same : (image.write w).2.size = image.size := image.size_write w
    rw [writeEach?, write?_eq addressed first, writeEach]
    cases result : image.write w with
    | mk outcome next =>
      rw [result] at same
      cases outcome with
      | error e => rfl
      | ok _ => exact ih (same.symm ▸ addressed) later

/-- Fills an image, whose size an address has to hold, in words. -/
def Filled.ofWrites? {δ : Type} (layout : δ) (request : BufferRequest) (writes : List Write) :
    Option (Except BufferError (Filled δ)) := do
  let size ← inWord? 64 request.size
  let filled ← (Image.zeroed { request with size }).writeEach? writes
  return filled.map (Filled.mk layout)

theorem Filled.ofWrites?_eq {δ : Type} (layout : δ) {request : BufferRequest} (addressed : request.size < 2 ^ 64)
    {writes : List Write} (words : ∀ w ∈ writes, w.InWords) :
    Filled.ofWrites? layout request writes = some (Filled.ofWrites layout request writes) := by
  have sized : (Image.zeroed request).size < addressLimit := by
    rw [Image.size_zeroed]
    exact addressed
  simp only [Filled.ofWrites?, inWord?_of_lt addressed, Option.bind_eq_bind, Option.bind_some,
    Image.writeEach?_eq sized words]
  rfl

/-- A layout from a cache, which is computed in words if the cache lacks it. -/
def Cache.get? (cache : StructCache) (schema : StructSchema) :
    Option (StructCache × Except BufferError (Shared StructLayout)) :=
  match cache.find? schema with
  | some shared => some (cache, .ok shared)
  | none =>
    match schema.layoutInWords.value? with
    | none => none
    | some (.ok layout) => some (cache.insert schema layout, .ok ⟨cache.issued, layout⟩)
    | some (.error e) => some (cache, .error e)

theorem Cache.get?_eq (cache : StructCache) {schema : StructSchema} {layout : StructLayout}
    (resolves : schema.ResolvesTo layout) (small : layout.size < 2 ^ 32) :
    cache.get? schema = some ((cache.get schema).1, (cache.get schema).2.result) := by
  have resolved : (Resolvable.resolve schema : Outcome StructLayout).result = .ok layout := resolves.result
  have computed := (StructSchema.needs_layoutInWords resolves).value?_eq small
  rcases cache.get_cases schema with ⟨shared, found, result⟩ | ⟨other, fresh, same, result⟩ | ⟨_, _, failed, _⟩
  · simp only [get?, found, result]
  · cases resolved.symm.trans same
    simp only [get?, fresh, computed, result]
  · cases resolved.symm.trans failed

namespace Scene

/-! ### The streams -/

def cubeStream? : Option (Except BufferError (Filled VertexLayout)) :=
  cubeSchema.withLayout? fun layout => Filled.ofWrites? layout layout.request (cubeWrites layout)

theorem cubeStream?_eq : cubeStream? = some cubeStream := by
  have resolves := cubeSchema_resolvesTo
  have words : ∀ w ∈ cubeWrites cubeLayout, w.InWords := by
    intro w member
    obtain ⟨i, inside, _, _, rfl⟩ := mem_cubeWrites member
    exact ⟨⟨cubeSchema, VertexSchema.layout_eq_ok_iff.mpr resolves⟩, show 12 < 2 ^ 32 by decide,
      inside.trans (by decide)⟩
  rw [cubeStream?, VertexSchema.withLayout?_eq resolves (by decide), Filled.ofWrites?_eq cubeLayout (by decide) words,
    cubeStream, resolves.result, pure_bind]

def indexList? : Option (Except BufferError (Filled IndexLayout)) :=
  match indexSchema.layout with
  | .error e => some (.error e)
  | .ok layout => Filled.ofWrites? layout layout.request [.indices layout 0 triangles]

theorem indexList?_eq : indexList? = some indexList := by
  have resolved := IndexSchema.layout_eq_ok_iff.mpr indexSchema_resolvesTo
  have words : ∀ w ∈ [Write.indices indexLayout 0 triangles], w.InWords :=
    List.forall_mem_singleton.mpr ⟨by decide, by decide⟩
  simp only [indexList?, resolved]
  rw [Filled.ofWrites?_eq indexLayout (by decide) words, indexList, indexSchema_resolvesTo.result, pure_bind]

/-- A seed of an instance, in words. -/
def seed? (i k : Nat) : Option UInt32 := do
  let first ← inWord? 32 (i * 4)
  let seed ← inWord? 32 (first + k)
  return UInt32.ofNat seed

theorem seed?_eq {i k : Nat} (held : 4 * i + k < 2 ^ 32) : seed? i k = some (UInt32.ofNat (4 * i + k)) := by
  rw [seed?, Nat.mul_comm i, inWord?_of_lt (by omega), Option.bind_eq_bind, Option.bind_some, inWord?_of_lt held]
  rfl

/-- The writes of an instance, with its seeds in words. -/
def instanceWrites? (layout : VertexLayout) (i : Nat) : Option (List Write) := do
  let hash3 ← (seed? i 3).map unitHash
  let scale := 1 / 10 + 9 / 10 * hash3
  let hash0 ← (seed? i 0).map unitHash
  let hash1 ← (seed? i 1).map unitHash
  let hash2 ← (seed? i 2).map unitHash
  let hash5 ← (seed? i 5).map unitHash
  return [.vertex layout i (.name "color1") (.floats [hash0, hash1, 0, 1]),
    .vertex layout i (.name "color2") (.floats [hash1, hash0, 0, 1]),
    .vertex layout i (.name "scale") (.floats [scale, scale]),
    .vertex layout i (.name "offset") (.floats [spread hash2, spread hash5])]

theorem instanceWrites?_eq (layout : VertexLayout) {i : Nat} (held : 4 * i + 5 < 2 ^ 32) :
    instanceWrites? layout i = some (instanceWrites layout i) := by
  simp only [instanceWrites?, seed?_eq (show 4 * i + 0 < 2 ^ 32 by omega), seed?_eq (show 4 * i + 1 < 2 ^ 32 by omega),
    seed?_eq (show 4 * i + 2 < 2 ^ 32 by omega), seed?_eq (show 4 * i + 3 < 2 ^ 32 by omega), seed?_eq held,
    Option.map_some, Option.bind_eq_bind, Option.bind_some]
  rfl

def instanceStream? (count : Nat) : Option (Except BufferError (Filled VertexLayout)) :=
  (instanceSchema count).withLayout? fun layout => do
    let writes ← (List.range count).mapM (instanceWrites? layout)
    Filled.ofWrites? layout layout.request writes.flatten

theorem mapM_of_each {α β : Type} {f : α → Option β} {g : α → β} {xs : List α}
    (each : ∀ x ∈ xs, f x = some (g x)) : xs.mapM f = some (xs.map g) := by
  induction xs with
  | nil => rfl
  | cons x rest ih =>
    obtain ⟨first, later⟩ := List.forall_mem_cons.mp each
    rw [List.mapM_cons, first, ih later]
    rfl

theorem instanceWrites_inWords {count i : Nat} (bounded : count ≤ 2 ^ 30 - 1) (inside : i < count) {w : Write}
    (member : w ∈ instanceWrites (instanceLayout count) i) : w.InWords := by
  have resolved : ∃ schema : VertexSchema, schema.layout = .ok (instanceLayout count) :=
    ⟨instanceSchema count,
      VertexSchema.layout_eq_ok_iff.mpr (instanceSchema_resolvesTo (Nat.zero_lt_of_lt inside))⟩
  have narrow : (instanceLayout count).stride < 2 ^ 32 := show 48 < 2 ^ 32 by decide
  have indexed : i < 2 ^ 32 := by omega
  obtain ⟨_, _, _, _, rfl⟩ := mem_instanceWrites member
  exact ⟨resolved, narrow, indexed⟩

theorem instanceStream?_eq {count : Nat} (bounded : count ≤ 2 ^ 30 - 1) :
    instanceStream? count = some (instanceStream count) := by
  rcases Nat.eq_zero_or_pos count with rfl | positive
  · have refused : (instanceSchema 0).layoutInWords.value? =
        some (.error (.incomplete "instance buffer" .anyElement)) := by decide
    simp only [instanceStream?, VertexSchema.withLayout?, refused, instanceStream_zero]
  · have resolves := instanceSchema_resolvesTo positive
    have narrow : (instanceLayout count).stride < 2 ^ 32 := show 48 < 2 ^ 32 by decide
    have seeded : (List.range count).mapM (instanceWrites? (instanceLayout count)) =
        some ((List.range count).map (instanceWrites (instanceLayout count))) := by
      refine mapM_of_each fun i member => instanceWrites?_eq _ ?_
      have inside := List.mem_range.mp member
      omega
    have words : ∀ w ∈ (List.range count).flatMap (instanceWrites (instanceLayout count)), w.InWords := by
      intro w member
      obtain ⟨i, listed, written⟩ := List.mem_flatMap.mp member
      exact instanceWrites_inWords bounded (List.mem_range.mp listed) written
    have addressed : (instanceLayout count).request.size < 2 ^ 64 := by
      change 48 * count < 2 ^ 64
      omega
    rw [instanceStream?, VertexSchema.withLayout?_eq resolves narrow, seeded, Option.bind_eq_bind, Option.bind_some,
      ← List.flatMap_def, Filled.ofWrites?_eq _ addressed words, instanceStream, resolves.result, pure_bind]

/-! ### The uniforms, and the whole -/

/-- Fills a struct whose layout comes from the cache, in words. -/
def uniforms? (schema : StructSchema) (writes : StructLayout → List Write) (cache : StructCache) :
    Option (StructCache × Except BufferError (Filled (Shared StructLayout))) :=
  match cache.get? schema with
  | none => none
  | some (next, .error e) => some (next, .error e)
  | some (next, .ok shared) =>
    (Filled.ofWrites? shared shared.layout.request (writes shared.layout)).map (Prod.mk next)

theorem uniforms?_eq {schema : StructSchema} {layout : StructLayout} (resolves : schema.ResolvesTo layout)
    (small : layout.size < 2 ^ 32) {cache : StructCache} {id : Nat}
    (handed : (cache.get schema).2.result = .ok ⟨id, layout⟩) {writes : StructLayout → List Write}
    (words : ∀ w ∈ writes layout, w.InWords) :
    uniforms? schema writes cache = some (uniforms schema writes cache) := by
  have result : (cache.get schema).2.result = pure ⟨id, layout⟩ := handed
  have addressed : layout.request.size < 2 ^ 64 := small.trans (by decide)
  simp only [uniforms?, cache.get?_eq resolves small, handed, Filled.ofWrites?_eq _ addressed words, Option.map_some]
  simp only [uniforms, result, pure_bind]

/-- Makes the buffers of a scene in words: `none` where a sum or a product does not fit its word. -/
def build? (settings : Settings) (cache : StructCache) : Option (StructCache × Except BufferError Scene) := do
  match ← cubeStream?, ← instanceStream? settings.instances with
  | .error e, _ => return (cache, .error e)
  | .ok _, .error e => return (cache, .error e)
  | .ok vertices, .ok instances =>
    match ← uniforms? projectionSchema (projectionWrites settings) cache with
    | (cache, .error e) => return (cache, .error e)
    | (cache, .ok projection) =>
      match ← uniforms? gridSchema (gridWrites settings) cache with
      | (cache, .error e) => return (cache, .error e)
      | (cache, .ok grid) =>
        let indices ← indexList?
        return (cache, indices.map (⟨vertices, instances, projection, grid, ·⟩))

theorem build?_eq {settings : Settings} (bounded : settings.instances ≤ 2 ^ 30 - 1) {cache : StructCache}
    {projection grid : Nat} (first : (cache.get projectionSchema).2.result = .ok ⟨projection, projectionLayout⟩)
    (second : ((cache.get projectionSchema).1.get gridSchema).2.result = .ok ⟨grid, gridLayout⟩) :
    build? settings cache = some (build settings cache) := by
  have projectionWords : ∀ w ∈ projectionWrites settings projectionLayout, w.InWords := by
    intro w member
    obtain ⟨_, _, _, _, rfl⟩ := mem_projectionWrites member
    trivial
  have gridWords : ∀ w ∈ gridWrites settings gridLayout, w.InWords := List.forall_mem_singleton.mpr trivial
  have projected := uniforms?_eq projectionSchema_resolvesTo (by decide) first projectionWords
  have gridded := uniforms?_eq gridSchema_resolvesTo (by decide) second gridWords
  rcases Nat.eq_zero_or_pos settings.instances with absent | positive
  · have streamed := instanceStream?_eq bounded
    rw [absent, instanceStream_zero] at streamed
    rw [build_of_no_instance absent]
    simp only [build?, cubeStream?_eq, absent, streamed, cubeStream_eq, Option.bind_eq_bind, Option.bind_some]
    rfl
  · rw [build_of_gets positive first second]
    rw [uniforms_of_get first fun _ => projectionWrites_accepted] at projected
    rw [uniforms_of_get second fun _ => gridWrites_accepted] at gridded
    simp only [build?, cubeStream?_eq, instanceStream?_eq bounded, instanceStream_eq positive, cubeStream_eq,
      indexList?_eq, indexList_eq, projected, gridded, Option.bind_eq_bind, Option.bind_some]
    rfl

end Scene

end GpuBuffer
