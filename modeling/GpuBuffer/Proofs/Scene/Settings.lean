import GpuBuffer.Proofs.Cache.Transparent
import GpuBuffer.Proofs.Image.Run
import GpuBuffer.Proofs.Scene.Buffers

namespace GpuBuffer.Scene

/-! ### Instances -/

theorem instanceWrites_adjoin (count i : Nat) :
    Adjoin (i * 48) (instanceWrites (instanceLayout count) i) ((i + 1) * 48) := by
  rw [Nat.add_one_mul]
  exact .cons rfl (.cons rfl (.cons rfl (.cons rfl (.nil _))))

/-- The bytes of an instance, in the smallest stream that has it. -/
def instanceBytes (i : Nat) : List UInt8 :=
  (instanceWrites (instanceLayout (i + 1)) i).flatMap Write.content

/-- How many instances come behind it makes no difference. -/
theorem content_instanceWrites (count i : Nat) :
    (instanceWrites (instanceLayout count) i).flatMap Write.content = instanceBytes i := rfl

theorem bytes_instanceImage (count : Nat) :
    (instanceImage count).bytes = ((List.range count).flatMap instanceBytes).toArray := by
  have adjoin : Adjoin 0 ((List.range count).flatMap (instanceWrites (instanceLayout count))) (count * 48) :=
    .elements fun i _ => instanceWrites_adjoin count i
  have full := adjoin.length_content
  rw [Nat.zero_add, Nat.mul_comm] at full
  rw [instanceImage, adjoin.writeAll fun _ => allInstances_accepted, Image.zeroed_patch_full full, List.flatMap_assoc]
  simp only [content_instanceWrites]

theorem length_instanceBytes (count : Nat) : ((List.range count).flatMap instanceBytes).length = 48 * count := by
  have size : (instanceImage count).size = 48 * count := by
    rw [instanceImage, Image.size_writeAll, Image.size_zeroed]
    rfl
  rwa [Image.size, bytes_instanceImage, List.size_toArray] at size

/-- A smaller stream is the front of a larger one. -/
theorem instanceBytes_front {count more : Nat} (fewer : count ≤ more) :
    (List.range count).flatMap instanceBytes = ((List.range more).flatMap instanceBytes).take (48 * count) := by
  obtain ⟨rest, rfl⟩ := Nat.exists_eq_add_of_le fewer
  rw [List.range_add, List.flatMap_append, ← length_instanceBytes count, List.take_left]

/-! ### Uniforms -/

theorem bytes_gridImage (settings : Settings) :
    (gridImage settings).bytes = (littleEndian 4 settings.gridScale.toNat).toArray := by
  have adjoin : Adjoin 0 (gridWrites settings gridLayout) 4 := .cons rfl (.nil _)
  have full : ((gridWrites settings gridLayout).flatMap Write.content).length = gridLayout.request.size :=
    (Nat.zero_add _).symm.trans adjoin.length_content
  have bits : Scalar.uint32.bits? (.ofInt settings.gridScale.toNat) = some settings.gridScale.toNat :=
    (IndexFormat.uint32.bits?_index settings.gridScale).trans (if_pos (IndexFormat.holds_uint32 _))
  have word : Scalar.uint32.stored (.ofInt settings.gridScale.toNat) = littleEndian 4 settings.gridScale.toNat := by
    rw [Scalar.stored, bits, Option.getD_some, Scalar.width]
  have stored : gridScale.type.shape.stored (Values.unsigned [settings.gridScale]).numbers =
      littleEndian 4 settings.gridScale.toNat := by
    rw [Shape.stored_contiguous (fun _ => rfl) rfl]
    exact (List.append_nil _).trans word
  have content : (gridWrites settings gridLayout).flatMap Write.content =
      littleEndian 4 settings.gridScale.toNat := (List.append_nil _).trans stored
  rw [gridImage, adjoin.writeAll fun _ => gridWrites_accepted, Image.zeroed_patch_full full, content]

/-- The canvas takes two places of the projection. -/
theorem orthographic_eq_set (width height otherWidth otherHeight : Binary32) :
    orthographic width height = ((orthographic otherWidth otherHeight).set 0 (2 / width)).set 5 (-2 / height) := rfl

theorem orthographic_differ {width height otherWidth otherHeight : Binary32} {i : Nat}
    (differ : (orthographic width height)[i]? ≠ (orthographic otherWidth otherHeight)[i]?) :
    i = 0 ∧ width ≠ otherWidth ∨ i = 5 ∧ height ≠ otherHeight := by
  by_cases first : i = 0
  · subst first
    refine Or.inl ⟨rfl, ?_⟩
    rintro rfl
    exact differ rfl
  · by_cases sixth : i = 5
    · subst sixth
      refine Or.inr ⟨rfl, ?_⟩
      rintro rfl
      exact differ rfl
    · refine absurd ?_ differ
      rw [orthographic_eq_set width height otherWidth otherHeight, List.getElem?_set_ne (Ne.symm sixth),
        List.getElem?_set_ne (Ne.symm first)]

/-- The write of the canvas, which comes before those that are the same in every scene. -/
def canvasWrite (settings : Settings) : Write :=
  .member projectionLayout 0 "ndc" (.floats (orthographic settings.canvasWidth settings.canvasHeight))

def canvasImage (settings : Settings) : Image :=
  (Image.zeroed projectionLayout.request).patch ⟨0, (canvasWrite settings).content⟩

theorem length_canvasWrite (settings : Settings) : (canvasWrite settings).content.length = 64 :=
  Shape.length_stored ndc.type.shape _

theorem projectionImage_eq (settings other : Settings) :
    projectionImage settings = (canvasImage settings).writeAll (projectionWrites other projectionLayout).tail := by
  have writes : projectionWrites settings projectionLayout =
      [canvasWrite settings] ++ (projectionWrites other projectionLayout).tail := rfl
  have adjoin : Adjoin 0 [canvasWrite settings] 64 := .cons rfl (.nil _)
  have accepted : ∀ w ∈ [canvasWrite settings], ((Image.zeroed projectionLayout.request).write w).1 = .ok () := by
    intro w member
    exact projectionWrites_accepted (writes ▸ List.mem_append_left _ member)
  have first := adjoin.writeAll accepted
  rw [List.flatMap_singleton] at first
  unfold projectionImage
  rw [writes, Image.writeAll_append, first]
  rfl

theorem canvas_differ {a b : Settings} {k : Nat}
    (differ : (canvasWrite a).content[k]? ≠ (canvasWrite b).content[k]?) :
    k < 4 ∧ a.canvasWidth ≠ b.canvasWidth ∨ 20 ≤ k ∧ k < 24 ∧ a.canvasHeight ≠ b.canvasHeight := by
  have placed (i : Nat) : ndc.type.shape.componentStart i = i * ndc.type.shape.scalar.width := by
    change i / 4 * 16 + i % 4 * 4 = i * 4
    omega
  have content (settings : Settings) : (canvasWrite settings).content =
      (orthographic settings.canvasWidth settings.canvasHeight).flatMap fun x => Scalar.float32.stored x.toNumber := by
    have stored : (canvasWrite settings).content = (Values.floats (orthographic settings.canvasWidth
        settings.canvasHeight)).numbers.flatMap Scalar.float32.stored := Shape.stored_contiguous placed rfl
    exact stored.trans (List.flatMap_map ..)
  have word (x : Binary32) : (Scalar.float32.stored x.toNumber).length = 4 := Scalar.length_stored _ _
  rw [content, content, getElem?_flatMap_uniform (by decide) word, getElem?_flatMap_uniform (by decide) word] at differ
  have component := orthographic_differ fun same => differ (congrArg (Option.bind · _) same)
  rcases component with ⟨first, width⟩ | ⟨sixth, height⟩
  · exact Or.inl ⟨by omega, width⟩
  · exact Or.inr ⟨by omega, by omega, height⟩

theorem projectionImage_differ {a b : Settings} {k : Nat}
    (differ : (projectionImage a).bytes[k]? ≠ (projectionImage b).bytes[k]?) :
    k < 4 ∧ a.canvasWidth ≠ b.canvasWidth ∨ 20 ≤ k ∧ k < 24 ∧ a.canvasHeight ≠ b.canvasHeight := by
  by_contra elsewhere
  have same : (canvasWrite a).content[k]? = (canvasWrite b).content[k]? := by
    by_contra canvas
    exact elsewhere (canvas_differ canvas)
  have agree : Image.AgreeAt k (canvasImage a) (canvasImage b) := by
    refine ⟨?_, ?_, ?_⟩
    · rw [canvasImage, canvasImage, Image.label_patch, Image.label_patch]
    · rw [canvasImage, canvasImage, Image.size_patch, Image.size_patch]
    · simp only [canvasImage, Image.patch, getElem?_overlay, length_canvasWrite, Nat.sub_zero, same]
  -- The writes behind the first are those of any scene, so the images differ no more than after it.
  have later := (agree.writeAll (projectionWrites b projectionLayout).tail).byte
  rw [← projectionImage_eq, ← projectionImage_eq] at later
  exact differ later

/-! ### Two builds -/

theorem handed_after (calls : List (CacheCall StructSchema)) {schema : StructSchema} {layout : StructLayout}
    (resolves : schema.ResolvesTo layout) :
    ∃ id, ((Cache.after calls : StructCache).get schema).2.result = .ok ⟨id, layout⟩ := by
  have resolved : (Resolvable.resolve schema : Outcome StructLayout).result = .ok layout := resolves.result
  obtain ⟨⟨id, _⟩, handed, rfl⟩ := map_eq_ok_iff.mp (((Cache.after_remembers calls).result_get schema).trans resolved)
  exact ⟨id, handed⟩

theorem build_after (calls : List (CacheCall StructSchema)) {settings : Settings} (positive : 0 < settings.instances) :
    ∃ projection grid, (build settings (Cache.after calls)).2 = .ok (made settings projection grid) := by
  obtain ⟨projection, first⟩ := handed_after calls projectionSchema_resolvesTo
  obtain ⟨grid, second⟩ := handed_after (calls ++ [.get projectionSchema]) gridSchema_resolvesTo
  rw [Cache.after_concat] at second
  exact ⟨projection, grid, congrArg Prod.snd (build_of_gets positive first second)⟩

/-- Two scenes, each built through a cache with any history. The cube is the same in both, the instances of the
smaller scene are the first of the larger one, and the grid is its scale. The projections differ where one of the
two sides of the canvas is stored, and only if that side differs. -/
theorem images_depend_on_own_setting (earlier later : List (CacheCall StructSchema)) {a b : Settings}
    (positive : 1 ≤ a.instances) (fewer : a.instances ≤ b.instances) :
    ∃ first second : Scene, (build a (Cache.after earlier)).2 = .ok first ∧
      (build b (Cache.after later)).2 = .ok second ∧
      first.vertices.image = second.vertices.image ∧ first.indices.image = second.indices.image ∧
      first.instances.image.size = 48 * a.instances ∧
      first.instances.image.bytes.toList = second.instances.image.bytes.toList.take (48 * a.instances) ∧
      first.grid.image.bytes.toList = littleEndian 4 a.gridScale.toNat ∧
      second.grid.image.bytes.toList = littleEndian 4 b.gridScale.toNat ∧
      first.projection.image.size = second.projection.image.size ∧
      ∀ k, first.projection.image.bytes[k]? ≠ second.projection.image.bytes[k]? →
        k < 4 ∧ a.canvasWidth ≠ b.canvasWidth ∨ 20 ≤ k ∧ k < 24 ∧ a.canvasHeight ≠ b.canvasHeight := by
  obtain ⟨p, g, first⟩ := build_after earlier positive
  obtain ⟨q, h, second⟩ := build_after later (positive.trans fewer)
  have front : (instanceImage a.instances).bytes.toList =
      (instanceImage b.instances).bytes.toList.take (48 * a.instances) := by
    simp only [bytes_instanceImage]
    exact instanceBytes_front fewer
  have size : (instanceImage a.instances).size = 48 * a.instances := by
    rw [Image.size, bytes_instanceImage, List.size_toArray, length_instanceBytes]
  have projected (settings : Settings) : (projectionImage settings).size = projectionLayout.request.size :=
    (Image.size_writeAll ..).trans (Image.size_zeroed _)
  refine ⟨made a p g, made b q h, first, second, ?_⟩
  simp only [made, bytes_gridImage, true_and]
  exact ⟨size, front, (projected a).trans (projected b).symm, fun _ => projectionImage_differ⟩

/-- A small scene through a new cache, and a larger and wider one through a cache that was cleared and knows the
grid. -/
theorem images_depend_on_own_setting_of_wider_canvas :
    let small : Settings := { instances := 2, canvasWidth := ⟨0x7FC00000⟩, gridScale := 258 }
    let large : Settings := { instances := 2 ^ 30 - 1 }
    let calls : List (CacheCall StructSchema) := [.get projectionSchema, .clear, .get gridSchema]
    1 ≤ small.instances ∧ small.instances ≤ large.instances ∧
      ∃ first second : Scene, (build small .empty).2 = .ok first ∧ (build large (Cache.after calls)).2 = .ok second ∧
        first.instances.image.bytes.toList = second.instances.image.bytes.toList.take 96 ∧
        first.grid.image.bytes.toList = [2, 1, 0, 0] ∧
        ∀ k, 4 ≤ k → first.projection.image.bytes[k]? = second.projection.image.bytes[k]? := by
  intro small large calls
  have positive : 1 ≤ small.instances := by decide
  have fewer : small.instances ≤ large.instances := by decide
  obtain ⟨first, second, built, builtLarge, _, _, _, front, scaled, _, _, differ⟩ :=
    images_depend_on_own_setting [] calls positive fewer
  have bytes : littleEndian 4 small.gridScale.toNat = [2, 1, 0, 0] := by decide
  refine ⟨positive, fewer, first, second, built, builtLarge, front, scaled.trans bytes, fun k behind => ?_⟩
  by_contra different
  rcases differ k different with ⟨before, _⟩ | ⟨_, _, height⟩
  · omega
  · exact height rfl

end GpuBuffer.Scene
