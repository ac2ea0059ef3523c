import GpuBuffer.Proofs.Checked.Scene

namespace GpuBuffer.Scene

def images (scene : Scene) : List Image :=
  [scene.vertices.image, scene.instances.image, scene.projection.image, scene.grid.image, scene.indices.image]

/-- What the layouts of a scene ask for, in the order of its images. -/
def requests (scene : Scene) : List BufferRequest :=
  [scene.vertices.layout.request, scene.instances.layout.request, scene.projection.layout.layout.request,
    scene.grid.layout.layout.request, scene.indices.layout.request]

theorem requests_made (settings : Settings) (projection grid : Nat) :
    (made settings projection grid).requests.map (·.size) = [96, 48 * settings.instances, 208, 4, 144] := by
  simp only [requests, made, List.map_cons, List.map_nil]
  rfl

theorem images_made (settings : Settings) (projection grid : Nat) :
    (made settings projection grid).images.map Image.size = [96, 48 * settings.instances, 208, 4, 144] := by
  simp only [images, made, cubeImage, instanceImage, projectionImage, gridImage, indexImage, List.map_cons, List.map_nil,
    Image.size_writeAll, Image.size_zeroed]
  rfl

/-! ### Builds through one cache -/

/-- Makes one scene after the other, all through one cache. -/
def buildAll (cache : StructCache) : List Settings → StructCache × List (Except BufferError Scene)
  | [] => (cache, [])
  | settings :: rest =>
    let (next, outcome) := build settings cache
    let (last, outcomes) := buildAll next rest
    (last, outcome :: outcomes)

/-- The same in words. -/
def buildAll? (cache : StructCache) : List Settings → Option (StructCache × List (Except BufferError Scene))
  | [] => some (cache, [])
  | settings :: rest => do
    let (next, outcome) ← build? settings cache
    let (last, outcomes) ← buildAll? next rest
    return (last, outcome :: outcomes)

/-- A new cache once it was asked for both structs. -/
def stocked : StructCache :=
  ⟨[(gridSchema, ⟨1, gridLayout⟩), (projectionSchema, ⟨0, projectionLayout⟩)], 2⟩

/-- What builds leave of a new cache, which none of them touches before the first that has an instance. -/
def cacheAfter (series : List Settings) : StructCache :=
  if series.any (0 < ·.instances) then stocked else .empty

/-- What a build comes to, through whatever other builds leave of a new cache. -/
def outcome (settings : Settings) : Except BufferError Scene :=
  if settings.instances = 0 then .error (.incomplete "instance buffer" .anyElement) else .ok (made settings 0 1)

theorem isOk_outcome (settings : Settings) : (outcome settings).isOk = decide (0 < settings.instances) := by
  unfold outcome
  split
  · rename_i absent
    rw [absent]
    rfl
  · rename_i present
    rw [decide_eq_true (Nat.pos_of_ne_zero present)]
    rfl

/-- The structs that a cache left by builds hands out, and what remains of it. -/
theorem gets_cacheAfter (earlier : List Settings) :
    ((cacheAfter earlier).get projectionSchema).2.result = .ok ⟨0, projectionLayout⟩ ∧
      (((cacheAfter earlier).get projectionSchema).1.get gridSchema).2.result = .ok ⟨1, gridLayout⟩ ∧
      (((cacheAfter earlier).get projectionSchema).1.get gridSchema).1 = stocked := by
  unfold cacheAfter
  split
  · exact ⟨rfl, rfl, rfl⟩
  · exact ⟨rfl, rfl, rfl⟩

theorem build_cacheAfter (earlier : List Settings) (settings : Settings) :
    build settings (cacheAfter earlier) = (cacheAfter (earlier ++ [settings]), outcome settings) := by
  obtain ⟨first, second, last⟩ := gets_cacheAfter earlier
  rcases Nat.eq_zero_or_pos settings.instances with absent | positive
  · have same : cacheAfter (earlier ++ [settings]) = cacheAfter earlier := by
      simp [cacheAfter, absent]
    rw [build_of_no_instance absent, same, outcome, if_pos absent]
  · have filled : cacheAfter (earlier ++ [settings]) = stocked := by
      simp [cacheAfter, positive]
    rw [build_of_gets positive first second, last, filled, outcome, if_neg (Nat.ne_of_gt positive)]

theorem buildAll_cacheAfter (earlier series : List Settings) :
    buildAll (cacheAfter earlier) series = (cacheAfter (earlier ++ series), series.map outcome) := by
  induction series generalizing earlier with
  | nil => rw [List.append_nil]; rfl
  | cons settings rest ih =>
    simp only [buildAll, build_cacheAfter, ih, List.append_assoc, List.singleton_append, List.map_cons]

theorem buildAll?_cacheAfter (earlier : List Settings) {series : List Settings}
    (bounded : ∀ settings ∈ series, settings.instances ≤ 2 ^ 30 - 1) :
    buildAll? (cacheAfter earlier) series = some (buildAll (cacheAfter earlier) series) := by
  induction series generalizing earlier with
  | nil => rfl
  | cons settings rest ih =>
    obtain ⟨small, later⟩ := List.forall_mem_cons.mp bounded
    obtain ⟨first, second, _⟩ := gets_cacheAfter earlier
    simp only [buildAll?, buildAll, build?_eq small first second, build_cacheAfter, ih _ later,
      Option.bind_eq_bind, Option.bind_some]
    rfl

/-- Builds through one cache that was empty at first. With an instance or more a build succeeds, whatever its
floats are, and no sum or product in it overflows; its images are as large as their layouts say, which is known
from the instances alone. Without an instance it is refused before it touches the cache. The cache holds
nothing up to the first success and two layouts from then on, which all scenes share. -/
theorem buildAll_fills_buffers {series : List Settings}
    (bounded : ∀ settings ∈ series, settings.instances ≤ 2 ^ 30 - 1) :
    buildAll? .empty series = some (buildAll .empty series) ∧
      (∀ i, (buildAll .empty (series.take i)).1.size =
        if ((buildAll .empty series).2.take i).any (·.isOk) then 2 else 0) ∧
      ∃ projection grid : Shared StructLayout, projection.id ≠ grid.id ∧
        ∀ (i : Nat) (settings : Settings), series[i]? = some settings →
          let before := (buildAll .empty (series.take i)).1
          let after := (buildAll .empty (series.take (i + 1))).1
          ∃ outcome, (buildAll .empty series).2[i]? = some outcome ∧ build settings before = (after, outcome) ∧
            (settings.instances = 0 →
              outcome = .error (.incomplete "instance buffer" .anyElement) ∧ after = before) ∧
            (1 ≤ settings.instances → ∃ scene, outcome = .ok scene ∧
              scene.images.map Image.size = [96, 48 * settings.instances, 208, 4, 144] ∧
              scene.requests.map (·.size) = scene.images.map Image.size ∧
              scene.projection.layout = projection ∧ scene.grid.layout = grid) := by
  have run (series : List Settings) : buildAll .empty series = (cacheAfter series, series.map outcome) :=
    buildAll_cacheAfter [] series
  refine ⟨buildAll?_cacheAfter [] bounded, fun i => ?_, ⟨0, projectionLayout⟩, ⟨1, gridLayout⟩, by decide, ?_⟩
  · rw [run, run, ← List.map_take, List.any_map]
    have succeeds : ((·.isOk) ∘ outcome) = fun settings => decide (0 < settings.instances) := funext isOk_outcome
    rw [succeeds, cacheAfter]
    split <;> rfl
  · intro i settings chosen before after
    have grown : series.take (i + 1) = series.take i ++ [settings] := by
      rw [List.take_add_one, chosen, Option.toList_some]
    have step : build settings before = (after, outcome settings) := by
      simp only [before, after, run, grown, build_cacheAfter]
    refine ⟨outcome settings, ?_, step, fun absent => ?_, fun present => ?_⟩
    · rw [run, List.getElem?_map, chosen, Option.map_some]
    · obtain ⟨same, refused⟩ := Prod.mk.inj (step.symm.trans (build_of_no_instance absent))
      exact ⟨refused, same⟩
    · refine ⟨made settings 0 1, if_neg (Nat.ne_of_gt present), images_made .., ?_, rfl, rfl⟩
      rw [requests_made, images_made]

/-- A refused build, the most instances there may be with a canvas that is no number and one of no height, and a
small scene. -/
theorem buildAll_fills_buffers_of_refused_and_largest :
    let empty : Settings := { instances := 0 }
    let most : Settings := { instances := 2 ^ 30 - 1, canvasWidth := ⟨0x7FC00000⟩, canvasHeight := 0 }
    let small : Settings := { instances := 1, canvasWidth := ⟨0xFF800000⟩, gridScale := 7 }
    let series := [empty, most, small]
    let outcomes : List (Except BufferError Scene) := (buildAll .empty series).2
    (∀ settings ∈ series, settings.instances ≤ 2 ^ 30 - 1) ∧
      buildAll? .empty series = some (buildAll .empty series) ∧
      (buildAll .empty [empty]).1.size = 0 ∧ (buildAll .empty [empty, most]).1.size = 2 ∧
      ∃ first second : Scene, outcomes[0]? = some (.error (.incomplete "instance buffer" .anyElement)) ∧
        outcomes[1]? = some (Except.ok first) ∧ outcomes[2]? = some (Except.ok second) ∧
        first.images.map Image.size = [96, 48 * (2 ^ 30 - 1), 208, 4, 144] ∧
        second.images.map Image.size = [96, 48, 208, 4, 144] ∧
        first.projection.layout = second.projection.layout ∧ first.grid.layout = second.grid.layout := by
  intro empty most small series outcomes
  have bounded : ∀ settings ∈ series, settings.instances ≤ 2 ^ 30 - 1 := by decide
  obtain ⟨held, sizes, projection, grid, _, each⟩ := buildAll_fills_buffers bounded
  obtain ⟨_, atEmpty, _, refused, _⟩ := each 0 empty rfl
  obtain ⟨_, atMost, _, _, filled⟩ := each 1 most rfl
  obtain ⟨_, atSmall, _, _, refilled⟩ := each 2 small rfl
  obtain ⟨first, rfl, firstSizes, _, firstProjection, firstGrid⟩ := filled (by decide)
  obtain ⟨second, rfl, secondSizes, _, secondProjection, secondGrid⟩ := refilled (by decide)
  obtain ⟨rfl, _⟩ := refused rfl
  have front : outcomes.take 1 = [.error (.incomplete "instance buffer" .anyElement)] := by
    rw [List.take_add_one, atEmpty]
    rfl
  have both : outcomes.take 2 =
      [.error (.incomplete "instance buffer" .anyElement), .ok first] := by
    rw [List.take_add_one, front, atMost]
    rfl
  have firstSize := sizes 1
  have secondSize := sizes 2
  rw [front] at firstSize
  rw [both] at secondSize
  exact ⟨bounded, held, firstSize, secondSize, first, second, atEmpty, atMost, atSmall, firstSizes, secondSizes,
    firstProjection.trans secondProjection.symm, firstGrid.trans secondGrid.symm⟩

end GpuBuffer.Scene
