import GpuBuffer.Proofs.Checked.Reckoning
import GpuBuffer.Proofs.Image.Answer
import GpuBuffer.Proofs.Resolution.Walk
import GpuBuffer.Proofs.Struct.Tight
import GpuBuffer.Proofs.Vertex.Parity

namespace GpuBuffer

open Reckoning

theorem MemberType.size_lt (type : MemberType) : type.size < 2 ^ 32 := by cases type <;> decide

theorem MemberType.alignment_lt (type : MemberType) : type.alignment < 2 ^ 32 := by cases type <;> decide

theorem VertexFormat.size_lt (format : VertexFormat) : format.size < 2 ^ 32 := by cases format <;> decide

/-- Where placing members in words has come to. -/
structure WordPlacing where
  cursor : UInt32 := 0
  alignment : UInt32 := 4
  placed : List PlacedMember := []

namespace WordPlacing

def next (state : WordPlacing) (m : Member) : Reckoning WordPlacing := do
  let align := UInt32.ofNat m.type.alignment
  let offset ← Reckoning.roundUp state.cursor align
  let reach ← sum offset (UInt32.ofNat m.type.size)
  return ⟨reach, max state.alignment align, state.placed ++ [⟨m, offset.toNat⟩]⟩

/-- The words are those of the exact state. -/
structure Shows (state : WordPlacing) (exact : Placing) : Prop where
  cursor : state.cursor.toNat = exact.cursor
  alignment : state.alignment.toNat = exact.alignment
  placed : state.placed = exact.placed

theorem toNat_max (a b : UInt32) : (max a b).toNat = max a.toNat b.toNat := by
  rw [Nat.max_def]
  change (if a ≤ b then b else a).toNat = _
  simp only [UInt32.le_iff_toNat_le]
  split <;> rfl

theorem needs_next {state : WordPlacing} {exact : Placing} (shows : state.Shows exact) (m : Member) :
    (state.next m).Needs (exact.next m).cursor (·.Shows (exact.next m)) := by
  have align : (UInt32.ofNat m.type.alignment).toNat = m.type.alignment :=
    UInt32.toNat_ofNat_of_lt' m.type.alignment_lt
  have size : (UInt32.ofNat m.type.size).toNat = m.type.size := UInt32.toNat_ofNat_of_lt' m.type.size_lt
  have rounded := needs_roundUp state.cursor (align.symm ▸ m.type.alignment_pos)
  rw [align, shows.cursor] at rounded
  refine rounded.bind (Nat.le_add_right _ m.type.size) fun _ offset atOffset => ?_
  have reached := needs_sum offset (UInt32.ofNat m.type.size)
  rw [atOffset, size] at reached
  refine reached.bind le_rfl fun small reach atReach => needs_pure small ⟨atReach, ?_, ?_⟩
  · rw [toNat_max, align, shows.alignment]
    rfl
  · rw [atOffset, shows.placed]
    rfl

theorem cursor_le_next (exact : Placing) (m : Member) : exact.cursor ≤ (exact.next m).cursor :=
  (le_roundUp exact.cursor m.type.alignment_pos).trans (Nat.le_add_right _ _)

theorem cursor_le_foldl_next (exact : Placing) (members : List Member) :
    exact.cursor ≤ (members.foldl Placing.next exact).cursor := by
  induction members generalizing exact with
  | nil => exact le_rfl
  | cons m rest ih => exact (cursor_le_next exact m).trans (ih (exact.next m))

/-- No member is placed past a word before the last one ends past it. -/
theorem needs_foldlM_next {state : WordPlacing} {exact : Placing} (shows : state.Shows exact)
    (members : List Member) :
    (members.foldlM next state).Needs (members.foldl Placing.next exact).cursor
      (·.Shows (members.foldl Placing.next exact)) := by
  induction members generalizing state exact with
  | nil => exact needs_pure (shows.cursor ▸ state.cursor.toNat_lt) shows
  | cons m rest ih =>
    rw [List.foldlM_cons, List.foldl_cons]
    exact (needs_next shows m).bind (cursor_le_foldl_next _ rest) fun _ _ later => ih later

end WordPlacing

namespace StructSchema

/-- The layout of a struct, computed in words once the declaration is found complete. -/
def layoutInWords (schema : StructSchema) : Reckoning (Except BufferError StructLayout) :=
  if schema.label = "" then pure (.error (.incomplete schema.label .label))
  else if schema.members = [] then pure (.error (.incomplete schema.label .fields))
  else match repeatedName? [] (schema.members.map (·.name)) with
    | some name => pure (.error (.duplicateField schema.label name))
    | none => do
      let last ← schema.members.foldlM WordPlacing.next {}
      let size ← Reckoning.roundUp last.cursor last.alignment
      return .ok ⟨schema.label, schema.binding, last.placed, size.toNat, last.alignment.toNat⟩

theorem needs_layoutInWords {schema : StructSchema} {layout : StructLayout} (resolves : schema.ResolvesTo layout) :
    schema.layoutInWords.Needs layout.size (· = .ok layout) := by
  have unrepeated : repeatedName? [] (schema.members.map (·.name)) = none :=
    repeatedName?_eq_none_iff.mpr ⟨resolves.distinct, by simp⟩
  have start : WordPlacing.Shows {} {} := ⟨rfl, rfl, rfl⟩
  have placed := WordPlacing.needs_foldlM_next start schema.members
  rw [foldl_next_members] at placed
  simp only [layoutInWords, if_neg resolves.labelled, if_neg resolves.declared, unrepeated]
  refine placed.bind (resolves.size ▸ schema.extent_le_size) fun _ last shows => ?_
  have positive : 0 < last.alignment.toNat := by
    have least := schema.four_le_alignment
    rw [shows.alignment]
    exact Nat.lt_of_lt_of_le (by decide) least
  have rounded := needs_roundUp last.cursor positive
  rw [shows.cursor, shows.alignment] at rounded
  refine rounded.bind resolves.size.ge fun small size atSize => needs_pure (resolves.size ▸ small) ?_
  obtain ⟨label, binding, members, total, alignment⟩ := layout
  cases resolves.label
  cases resolves.binding
  cases resolves.members
  cases resolves.size
  cases resolves.alignment
  rw [atSize, shows.placed, shows.alignment]
  rfl

end StructSchema

/-- Where an attribute ends, in words. -/
def PlacedAttribute.reachInWords (a : PlacedAttribute) : Reckoning UInt32 :=
  sum (UInt32.ofNat a.offset) (UInt32.ofNat a.size)

theorem PlacedAttribute.needs_reachInWords {a : PlacedAttribute} (small : a.offset < 2 ^ 32) :
    a.reachInWords.Needs a.reach (·.toNat = a.reach) := by
  have reached := needs_sum (UInt32.ofNat a.offset) (UInt32.ofNat a.size)
  have size : (UInt32.ofNat a.size).toNat = a.size := UInt32.toNat_ofNat_of_lt' a.format.size_lt
  rwa [UInt32.toNat_ofNat_of_lt' small, size] at reached

/-- Where the next attribute starts, in words. -/
def endInWords (placed : List PlacedAttribute) : Reckoning UInt32 :=
  match placed.getLast? with
  | none => pure 0
  | some last => last.reachInWords

/-- Places one more attribute right behind the last, in words. -/
def placeNextInWords (placed : List PlacedAttribute) (a : Attribute) : Reckoning (List PlacedAttribute) := do
  let start ← endInWords placed
  return placed ++ [⟨a, start.toNat⟩]

theorem needs_endInWords {placed : List PlacedAttribute} (small : ∀ a ∈ placed, a.offset < 2 ^ 32) :
    (endInWords placed).Needs ((placed.getLast?.map (·.reach)).getD 0)
      (·.toNat = (placed.getLast?.map (·.reach)).getD 0) := by
  unfold endInWords
  cases atEnd : placed.getLast? with
  | none => exact needs_pure (by decide) rfl
  | some last => exact PlacedAttribute.needs_reachInWords (small last (List.mem_of_getLast? atEnd))

theorem needs_placeNextInWords {placed : List PlacedAttribute} (small : ∀ a ∈ placed, a.offset < 2 ^ 32)
    (a : Attribute) :
    (placeNextInWords placed a).Needs ((placed.getLast?.map (·.reach)).getD 0)
      fun next => next = placeNext placed a ∧ ∀ a ∈ next, a.offset < 2 ^ 32 := by
  refine (needs_endInWords small).bind le_rfl fun held start atStart => needs_pure held ⟨?_, ?_⟩
  · rw [atStart, placeNext]
  · intro b member
    rcases List.mem_append.mp member with earlier | last
    · exact small b earlier
    · rw [List.mem_singleton.mp last]
      exact start.toNat_lt

theorem sum_dropLast_le (sizes : List Nat) : sizes.dropLast.sum ≤ sizes.sum := by
  cases sizes using List.reverseRecOn with
  | nil => exact le_rfl
  | append_singleton front last =>
    rw [List.dropLast_concat, List.sum_append]
    exact Nat.le_add_right _ _

/-- Attributes are placed while they are declared. The end of the last one is not computed yet. -/
theorem needs_foldlM_placeNextInWords (attributes : List Attribute) :
    (attributes.foldlM placeNextInWords []).Needs (attributes.map (·.format.size)).dropLast.sum
      fun placed => placed = placeAttributes 0 attributes ∧ ∀ a ∈ placed, a.offset < 2 ^ 32 := by
  induction attributes using List.reverseRecOn with
  | nil => exact needs_pure (by decide) ⟨rfl, fun _ member => nomatch member⟩
  | append_singleton front last ih =>
    rw [List.foldlM_append, List.map_append, List.map_singleton, List.dropLast_concat]
    refine ih.bind (sum_dropLast_le _) fun _ placed known => ?_
    obtain ⟨rfl, small⟩ := known
    have next := needs_placeNextInWords small last
    rw [reach_getLast, ← placeAttributes_concat] at next
    rw [List.foldlM_cons]
    exact next.bind le_rfl fun held _ done => needs_pure held done

namespace VertexSchema

/-- Rounds the stride, in words. -/
def strideInWords (schema : VertexSchema) (extent : UInt32) : Reckoning (Except BufferError UInt32) :=
  if extent % 4 = 0 then pure (.ok extent)
  else match schema.rounding with
    | .pad => do
      let stride ← Reckoning.roundUp extent 4
      return .ok stride
    | .refuse => pure (.error (.unalignedStride schema.label extent.toNat))

/-- The layout of a stream, computed in words. Its attributes were placed before anything is checked. -/
def layoutInWords (schema : VertexSchema) : Reckoning (Except BufferError VertexLayout) := do
  let placed ← schema.attributes.foldlM placeNextInWords []
  if schema.label = "" then return .error (.incomplete schema.label .label)
  else match placed.getLast? with
    | none => return .error (.incomplete schema.label .fields)
    | some last => match schema.count with
      | .error e => return .error e
      | .ok count => match repeatedName? [] (schema.attributes.map (·.name)) with
        | some name => return .error (.duplicateField schema.label name)
        | none => do
          let extent ← last.reachInWords
          let stride ← schema.strideInWords extent
          return stride.map fun stride => ⟨schema.label, schema.stepMode, count, stride.toNat, placed⟩

theorem needs_strideInWords {schema : VertexSchema} {stride : Nat} (rounded : schema.stride = .ok stride)
    {extent : UInt32} (exact : extent.toNat = schema.extent) :
    (schema.strideInWords extent).Needs stride fun word => ∃ w : UInt32, word = .ok w ∧ w.toNat = stride := by
  have remainder : extent % 4 = 0 ↔ schema.extent % 4 = 0 := by
    rw [← UInt32.toNat_inj, UInt32.toNat_mod, exact]
    rfl
  have four : (4 : UInt32).toNat = 4 := rfl
  unfold VertexSchema.stride at rounded
  unfold strideInWords
  by_cases aligned : schema.extent % 4 = 0
  · rw [if_pos aligned] at rounded
    cases rounded
    rw [if_pos (remainder.mpr aligned)]
    exact needs_pure (exact ▸ extent.toNat_lt) ⟨extent, rfl, exact⟩
  · rw [if_neg aligned] at rounded
    rw [if_neg (mt remainder.mp aligned)]
    cases policy : schema.rounding with
    | refuse => simp [policy] at rounded
    | pad =>
      simp only [policy, Except.ok.injEq] at rounded
      have padded := needs_roundUp extent (show 0 < (4 : UInt32).toNat by decide)
      rw [exact, four, rounded] at padded
      exact padded.bind le_rfl fun small w atStride => needs_pure small ⟨w, rfl, atStride⟩

theorem needs_layoutInWords {schema : VertexSchema} {layout : VertexLayout} (resolves : schema.ResolvesTo layout) :
    schema.layoutInWords.Needs layout.stride (· = .ok layout) := by
  have counted := count_eq_ok_iff.mpr ⟨resolves.counted, resolves.positive⟩
  have unrepeated : repeatedName? [] (schema.attributes.map (·.name)) = none :=
    repeatedName?_eq_none_iff.mpr ⟨resolves.distinct, by simp⟩
  have padded := extent_le_stride resolves.stride
  refine (needs_foldlM_placeNextInWords schema.attributes).bind ((sum_dropLast_le _).trans padded)
    fun _ placed known => ?_
  obtain ⟨rfl, small⟩ := known
  obtain ⟨last, atEnd⟩ : ∃ last, schema.placed.getLast? = some last :=
    Option.ne_none_iff_exists'.mp (mt getLast?_placed_eq_none_iff.mp resolves.declared)
  have reached := PlacedAttribute.needs_reachInWords (small last (List.mem_of_getLast? atEnd))
  rw [reach_eq_extent atEnd] at reached
  simp only [if_neg resolves.labelled, ← placed.eq_def, atEnd, counted, unrepeated]
  refine reached.bind padded fun _ extent atExtent => ?_
  refine (needs_strideInWords resolves.stride atExtent).bind le_rfl fun small word atStride => ?_
  obtain ⟨w, rfl, exact⟩ := atStride
  refine needs_pure small ?_
  obtain ⟨label, stepMode, elements, stride, attributes⟩ := layout
  cases resolves.label
  cases resolves.stepMode
  cases resolves.attributes
  cases exact
  rfl

theorem Complete.resolvesTo_padded {schema : VertexSchema} {count : Nat} (complete : schema.Complete count)
    (pads : schema.rounding = .pad) : schema.ResolvesTo (schema.layoutOf count (roundUp schema.extent 4)) := by
  have rounded : schema.stride = .ok (roundUp schema.extent 4) := by
    unfold VertexSchema.stride
    split
    · rename_i aligned
      rw [roundUp_of_dvd (by decide) (Nat.dvd_of_mod_eq_zero aligned)]
    · rw [pads]
  exact ⟨complete.labelled, complete.declared, complete.counted, complete.positive, complete.distinct, rounded,
    rfl, rfl, rfl⟩

end VertexSchema

namespace VertexLayout

/-- Where an element ends, in 64-bit words. -/
def elementEndInWords (layout : VertexLayout) (element : Nat) : UInt64 :=
  wideProduct element layout.stride + UInt64.ofNat layout.stride

theorem toNat_elementEndInWords {layout : VertexLayout} (narrow : layout.stride < 2 ^ 32) {element : Nat}
    (indexed : element < 2 ^ 32) :
    (layout.elementEndInWords element).toNat = layout.elementStart element + layout.stride := by
  have held : layout.elementStart element + layout.stride < 2 ^ 64 := elementEnd_lt narrow indexed
  have stride : (UInt64.ofNat layout.stride).toNat = layout.stride := by
    rw [UInt64.toNat_ofNat', Nat.mod_eq_of_lt (by omega)]
  rw [elementEndInWords, UInt64.toNat_add, toNat_wideProduct indexed narrow, stride]
  exact Nat.mod_eq_of_lt held

theorem patch_beyond {layout : VertexLayout} {key : AttributeKey} (known : (layout.find? key).isSome) {element : Nat}
    (beyond : layout.elements ≤ element) (label : String) (size : Nat) (values : Values) :
    layout.patch label size element key values =
      .error (.outOfBounds layout.label (layout.elementStart element + layout.stride) layout.size) := by
  obtain ⟨a, found⟩ := Option.isSome_iff_exists.mp known
  simp only [patch, found, if_pos beyond]

end VertexLayout

/-- Resolving a complete declaration in words overflows exactly where the answer itself does not fit one:
the padded size of a struct, the padded stride of a stream. Where it fits, every step on the way does, and
the words come to the exact layout. Sizes and places of whole elements are exact in 64-bit words, also the
end that is reported for an element that a stream does not have. -/
theorem layout_held_iff_size_fits :
    (∀ schema : StructSchema, schema.label ≠ "" → schema.members ≠ [] → (schema.members.map (·.name)).Nodup →
      ∃ layout, schema.layout = .ok layout ∧ layout.size = schema.size ∧
        (schema.layoutInWords.Held ↔ layout.size < 2 ^ 32) ∧
        (layout.size < 2 ^ 32 → schema.layoutInWords.value = .ok layout)) ∧
      (∀ (schema : VertexSchema) (count : Nat), schema.Complete count → schema.rounding = .pad →
        ∃ layout, schema.layout = .ok layout ∧ layout.stride = roundUp schema.extent 4 ∧
          (schema.layoutInWords.Held ↔ layout.stride < 2 ^ 32) ∧
          (layout.stride < 2 ^ 32 → schema.layoutInWords.value = .ok layout)) ∧
      ∀ layout : VertexLayout, layout.stride < 2 ^ 32 → layout.elements < 2 ^ 32 → ∀ element < 2 ^ 32,
        (wideProduct layout.stride layout.elements).toNat = layout.size ∧
          (wideProduct element layout.stride).toNat = layout.elementStart element ∧
          (layout.elementEndInWords element).toNat = layout.elementStart element + layout.stride ∧
          ∀ (key : AttributeKey) (label : String) (size : Nat) (values : Values),
            (layout.find? key).isSome → layout.elements ≤ element →
            layout.patch label size element key values =
              .error (.outOfBounds layout.label (layout.elementEndInWords element).toNat
                (wideProduct layout.stride layout.elements).toNat) := by
  refine ⟨?_, ?_, ?_⟩
  · intro schema labelled declared distinct
    have resolves : schema.ResolvesTo ⟨schema.label, schema.binding, schema.placed, schema.size, schema.alignment⟩ :=
      ⟨labelled, declared, distinct, rfl, rfl, rfl, rfl, rfl⟩
    have needs := StructSchema.needs_layoutInWords resolves
    exact ⟨_, StructSchema.layout_eq_ok_iff.mpr resolves, rfl, needs.held_iff, needs.value⟩
  · intro schema count complete pads
    have resolves := complete.resolvesTo_padded pads
    have needs := VertexSchema.needs_layoutInWords resolves
    exact ⟨_, VertexSchema.layout_eq_ok_iff.mpr resolves, rfl, needs.held_iff, needs.value⟩
  · intro layout narrow counted element indexed
    have size : (wideProduct layout.stride layout.elements).toNat = layout.size := toNat_wideProduct narrow counted
    have reach := VertexLayout.toNat_elementEndInWords narrow indexed
    refine ⟨size, toNat_wideProduct indexed narrow, reach, ?_⟩
    intro key label imageSize values known beyond
    rw [reach, size]
    exact VertexLayout.patch_beyond known beyond label imageSize values

/-- A struct with a gap and a rounded size, a padded stream, and the last element that a word can name in the
widest stream there is. -/
theorem layout_held_iff_size_fits_of_padded_layouts :
    let struct : StructSchema :=
      { label := "s", members := [⟨"scale", .f32⟩, ⟨"basis", .mat3x3f⟩, ⟨"axis", .vec3f⟩] }
    let stream : VertexSchema :=
      { label := "v", elements := some 3, attributes := [⟨0, "position", .float32x3⟩, ⟨1, "flags", .uint8x2⟩] }
    let id : PlacedAttribute := ⟨⟨0, "id", .uint32⟩, 0⟩
    let widest : VertexLayout := ⟨"w", .perVertex, 2 ^ 32 - 1, 2 ^ 32 - 4, [id]⟩
    struct.layoutInWords.Held ∧ struct.layoutInWords.value = struct.layout ∧ struct.size = 80 ∧
      stream.layoutInWords.Held ∧ stream.layoutInWords.value = stream.layout ∧ roundUp stream.extent 4 = 16 ∧
      (wideProduct widest.stride widest.elements).toNat = (2 ^ 32 - 4) * (2 ^ 32 - 1) ∧
      widest.patch "w" 0 (2 ^ 32 - 1) (.slot 0) (.unsigned []) =
        .error (.outOfBounds "w" ((2 ^ 32 - 4) * 2 ^ 32) ((2 ^ 32 - 4) * (2 ^ 32 - 1))) := by
  intro struct stream id widest
  obtain ⟨structs, streams, elements⟩ := layout_held_iff_size_fits
  obtain ⟨layout, resolved, padding, held, value⟩ := structs struct (by decide) (by decide) (by decide)
  obtain ⟨padded, resolvedStream, stride, heldStream, valueStream⟩ :=
    streams stream 3 ⟨by decide, by decide, rfl, by decide, by decide⟩ rfl
  obtain ⟨total, _, reach, beyond⟩ := elements widest (by decide) (by decide) (2 ^ 32 - 1) (by decide)
  have structSize : struct.size = 80 := by decide
  have streamStride : roundUp stream.extent 4 = 16 := by decide
  have small : layout.size < 2 ^ 32 := by rw [padding, structSize]; decide
  have narrow : padded.stride < 2 ^ 32 := by rw [stride, streamStride]; decide
  have last : widest.elementStart (2 ^ 32 - 1) + widest.stride = (2 ^ 32 - 4) * 2 ^ 32 := by decide
  have size : widest.size = (2 ^ 32 - 4) * (2 ^ 32 - 1) := by decide
  have refused := beyond (.slot 0) "w" 0 (.unsigned []) (by decide) (by decide)
  rw [reach, total, last, size] at refused
  exact ⟨held.mpr small, resolved ▸ value small, structSize, heldStream.mpr narrow,
    resolvedStream ▸ valueStream narrow, streamStride, total.trans size, refused⟩

end GpuBuffer
