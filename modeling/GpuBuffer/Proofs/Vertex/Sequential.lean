import GpuBuffer.Proofs.Encoding
import GpuBuffer.Proofs.Placement

namespace GpuBuffer

theorem placeAttributes_append (start : Nat) (front back : List Attribute) :
    placeAttributes start (front ++ back) =
      placeAttributes start front ++ placeAttributes (start + (front.map (·.format.size)).sum) back := by
  induction front generalizing start with
  | nil => rfl
  | cons first rest ih =>
    simp only [List.cons_append, placeAttributes, ih, List.map_cons, List.sum_cons, Nat.add_assoc]

/-- An attribute starts where those declared before it end. -/
theorem offset_eq_sum_take {start : Nat} {attributes : List Attribute} {i : Nat} {a : PlacedAttribute}
    (placed : (placeAttributes start attributes)[i]? = some a) :
    a.offset = start + ((attributes.take i).map (·.format.size)).sum := by
  induction attributes generalizing start i with
  | nil => simp [placeAttributes] at placed
  | cons first rest ih =>
    cases i with
    | zero =>
      cases placed
      rfl
    | succ i =>
      have later := ih placed
      simp only [List.take_succ_cons, List.map_cons, List.sum_cons]
      omega

/-- Only the formats matter to the offsets. -/
theorem placeAttributes_offsets_congr {attributes others : List Attribute}
    (formats : attributes.map (·.format) = others.map (·.format)) (start : Nat) :
    (placeAttributes start attributes).map (·.offset) = (placeAttributes start others).map (·.offset) := by
  induction attributes generalizing start others with
  | nil =>
    rw [List.map_nil, eq_comm, List.map_eq_nil_iff] at formats
    rw [formats]
  | cons first rest ih =>
    cases others with
    | nil => cases formats
    | cons other later =>
      obtain ⟨same, formats⟩ := List.cons.inj formats
      simp only [placeAttributes, List.map_cons, same, ih formats]

/-- Places one more attribute, right behind the last. -/
def placeNext (placed : List PlacedAttribute) (a : Attribute) : List PlacedAttribute :=
  placed ++ [⟨a, (placed.getLast?.map (·.reach)).getD 0⟩]

/-- The last attribute ends where the sizes of all add up to. -/
theorem reach_getLast (attributes : List Attribute) :
    ((placeAttributes 0 attributes).getLast?.map (·.reach)).getD 0 = (attributes.map (·.format.size)).sum := by
  cases attributes using List.reverseRecOn with
  | nil => rfl
  | append_singleton front last =>
    simp [placeAttributes_append, placeAttributes, PlacedAttribute.reach, PlacedAttribute.size]

theorem placeAttributes_concat (front : List Attribute) (a : Attribute) :
    placeAttributes 0 (front ++ [a]) = placeNext (placeAttributes 0 front) a := by
  rw [placeAttributes_append, placeNext, reach_getLast, Nat.zero_add]
  rfl

theorem placeAttributes_eq_foldl (attributes : List Attribute) :
    placeAttributes 0 attributes = attributes.foldl placeNext [] := by
  induction attributes using List.reverseRecOn with
  | nil => rfl
  | append_singleton front last ih =>
    rw [placeAttributes_concat, ih, List.foldl_append, List.foldl_cons, List.foldl_nil]

/-- The product of two numbers in 64-bit words. -/
def wideProduct (m n : Nat) : UInt64 :=
  UInt64.ofNat m * UInt64.ofNat n

theorem toNat_wideProduct {m n : Nat} (left : m < 2 ^ 32) (right : n < 2 ^ 32) :
    (wideProduct m n).toNat = m * n := by
  have bounded : m * n < 2 ^ 32 * 2 ^ 32 := Nat.mul_lt_mul'' left right
  rw [wideProduct, UInt64.toNat_mul, UInt64.toNat_ofNat', UInt64.toNat_ofNat',
    Nat.mod_eq_of_lt (show m < 2 ^ 64 by omega), Nat.mod_eq_of_lt (show n < 2 ^ 64 by omega)]
  exact Nat.mod_eq_of_lt bounded

namespace VertexSchema

/-- The attribute that a call declares, if it declares one. -/
def Call.attribute? : Call → Option Attribute
  | .field slot name tag => (Tagged.ofTag tag).toOption.map (Attribute.mk slot name)
  | .elements _ | .stepMode _ | .rounding _ => none

theorem attributes_apply {schema next : VertexSchema} {call : Call} (applied : schema.apply call = .ok next) :
    next.attributes = schema.attributes ++ call.attribute?.toList := by
  cases call with
  | elements _ | stepMode _ | rounding _ =>
    cases applied
    exact (List.append_nil _).symm
  | field slot name tag =>
    obtain ⟨format, read, rfl⟩ := map_eq_ok_iff.mp applied
    simp only [Call.attribute?, read]
    rfl

/-- A declaration keeps the attributes of its calls in their order, whatever else is set between them. -/
theorem attributes_declare {start schema : VertexSchema} {calls : List Call}
    (declared : start.declare calls = .ok schema) :
    schema.attributes = start.attributes ++ calls.filterMap Call.attribute? := by
  unfold declare at declared
  generalize 0 = position at declared
  induction calls generalizing start position with
  | nil =>
    cases declared
    exact (List.append_nil _).symm
  | cons call rest ih =>
    unfold applyCalls at declared
    cases applied : start.apply call with
    | error e =>
      rw [applied] at declared
      cases declared
    | ok next =>
      rw [applied] at declared
      rw [ih _ declared, attributes_apply applied, List.append_assoc]
      cases declares : call.attribute? <;> simp [declares]

/-- A declaration starts from a label, or from a label with a count and a step mode. -/
inductive Blank : VertexSchema → Prop
  | labelled (label : String) : Blank { label := label }
  | counted (label : String) (count : Nat) (stepMode : StepMode) : Blank (.ofElements label count stepMode)

theorem Blank.attributes {start : VertexSchema} (blank : Blank start) : start.attributes = [] := by
  cases blank <;> rfl

theorem Blank.attributes_declare {start schema : VertexSchema} (blank : Blank start) {calls : List Call}
    (declared : start.declare calls = .ok schema) : schema.attributes = calls.filterMap Call.attribute? := by
  rw [VertexSchema.attributes_declare declared, blank.attributes, List.nil_append]

/-- A sequential layout has no gap before its stride. The attributes are those of the calls, in their
order, and each lies where the sizes before it add up to, which is also where placing them one by one
behind the last puts them. The stride is the least multiple of 4 that holds them all, and its products with
the count and with an element are exact in 64-bit words. Of the calls, only the formats matter to offsets
and stride. -/
theorem sequential_layout {start schema : VertexSchema} {calls : List Call} {layout : VertexLayout}
    (blank : Blank start) (declared : start.declare calls = .ok schema) (resolved : schema.layout = .ok layout) :
    let attributes := calls.filterMap Call.attribute?
    layout.attributes.map (·.toAttribute) = attributes ∧
      layout.attributes = schema.placed ∧ schema.placed = attributes.foldl placeNext [] ∧
      (∀ (i : Nat) (a : PlacedAttribute), layout.attributes[i]? = some a →
        a.offset = ((attributes.take i).map (·.format.size)).sum ∧ a.reach ≤ layout.stride) ∧
      IsLeast {n | 4 ∣ n ∧ (attributes.map (·.format.size)).sum ≤ n} layout.stride ∧
      layout.strideInWords * 4 = layout.stride ∧
      (layout.stride < 2 ^ 32 →
        (layout.elements < 2 ^ 32 →
          layout.size = layout.stride * layout.elements ∧
            (wideProduct layout.stride layout.elements).toNat = layout.size) ∧
        ∀ element < 2 ^ 32, layout.elementStart element = element * layout.stride ∧
          (wideProduct element layout.stride).toNat = layout.elementStart element) ∧
      ∀ (otherStart otherSchema : VertexSchema) (otherCalls : List Call) (other : VertexLayout),
        Blank otherStart → otherStart.declare otherCalls = .ok otherSchema → otherSchema.layout = .ok other →
        attributes.map (·.format) = (otherCalls.filterMap Call.attribute?).map (·.format) →
        layout.attributes.map (·.offset) = other.attributes.map (·.offset) ∧ layout.stride = other.stride := by
  intro attributes
  have kept : schema.attributes = attributes := blank.attributes_declare declared
  have resolves := layout_eq_ok_iff.mp resolved
  have placed : layout.attributes = placeAttributes 0 attributes := kept ▸ resolves.attributes
  have rounded : layout.stride = roundUp (attributes.map (·.format.size)).sum 4 :=
    kept ▸ stride_eq_roundUp resolves.stride
  have least : IsLeast {n | 4 ∣ n ∧ (attributes.map (·.format.size)).sum ≤ n} layout.stride :=
    rounded ▸ isLeast_roundUp _ (by decide)
  refine ⟨?_, resolves.attributes, ?_, ?_, least, Nat.div_mul_cancel least.1.1, ?_, ?_⟩
  · exact resolves.declared_attributes.trans kept
  · rw [← placeAttributes_eq_foldl, ← kept]
    rfl
  · intro i a found
    have member : a ∈ schema.placed := resolves.attributes ▸ List.mem_of_getElem? found
    rw [placed] at found
    exact ⟨(offset_eq_sum_take found).trans (Nat.zero_add _),
      (reach_le_extent member).trans (extent_le_stride resolves.stride)⟩
  · intro narrow
    exact ⟨fun counted => ⟨rfl, toNat_wideProduct narrow counted⟩,
      fun element small => ⟨rfl, toNat_wideProduct small narrow⟩⟩
  · intro otherStart otherSchema otherCalls other otherBlank otherDeclared otherResolved formats
    have otherResolves := layout_eq_ok_iff.mp otherResolved
    rw [← kept, ← otherBlank.attributes_declare otherDeclared] at formats
    have offsets := placeAttributes_offsets_congr formats 0
    have extents : schema.extent = otherSchema.extent := by
      have sizes := congrArg (List.map VertexFormat.size) formats
      simp only [List.map_map] at sizes
      exact congrArg List.sum sizes
    rw [resolves.attributes, otherResolves.attributes]
    refine ⟨offsets, ?_⟩
    rw [stride_eq_roundUp resolves.stride, stride_eq_roundUp otherResolves.stride, extents]

/-- Settings between the fields, and a narrow field that leaves the next one off a word boundary. -/
theorem sequential_layout_of_interleaved_calls :
    let calls : List Call :=
      [.field 0 "id" "uint8x2", .elements 3, .rounding .pad, .field 7 "position" "float32x3", .stepMode .perInstance]
    let otherCalls : List Call :=
      [.field 1 "flags" "uint8x2", .field 1 "normal" "float32x3", .rounding .refuse, .rounding .pad]
    let id : PlacedAttribute := ⟨⟨0, "id", .uint8x2⟩, 0⟩
    let position : PlacedAttribute := ⟨⟨7, "position", .float32x3⟩, 2⟩
    let flags : PlacedAttribute := ⟨⟨1, "flags", .uint8x2⟩, 0⟩
    let normal : PlacedAttribute := ⟨⟨1, "normal", .float32x3⟩, 2⟩
    let schema : VertexSchema := ⟨"v", some 3, .perInstance, .pad, [id.toAttribute, position.toAttribute]⟩
    let other : VertexSchema := ⟨"w", some 9, .perVertex, .pad, [flags.toAttribute, normal.toAttribute]⟩
    let layout : VertexLayout := ⟨"v", .perInstance, 3, 16, [id, position]⟩
    VertexSchema.declare { label := "v" } calls = .ok schema ∧ schema.layout = .ok layout ∧
      schema.placed = [id.toAttribute, position.toAttribute].foldl placeNext [] ∧
      position.offset = id.size ∧ IsLeast {n | 4 ∣ n ∧ 14 ≤ n} layout.stride ∧
      (wideProduct 16 3).toNat = layout.size ∧
      (wideProduct (2 ^ 32 - 1) 16).toNat = layout.elementStart (2 ^ 32 - 1) ∧
      (VertexSchema.ofElements "w" 9 .perVertex).declare otherCalls = .ok other ∧
      other.layout = .ok ⟨"w", .perVertex, 9, layout.stride, [flags, normal]⟩ := by
  intro calls otherCalls id position flags normal schema other layout
  have declared : VertexSchema.declare { label := "v" } calls = .ok schema := by decide
  have resolved : schema.layout = .ok layout := by decide
  have otherDeclared : (VertexSchema.ofElements "w" 9 .perVertex).declare otherCalls = .ok other := by decide
  have otherResolved : other.layout = .ok ⟨"w", .perVertex, 9, 16, [flags, normal]⟩ := by decide
  obtain ⟨_, _, stepwise, offsets, least, _, products, alike⟩ := sequential_layout (.labelled "v") declared resolved
  obtain ⟨counted, elements⟩ := products (by decide)
  obtain ⟨_, stride⟩ := alike _ _ _ _ (.counted "w" 9 .perVertex) otherDeclared otherResolved (by decide)
  exact ⟨declared, resolved, stepwise, (offsets 1 position rfl).1, least, (counted (by decide)).2,
    (elements _ (by decide)).2, otherDeclared, stride ▸ otherResolved⟩

end VertexSchema

end GpuBuffer
