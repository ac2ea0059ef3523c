import GpuBuffer.Proofs.Alignment
import GpuBuffer.Proofs.Resolution
import Mathlib.Algebra.GroupWithZero.Nat

namespace GpuBuffer

/-- Where keys differ, every entry is the first with its key. -/
theorem find?_of_nodup {α κ : Type} [BEq κ] [LawfulBEq κ] {key : α → κ} {xs : List α}
    (distinct : (xs.map key).Nodup) {x : α} (member : x ∈ xs) : xs.find? (key · == key x) = some x := by
  induction xs with
  | nil => cases member
  | cons first rest ih =>
    obtain ⟨fresh, later⟩ := List.nodup_cons.mp distinct
    rcases List.mem_cons.mp member with rfl | inside
    · exact List.find?_cons_of_pos (beq_self_eq_true _)
    · have other : key first ≠ key x := fun same => fresh (same ▸ List.mem_map_of_mem inside)
      rw [List.find?_cons_of_neg (by simpa using other)]
      exact ih later inside

/-- What a search finds stands before everything else that it would have accepted. -/
theorem find?_eq_some_iff_first {α : Type} {accepts : α → Bool} {xs : List α} {x : α} :
    xs.find? accepts = some x ↔
      accepts x = true ∧ ∃ i : Nat, xs[i]? = some x ∧ ∀ j < i, ∀ y, xs[j]? = some y → accepts y = false := by
  rw [List.find?_eq_some_iff_getElem]
  refine and_congr_right fun _ => exists_congr fun i => ?_
  constructor
  · rintro ⟨bound, rfl, earlier⟩
    refine ⟨List.getElem?_eq_getElem bound, fun j before y chosen => ?_⟩
    obtain ⟨inside, rfl⟩ := List.getElem?_eq_some_iff.mp chosen
    simpa using earlier j before
  · rintro ⟨chosen, earlier⟩
    obtain ⟨bound, rfl⟩ := List.getElem?_eq_some_iff.mp chosen
    refine ⟨bound, rfl, fun j before => ?_⟩
    rw [earlier j before _ (List.getElem?_eq_getElem (before.trans bound))]
    rfl

@[simp] theorem placeAttributes_attributes (start : Nat) (attributes : List Attribute) :
    (placeAttributes start attributes).map (·.toAttribute) = attributes := by
  induction attributes generalizing start with
  | nil => rfl
  | cons first rest ih => simp only [placeAttributes, List.map_cons, ih]

theorem placeAttributes_start_le {start : Nat} {attributes : List Attribute} {a : PlacedAttribute}
    (member : a ∈ placeAttributes start attributes) : start ≤ a.offset := by
  induction attributes generalizing start with
  | nil => simp [placeAttributes] at member
  | cons first rest ih =>
    rcases List.mem_cons.mp member with rfl | later
    · exact Nat.le_refl _
    · have beyond := ih later
      omega

theorem placeAttributes_reach_le {start : Nat} {attributes : List Attribute} {a : PlacedAttribute}
    (member : a ∈ placeAttributes start attributes) :
    a.reach ≤ start + (attributes.map (·.format.size)).sum := by
  induction attributes generalizing start with
  | nil => simp [placeAttributes] at member
  | cons first rest ih =>
    simp only [List.map_cons, List.sum_cons]
    rcases List.mem_cons.mp member with rfl | later
    · simp only [PlacedAttribute.reach, PlacedAttribute.size]
      omega
    · have within := ih later
      omega

theorem placeAttributes_ordered (start : Nat) (attributes : List Attribute) :
    (placeAttributes start attributes).Pairwise fun a b => a.reach ≤ b.offset := by
  induction attributes generalizing start with
  | nil => exact .nil
  | cons first rest ih => exact .cons (fun _ later => placeAttributes_start_le later) (ih _)

theorem placeMembers_start_le {start : Nat} {members : List Member} {m : PlacedMember}
    (member : m ∈ placeMembers start members) : start ≤ m.offset := by
  induction members generalizing start with
  | nil => simp [placeMembers] at member
  | cons first rest ih =>
    have rounded := le_roundUp start first.type.alignment_pos
    rcases List.mem_cons.mp member with rfl | later
    · exact rounded
    · have beyond := ih later
      omega

@[simp] theorem placeMembers_members (start : Nat) (members : List Member) :
    (placeMembers start members).map (·.toMember) = members := by
  induction members generalizing start with
  | nil => rfl
  | cons first rest ih => simp only [placeMembers, List.map_cons, ih]

theorem placeMembers_aligned {start : Nat} {members : List Member} {m : PlacedMember}
    (member : m ∈ placeMembers start members) : m.type.alignment ∣ m.offset := by
  induction members generalizing start with
  | nil => simp [placeMembers] at member
  | cons first rest ih =>
    rcases List.mem_cons.mp member with rfl | later
    · exact dvd_roundUp start first.type.alignment
    · exact ih later

theorem placeMembers_ordered (start : Nat) (members : List Member) :
    (placeMembers start members).Pairwise fun m n => m.reach ≤ n.offset := by
  induction members generalizing start with
  | nil => exact .nil
  | cons first rest ih => exact .cons (fun _ later => placeMembers_start_le later) (ih _)

namespace VertexSchema

theorem reach_le_extent {schema : VertexSchema} {a : PlacedAttribute} (member : a ∈ schema.placed) :
    a.reach ≤ schema.extent := by
  have within := placeAttributes_reach_le member
  rwa [Nat.zero_add] at within

/-- Whatever the rounding, a stride that is accepted is the rounded extent. -/
theorem stride_eq_roundUp {schema : VertexSchema} {stride : Nat} (rounded : schema.stride = .ok stride) :
    stride = roundUp schema.extent 4 := by
  unfold VertexSchema.stride at rounded
  split at rounded
  · rename_i aligned
    cases rounded
    exact (roundUp_of_dvd (by decide) (Nat.dvd_of_mod_eq_zero aligned)).symm
  · split at rounded
    · cases rounded
      rfl
    · cases rounded

theorem extent_le_stride {schema : VertexSchema} {stride : Nat} (rounded : schema.stride = .ok stride) :
    schema.extent ≤ stride :=
  stride_eq_roundUp rounded ▸ le_roundUp _ (by decide)

theorem ResolvesTo.declared_attributes {schema : VertexSchema} {layout : VertexLayout}
    (resolves : schema.ResolvesTo layout) : layout.attributes.map (·.toAttribute) = schema.attributes := by
  rw [resolves.attributes, placed, placeAttributes_attributes]

theorem ResolvesTo.distinct_names {schema : VertexSchema} {layout : VertexLayout}
    (resolves : schema.ResolvesTo layout) : (layout.attributes.map (·.name)).Nodup := by
  have distinct := resolves.distinct
  rwa [← resolves.declared_attributes, List.map_map] at distinct

theorem ResolvesTo.find?_name {schema : VertexSchema} {layout : VertexLayout} (resolves : schema.ResolvesTo layout)
    {a : PlacedAttribute} (member : a ∈ layout.attributes) : layout.find? (.name a.name) = some a :=
  find?_of_nodup resolves.distinct_names member

end VertexSchema

namespace StructSchema

theorem isGreatest_alignment (schema : StructSchema) :
    IsGreatest {a | a ∈ 4 :: schema.members.map (·.type.alignment)} schema.alignment := by
  have folded : (4 :: schema.members.map (·.type.alignment)).max? = some schema.alignment := by
    rw [List.max?_cons', List.foldl_map, alignment]
  exact List.max?_eq_some_iff.mp folded

theorem four_le_alignment (schema : StructSchema) : 4 ≤ schema.alignment :=
  schema.isGreatest_alignment.2 (List.mem_cons_self ..)

theorem extent_eq_reach {schema : StructSchema} {last : PlacedMember}
    (atEnd : schema.placed.getLast? = some last) : schema.extent = last.reach := by
  simp only [extent, atEnd]

/-- The last member reaches furthest, since no member starts before its predecessor's end. -/
theorem reach_le_extent {schema : StructSchema} {m : PlacedMember} (member : m ∈ schema.placed) :
    m.reach ≤ schema.extent := by
  obtain ⟨front, last, split⟩ : ∃ front last, schema.placed = front ++ [last] :=
    ⟨_, _, (List.dropLast_concat_getLast (List.ne_nil_of_mem member)).symm⟩
  have ordered := placeMembers_ordered 0 schema.members
  change schema.placed.Pairwise _ at ordered
  have extent : schema.extent = last.reach := extent_eq_reach (by rw [split, List.getLast?_concat])
  rw [split] at ordered member
  rw [extent]
  rcases List.mem_append.mp member with earlier | final
  · have before := (List.pairwise_append.mp ordered).2.2 m earlier last (List.mem_singleton_self last)
    simp only [PlacedMember.reach] at before ⊢
    omega
  · cases List.mem_singleton.mp final
    exact Nat.le_refl _

theorem extent_le_size (schema : StructSchema) : schema.extent ≤ schema.size :=
  le_roundUp _ (by have := schema.four_le_alignment; omega)

theorem ResolvesTo.declared_members {schema : StructSchema} {layout : StructLayout}
    (resolves : schema.ResolvesTo layout) : layout.members.map (·.toMember) = schema.members := by
  rw [resolves.members, placed, placeMembers_members]

theorem ResolvesTo.distinct_names {schema : StructSchema} {layout : StructLayout}
    (resolves : schema.ResolvesTo layout) : (layout.members.map (·.name)).Nodup := by
  have distinct := resolves.distinct
  rwa [← resolves.declared_members, List.map_map] at distinct

theorem ResolvesTo.named?_name {schema : StructSchema} {layout : StructLayout} (resolves : schema.ResolvesTo layout)
    {m : PlacedMember} (member : m ∈ layout.members) : layout.named? m.name = some m :=
  find?_of_nodup resolves.distinct_names member

end StructSchema

end GpuBuffer
