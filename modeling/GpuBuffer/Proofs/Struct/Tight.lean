import GpuBuffer.Proofs.Alignment
import GpuBuffer.Proofs.Placement
import Mathlib.Data.List.Forall2
import Mathlib.Data.List.Chain

namespace GpuBuffer

theorem getLast?_of_forall₂ {α β : Type} {R : α → β → Prop} {xs : List α} {ys : List β}
    (related : List.Forall₂ R xs ys) {y : β} (last : ys.getLast? = some y) :
    ∃ x, xs.getLast? = some x ∧ R x y := by
  have reversed := List.forall₂_reverse_iff.mpr related
  rw [← List.head?_reverse] at last ⊢
  generalize xs.reverse = us at reversed ⊢
  generalize ys.reverse = vs at reversed last
  cases reversed with
  | nil => cases last
  | cons first _ =>
    cases last
    exact ⟨_, rfl, first⟩

namespace PlacedMember

/-- The same member at an offset that is not larger. -/
def NoLater (m n : PlacedMember) : Prop :=
  m.toMember = n.toMember ∧ m.offset ≤ n.offset

theorem NoLater.reach_le {m n : PlacedMember} (noLater : m.NoLater n) : m.reach ≤ n.reach := by
  obtain ⟨same, le⟩ := noLater
  simp only [reach, size, same]
  omega

theorem NoLater.antisymm {m n : PlacedMember} (first : m.NoLater n) (second : n.NoLater m) : m = n := by
  obtain ⟨member, offset⟩ := m
  obtain ⟨other, otherOffset⟩ := n
  obtain ⟨same, le⟩ := first
  cases same
  cases Nat.le_antisymm le second.2
  rfl

end PlacedMember

/-- No choice of aligned offsets from `start` on that keeps the order puts any member earlier. -/
theorem placeMembers_noLater {start : Nat} {other : List PlacedMember}
    (first : ∀ m ∈ other.head?, start ≤ m.offset) (aligned : ∀ m ∈ other, m.type.alignment ∣ m.offset)
    (ordered : other.IsChain fun m n => m.reach ≤ n.offset) :
    List.Forall₂ PlacedMember.NoLater (placeMembers start (other.map (·.toMember))) other := by
  induction other generalizing start with
  | nil => exact .nil
  | cons m rest ih =>
    obtain ⟨next, later⟩ := List.isChain_cons.mp ordered
    have earliest : roundUp start m.type.alignment ≤ m.offset :=
      roundUp_le m.type.alignment_pos (aligned m (List.mem_cons_self ..)) (first m rfl)
    simp only [List.map_cons]
    refine .cons ⟨rfl, earliest⟩ (ih ?_ (fun n member => aligned n (List.mem_cons_of_mem _ member)) later)
    intro n atHead
    have reached := next n atHead
    simp only [PlacedMember.reach, PlacedMember.size] at reached
    omega

theorem MemberType.four_dvd_alignment (type : MemberType) : 4 ∣ type.alignment := by cases type <;> decide

namespace StructSchema

/-- Offsets that the members can have in their order: aligned, and none before its predecessor's end. -/
structure Admits (schema : StructSchema) (placed : List PlacedMember) : Prop where
  members : placed.map (·.toMember) = schema.members
  aligned : ∀ m ∈ placed, m.type.alignment ∣ m.offset
  ordered : placed.IsChain fun m n => m.reach ≤ n.offset

theorem admits_placed (schema : StructSchema) : schema.Admits schema.placed where
  members := placeMembers_members 0 schema.members
  aligned _ member := placeMembers_aligned member
  ordered := (placeMembers_ordered 0 schema.members).isChain

theorem Admits.placed_noLater {schema : StructSchema} {other : List PlacedMember}
    (admits : schema.Admits other) : List.Forall₂ PlacedMember.NoLater schema.placed other := by
  have earliest := placeMembers_noLater (fun _ _ => Nat.zero_le _) admits.aligned admits.ordered
  rwa [admits.members] at earliest

theorem exists_last_placed {schema : StructSchema} (declared : schema.members ≠ []) :
    ∃ last, schema.placed.getLast? = some last := by
  apply Option.ne_none_iff_exists'.mp
  intro none
  have members := schema.admits_placed.members
  rw [List.getLast?_eq_none_iff.mp none] at members
  exact declared members.symm

theorem Admits.extent_le {schema : StructSchema} {other : List PlacedMember} (admits : schema.Admits other)
    {last : PlacedMember} (atEnd : other.getLast? = some last) : schema.extent ≤ last.reach := by
  obtain ⟨own, ownEnd, noLater⟩ := getLast?_of_forall₂ admits.placed_noLater atEnd
  rw [extent_eq_reach ownEnd]
  exact noLater.reach_le

theorem four_dvd_alignment (schema : StructSchema) : 4 ∣ schema.alignment := by
  rcases List.mem_cons.mp schema.isGreatest_alignment.1 with least | ofMember
  · exact ⟨1, least⟩
  · obtain ⟨m, _, same⟩ := List.mem_map.mp ofMember
    rw [← same]
    exact m.type.four_dvd_alignment

theorem isLeast_size (schema : StructSchema) :
    IsLeast {n | schema.alignment ∣ n ∧ schema.extent ≤ n} schema.size :=
  isLeast_roundUp schema.extent (by have := schema.four_le_alignment; omega)

/-- A complete schema has exactly one tightest layout in the order of its members, and resolves to
it: every other choice of aligned offsets in that order puts no member earlier and needs no fewer
bytes. All places are whole words. -/
theorem layout_tightest {schema : StructSchema} (labelled : schema.label ≠ "") (declared : schema.members ≠ [])
    (distinct : (schema.members.map (·.name)).Nodup) :
    ∃ layout, schema.layout = .ok layout ∧ schema.Admits layout.members ∧
      (∀ first ∈ layout.members.head?, first.offset = 0) ∧
      (∀ other, schema.Admits other →
        List.Forall₂ PlacedMember.NoLater layout.members other ∧
          (List.Forall₂ PlacedMember.NoLater other layout.members → other = layout.members) ∧
          ∀ last ∈ other.getLast?, ∀ n, layout.alignment ∣ n → last.reach ≤ n → layout.size ≤ n) ∧
      IsGreatest {a | a ∈ 4 :: schema.members.map (·.type.alignment)} layout.alignment ∧
      (∃ last, layout.members.getLast? = some last ∧
        IsLeast {n | layout.alignment ∣ n ∧ last.reach ≤ n} layout.size) ∧
      (∀ m ∈ layout.members, m.word * 4 = m.offset ∧ m.reach ≤ layout.size) ∧
      layout.sizeInWords * 4 = layout.size := by
  refine ⟨⟨schema.label, schema.binding, schema.placed, schema.size, schema.alignment⟩,
    layout_eq_ok_iff.mpr ⟨labelled, declared, distinct, rfl, rfl, rfl, rfl, rfl⟩, schema.admits_placed,
    ?_, ?_, schema.isGreatest_alignment, ?_, ?_, ?_⟩
  · intro first atHead
    obtain ⟨m, rest, members⟩ := List.exists_cons_of_ne_nil declared
    simp only [placed, members, placeMembers, List.head?_cons, Option.mem_some_iff] at atHead
    rw [← atHead]
    exact roundUp_of_dvd m.type.alignment_pos (Nat.dvd_zero _)
  · intro other admits
    refine ⟨admits.placed_noLater, ?_, ?_⟩
    · intro noLater
      have both := admits.placed_noLater.mp (fun _ _ => PlacedMember.NoLater.antisymm) noLater.flip
      exact (List.forall₂_eq_eq_eq ▸ both).symm
    · intro last atEnd n divides above
      exact schema.isLeast_size.2 ⟨divides, (admits.extent_le atEnd).trans above⟩
  · obtain ⟨last, atEnd⟩ := exists_last_placed declared
    exact ⟨last, atEnd, extent_eq_reach atEnd ▸ schema.isLeast_size⟩
  · intro m member
    have word : 4 ∣ m.offset := Nat.dvd_trans m.type.four_dvd_alignment (placeMembers_aligned member)
    exact ⟨Nat.div_mul_cancel word, (reach_le_extent member).trans schema.extent_le_size⟩
  · exact Nat.div_mul_cancel (Nat.dvd_trans schema.four_dvd_alignment schema.isLeast_size.1.1)

/-- A vector between two matrices, and a looser choice of offsets for the same members. -/
theorem layout_tightest_of_matrices :
    let basis : Member := ⟨"basis", .mat3x3f⟩
    let axis : Member := ⟨"axis", .vec3f⟩
    let shear : Member := ⟨"shear", .mat2x2f⟩
    let scale : Member := ⟨"scale", .u32⟩
    let schema : StructSchema := { label := "s", members := [basis, axis, shear, scale] }
    let layout : StructLayout := ⟨"s", .uniform, [⟨basis, 0⟩, ⟨axis, 48⟩, ⟨shear, 64⟩, ⟨scale, 80⟩], 96, 16⟩
    let loose : List PlacedMember := [⟨basis, 16⟩, ⟨axis, 64⟩, ⟨shear, 96⟩, ⟨scale, 116⟩]
    schema.label ≠ "" ∧ schema.members ≠ [] ∧ (schema.members.map (·.name)).Nodup ∧ schema.Admits loose ∧
      schema.layout = .ok layout ∧ List.Forall₂ PlacedMember.NoLater layout.members loose ∧
      layout.size ≤ 128 ∧ layout.sizeInWords * 4 = layout.size := by
  intro basis axis shear scale schema layout loose
  have labelled : schema.label ≠ "" := by decide
  have declared : schema.members ≠ [] := by decide
  have distinct : (schema.members.map (·.name)).Nodup := by decide
  have admits : schema.Admits loose := ⟨rfl, by decide, by decide⟩
  have computed : schema.layout = .ok layout := by decide
  obtain ⟨_, resolved, _, _, others, _, _, _, words⟩ := layout_tightest labelled declared distinct
  cases computed.symm.trans resolved
  obtain ⟨noLater, _, smallest⟩ := others loose admits
  exact ⟨labelled, declared, distinct, admits, computed, noLater,
    smallest ⟨scale, 116⟩ rfl 128 (by decide) (by decide), words⟩

end StructSchema

end GpuBuffer
