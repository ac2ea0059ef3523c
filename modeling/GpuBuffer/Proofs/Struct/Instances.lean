import GpuBuffer.Proofs.Struct.Image
import Mathlib.Data.List.Nodup
import Mathlib.Data.Set.BooleanAlgebra
import Mathlib.Order.CompletePartialOrder

namespace GpuBuffer

/-- Among powers of two the largest is a multiple of every other. -/
theorem dvd_of_isGreatest {units : Set Nat} {top : Nat} (greatest : IsGreatest units top)
    (powers : ∀ a ∈ units, ∃ e : Nat, a = 2 ^ e) {a : Nat} (among : a ∈ units) : a ∣ top := by
  have below := greatest.2 among
  obtain ⟨e, rfl⟩ := powers a among
  obtain ⟨f, rfl⟩ := powers top greatest.1
  exact Nat.pow_dvd_pow 2 ((Nat.pow_le_pow_iff_right (by decide)).mp below)

theorem Scalar.width_eq_two_pow (scalar : Scalar) : ∃ e : Nat, scalar.width = 2 ^ e := by
  cases scalar with
  | float32 | sint32 | uint32 => exact ⟨2, rfl⟩
  | uint16 => exact ⟨1, rfl⟩
  | uint8 | unorm8 => exact ⟨0, rfl⟩

theorem Shape.alignment_eq_two_pow (shape : Shape) : ∃ e : Nat, shape.alignment = 2 ^ e := by
  obtain ⟨scalar, arrangement⟩ := shape
  obtain ⟨e, width⟩ := scalar.width_eq_two_pow
  cases arrangement with
  | single => exact ⟨e, width⟩
  | vector length =>
    simp only [alignment, vectorAlignment, width]
    split
    · exact ⟨e + 1, by rw [Nat.pow_succ, Nat.mul_comm]⟩
    · exact ⟨e + 2, by rw [Nat.pow_add, Nat.mul_comm]⟩
  | matrix columns rows => exact ⟨4, rfl⟩

namespace StructSchema

/-- The alignment that is carried along while members are placed stays a power of two. So the
largest that was met is a multiple of all that were met before. -/
theorem dvd_alignment {schema : StructSchema} {m : Member} (member : m ∈ schema.members) :
    m.type.alignment ∣ schema.alignment := by
  refine dvd_of_isGreatest schema.isGreatest_alignment ?_ (List.mem_cons_of_mem _ (List.mem_map_of_mem member))
  intro a among
  rcases List.mem_cons.mp among with rfl | ofMember
  · exact ⟨2, rfl⟩
  · obtain ⟨n, _, rfl⟩ := List.mem_map.mp ofMember
    exact n.type.shape.alignment_eq_two_pow

end StructSchema

namespace StructLayout
variable {schema : StructSchema} {layout : StructLayout}

theorem dvd_alignment (resolves : schema.ResolvesTo layout) {m : PlacedMember} (member : m ∈ layout.members) :
    m.type.alignment ∣ layout.alignment := by
  have declared : m.toMember ∈ schema.members := resolves.declared_members ▸ List.mem_map_of_mem member
  exact resolves.alignment ▸ StructSchema.dvd_alignment declared

theorem alignment_dvd_size (resolves : schema.ResolvesTo layout) : layout.alignment ∣ layout.size := by
  rw [resolves.alignment, resolves.size]
  exact dvd_roundUp schema.extent schema.alignment

/-- The bytes of a member of the struct with index `k`, among structs laid end to end. -/
def range (layout : StructLayout) (k : Nat) (m : PlacedMember) : Set Nat :=
  Set.Ico (k * layout.size + m.offset) (k * layout.size + m.reach)

theorem range_subset (resolves : schema.ResolvesTo layout) {m : PlacedMember} (member : m ∈ layout.members)
    (k : Nat) : layout.range k m ⊆ Set.Ico (k * layout.size) ((k + 1) * layout.size) := by
  have within : m.reach ≤ layout.size := (record resolves).within m member
  intro p inside
  obtain ⟨lower, upper⟩ := Set.mem_Ico.mp inside
  rw [Set.mem_Ico, Nat.add_one_mul]
  omega

theorem range_disjoint (resolves : schema.ResolvesTo layout) {m n : PlacedMember} {i j k l : Nat}
    (first : layout.members[i]? = some m) (second : layout.members[j]? = some n) (different : (k, i) ≠ (l, j)) :
    Disjoint (layout.range k m) (layout.range l n) := by
  have elsewhere : ¬ (l = k ∧ n = m) := by
    rintro ⟨rfl, rfl⟩
    obtain ⟨bound, _⟩ := List.getElem?_eq_some_iff.mp first
    have distinct : layout.members.Nodup := List.Nodup.of_map (·.name) resolves.distinct_names
    exact different (congrArg (Prod.mk l) ((List.getElem?_inj bound distinct).mp (first.trans second.symm)))
  have apart := (record resolves).starts_apart (List.mem_of_getElem? first) (List.mem_of_getElem? second) elsewhere
  simp only [Record.start, record] at apart
  refine Set.disjoint_left.mpr fun p inside other => ?_
  simp only [range, PlacedMember.reach, PlacedMember.size, MemberType.size, Set.mem_Ico] at inside other
  omega

theorem range_of_patch {r : RecordWrite String} {label : String} {size : Nat} {p : Patch}
    (accepted : (layout.writeOf r).patch label size = .ok p) :
    ∃ m ∈ layout.members, m.name = r.key ∧ p.offset = r.index * layout.size + m.offset ∧
      Set.Ico p.offset p.reach = layout.range r.index m := by
  obtain ⟨m, found, _, stored⟩ := StructLayout.patch_eq_ok_iff.mp accepted
  obtain ⟨_, _, _, rfl⟩ := Target.patch_eq_ok_iff.mp stored
  refine ⟨m, mem_of_named? found, by simpa using List.find?_some found, rfl, ?_⟩
  simp only [Patch.reach, Shape.length_stored, range, PlacedMember.reach, PlacedMember.size, MemberType.size,
    StructLayout.target, Nat.add_assoc]

/-- Structs laid end to end keep every member aligned: each alignment divides that of the struct, and
this divides the size. So every member of every struct starts at a multiple of its alignment and lies
inside its own struct, and no two of them share a byte. These are the places that writes with the
structs' starts as bases go to, each to the member it names. -/
theorem instances_stay_aligned (resolved : schema.layout = .ok layout) :
    (∀ m ∈ layout.members, m.type.alignment ∣ layout.alignment) ∧ layout.alignment ∣ layout.size ∧
      (∀ (k : Nat), ∀ m ∈ layout.members,
        m.type.alignment ∣ k * layout.size + m.offset ∧
          layout.range k m ⊆ Set.Ico (k * layout.size) ((k + 1) * layout.size)) ∧
      (∀ (k l i j : Nat) (m n : PlacedMember), layout.members[i]? = some m → layout.members[j]? = some n →
        (k, i) ≠ (l, j) → Disjoint (layout.range k m) (layout.range l n)) ∧
      (∀ (k : Nat), ∀ m ∈ layout.members, ∀ values,
        (Write.member layout (k * layout.size) m.name values).aim =
          some (k * layout.size + m.offset, .value m.type.shape values)) ∧
      ∀ (k : Nat) (name : String) (values : Values) (label : String) (size : Nat) (p : Patch),
        (Write.member layout (k * layout.size) name values).patch label size = .ok p →
        ∃ m ∈ layout.members, m.name = name ∧ p.offset = k * layout.size + m.offset ∧
          Set.Ico p.offset p.reach = layout.range k m := by
  have resolves := StructSchema.layout_eq_ok_iff.mp resolved
  refine ⟨fun m member => dvd_alignment resolves member, alignment_dvd_size resolves, ?_, ?_, ?_, ?_⟩
  · intro k m member
    have divides : m.type.alignment ∣ layout.size :=
      Nat.dvd_trans (dvd_alignment resolves member) (alignment_dvd_size resolves)
    have placed : m.type.alignment ∣ m.offset := placeMembers_aligned (resolves.members ▸ member)
    exact ⟨Nat.dvd_add (Nat.dvd_mul_left_of_dvd divides k) placed, range_subset resolves member k⟩
  · intro k l i j m n first second different
    exact range_disjoint resolves first second different
  · intro k m member values
    simp only [Write.aim, resolves.named?_name member, Option.map_some]
  · intro k name values label size p accepted
    exact range_of_patch (r := ⟨k, name, values⟩) accepted

/-- A vector of three, a matrix with padded columns and a scalar in the padding's place: the scalar of
one struct and the vector of the next. -/
theorem instances_stay_aligned_of_padded_struct :
    let axis : PlacedMember := ⟨⟨"axis", .vec3f⟩, 0⟩
    let basis : PlacedMember := ⟨⟨"basis", .mat3x3f⟩, 16⟩
    let scale : PlacedMember := ⟨⟨"scale", .u32⟩, 64⟩
    let schema : StructSchema :=
      { label := "s", members := [axis.toMember, basis.toMember, scale.toMember] }
    let layout : StructLayout := ⟨"s", .uniform, [axis, basis, scale], 80, 16⟩
    let w : Write := .member layout (5 * layout.size) "axis" (.signed [1, 2, 3])
    let p : Patch := ⟨400, [0, 0, 128, 63, 0, 0, 0, 64, 0, 0, 64, 64]⟩
    schema.layout = .ok layout ∧ 16 ∣ layout.size ∧ axis.type.alignment ∣ 5 * layout.size + axis.offset ∧
      layout.range 5 axis ⊆ Set.Ico 400 480 ∧ Disjoint (layout.range 4 scale) (layout.range 5 axis) ∧
      w.patch "many" 640 = .ok p ∧ ∃ m ∈ layout.members, m.name = "axis" ∧
        Set.Ico 400 412 = layout.range 5 m := by
  intro axis basis scale schema layout w p
  have resolved : schema.layout = .ok layout := by decide
  have accepted : w.patch "many" 640 = .ok p := by decide
  obtain ⟨_, padded, inside, apart, _, reached⟩ := instances_stay_aligned resolved
  obtain ⟨aligned, within⟩ := inside 5 axis (by decide)
  obtain ⟨m, member, name, _, range⟩ := reached 5 "axis" _ _ _ _ accepted
  exact ⟨resolved, padded, aligned, within, apart 4 5 2 0 scale axis rfl rfl (by decide), accepted,
    m, member, name, range⟩

end StructLayout

end GpuBuffer
