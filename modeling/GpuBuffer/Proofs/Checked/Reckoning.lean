import GpuBuffer.Proofs.Alignment
import Mathlib.Algebra.GroupWithZero.Nat

namespace GpuBuffer

/-- A result of arithmetic in 32-bit words, with what each sum and product on the way to it comes to
exactly. -/
structure Reckoning (α : Type) where
  exact : List Nat
  value : α

namespace Reckoning

instance : Monad Reckoning where
  pure value := ⟨[], value⟩
  bind first next := ⟨first.exact ++ (next first.value).exact, (next first.value).value⟩

instance : LawfulMonad Reckoning :=
  LawfulMonad.mk' Reckoning (fun first => congrArg (Reckoning.mk · first.value) (List.append_nil first.exact))
    (fun _ _ => rfl) fun _ _ _ => congrArg (Reckoning.mk · _) (List.append_assoc ..)

def sum (a b : UInt32) : Reckoning UInt32 :=
  ⟨[a.toNat + b.toNat], a + b⟩

def product (a b : UInt32) : Reckoning UInt32 :=
  ⟨[a.toNat * b.toNat], a * b⟩

variable {α β : Type}

/-- No step overflows its word. -/
def Held (reckoning : Reckoning α) : Prop :=
  ∀ n ∈ reckoning.exact, n < 2 ^ 32

instance (reckoning : Reckoning α) : Decidable reckoning.Held :=
  List.decidableBAll _ reckoning.exact

theorem held_bind {first : Reckoning α} {next : α → Reckoning β} :
    (first >>= next).Held ↔ first.Held ∧ (next first.value).Held :=
  List.forall_mem_append

/-- The steps are held exactly if the number `n` is, and then the value is as it should be. -/
structure Needs (reckoning : Reckoning α) (n : Nat) (right : α → Prop) : Prop where
  held_iff : reckoning.Held ↔ n < 2 ^ 32
  value : n < 2 ^ 32 → right reckoning.value

theorem needs_pure {n : Nat} {right : α → Prop} {value : α} (small : n < 2 ^ 32) (holds : right value) :
    (pure value : Reckoning α).Needs n right :=
  ⟨iff_of_true (fun _ member => nomatch member) small, fun _ => holds⟩

theorem needs_sum (a b : UInt32) : (sum a b).Needs (a.toNat + b.toNat) (·.toNat = a.toNat + b.toNat) where
  held_iff := List.forall_mem_singleton
  value small := (UInt32.toNat_add a b).trans (Nat.mod_eq_of_lt small)

theorem needs_product (a b : UInt32) :
    (product a b).Needs (a.toNat * b.toNat) (·.toNat = a.toNat * b.toNat) where
  held_iff := List.forall_mem_singleton
  value small := (UInt32.toNat_mul a b).trans (Nat.mod_eq_of_lt small)

/-- What follows starts from a right value where the steps before it are held, and needs at least what they
do. So it decides for all of them. -/
theorem Needs.bind {first : Reckoning α} {next : α → Reckoning β} {n m : Nat} {right : α → Prop} {last : β → Prop}
    (before : first.Needs n right) (grows : n ≤ m)
    (after : n < 2 ^ 32 → ∀ value, right value → (next value).Needs m last) : (first >>= next).Needs m last := by
  constructor
  · rw [held_bind, before.held_iff]
    constructor
    · rintro ⟨small, held⟩
      exact (after small _ (before.value small)).held_iff.mp held
    · intro small
      have earlier : n < 2 ^ 32 := by omega
      exact ⟨earlier, (after earlier _ (before.value earlier)).held_iff.mpr small⟩
  · intro small
    have earlier : n < 2 ^ 32 := by omega
    exact (after earlier _ (before.value earlier)).value small

/-- The quotient, and one more where it is not exact. -/
def steps (value align : UInt32) : Reckoning UInt32 :=
  if value % align = 0 then pure (value / align) else sum (value / align) 1

def roundUp (value align : UInt32) : Reckoning UInt32 := do
  let count ← steps value align
  product count align

theorem needs_steps (value align : UInt32) :
    (steps value align).Needs (stepsCovering value.toNat align.toNat)
      (·.toNat = stepsCovering value.toNat align.toNat) := by
  have remainder : value % align = 0 ↔ value.toNat % align.toNat = 0 := by
    rw [← UInt32.toNat_inj, UInt32.toNat_mod, UInt32.toNat_zero]
  have quotient : (value / align).toNat = value.toNat / align.toNat := UInt32.toNat_div value align
  unfold steps stepsCovering
  by_cases exact : value.toNat % align.toNat = 0
  · rw [if_pos (remainder.mpr exact), if_pos exact, Nat.add_zero, ← quotient]
    exact needs_pure (value / align).toNat_lt rfl
  · have counted := needs_sum (value / align) 1
    rw [if_neg (mt remainder.mp exact), if_neg exact]
    rwa [quotient] at counted

theorem needs_roundUp (value : UInt32) {align : UInt32} (positive : 0 < align.toNat) :
    (roundUp value align).Needs (GpuBuffer.roundUp value.toNat align.toNat)
      (·.toNat = GpuBuffer.roundUp value.toNat align.toNat) := by
  have grows : stepsCovering value.toNat align.toNat ≤ GpuBuffer.roundUp value.toNat align.toNat :=
    Nat.le_mul_of_pos_right _ positive
  refine (needs_steps value align).bind grows fun _ count counted => ?_
  have multiplied := needs_product count align
  rwa [counted] at multiplied

/-- Held or not, the steps come to the word that `roundUpWord?` gives. -/
theorem roundUpWord?_eq (value : UInt32) {align : UInt32} (nonzero : align ≠ 0) :
    roundUpWord? value align = some (roundUp value align).value := by
  have count : (steps value align).value = value / align + if value % align = 0 then 0 else 1 := by
    unfold steps
    split
    · exact (UInt32.add_zero _).symm
    · rfl
  rw [roundUpWord?, if_neg nonzero, ← count]
  rfl

end Reckoning

end GpuBuffer
