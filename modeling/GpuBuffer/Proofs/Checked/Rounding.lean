import GpuBuffer.Proofs.Checked.Reckoning
import Mathlib.Order.Closure

namespace GpuBuffer

/-- Rounding up is the closure whose closed numbers are the multiples of the unit. -/
def roundUpClosure {align : Nat} (positive : 0 < align) : ClosureOperator Nat :=
  .ofPred (roundUp · align) (align ∣ ·) (le_roundUp · positive) (dvd_roundUp · align)
    fun _ _ above divides => roundUp_le positive divides above

/-- Rounding in words comes to this word, and no step on the way overflows. -/
structure RoundsTo (value align word : UInt32) : Prop where
  computed : roundUpWord? value align = some word
  held : (Reckoning.roundUp value align).Held

theorem toNat_pos_of_nonzero {align : UInt32} (nonzero : align ≠ 0) : 0 < align.toNat :=
  UInt32.lt_iff_toNat_lt.mp (UInt32.pos_iff_ne_zero.mpr nonzero)

section
variable {value align word : UInt32} (nonzero : align ≠ 0)
include nonzero

/-- It is the word that holds the exact result. -/
theorem roundsTo_iff : RoundsTo value align word ↔ word.toNat = roundUp value.toNat align.toNat := by
  have needs := Reckoning.needs_roundUp value (toNat_pos_of_nonzero nonzero)
  have computed := Reckoning.roundUpWord?_eq value nonzero
  constructor
  · intro rounds
    have exact := needs.value (needs.held_iff.mp rounds.held)
    rw [rounds.computed, Option.some.injEq] at computed
    rw [computed, exact]
  · intro exact
    have fits : roundUp value.toNat align.toNat < 2 ^ 32 := exact ▸ word.toNat_lt
    have same : word = (Reckoning.roundUp value align).value :=
      UInt32.toNat_inj.mp (exact.trans (needs.value fits).symm)
    exact ⟨computed.trans (congrArg some same.symm), needs.held_iff.mpr fits⟩

/-- There is such a word wherever some multiple from the value on is one. -/
theorem exists_roundsTo {multiple : Nat} (divides : align.toNat ∣ multiple) (above : value.toNat ≤ multiple)
    (fits : multiple < 2 ^ 32) : ∃ word, RoundsTo value align word := by
  have small : roundUp value.toNat align.toNat < 2 ^ 32 :=
    (roundUp_le (toNat_pos_of_nonzero nonzero) divides above).trans_lt fits
  exact ⟨UInt32.ofNat _, (roundsTo_iff nonzero).mpr (UInt32.toNat_ofNat_of_lt' small)⟩

namespace RoundsTo

theorem divides (rounds : RoundsTo value align word) : align.toNat ∣ word.toNat :=
  (roundsTo_iff nonzero).mp rounds ▸ dvd_roundUp value.toNat align.toNat

theorem le_iff (rounds : RoundsTo value align word) {multiple : Nat} (divides : align.toNat ∣ multiple) :
    word.toNat ≤ multiple ↔ value.toNat ≤ multiple := by
  rw [(roundsTo_iff nonzero).mp rounds]
  exact ClosureOperator.IsClosed.closure_le_iff (c := roundUpClosure (toNat_pos_of_nonzero nonzero)) divides

theorem value_le (rounds : RoundsTo value align word) : value.toNat ≤ word.toNat :=
  (rounds.le_iff nonzero (rounds.divides nonzero)).mp le_rfl

theorem again (rounds : RoundsTo value align word) : RoundsTo word align word :=
  (roundsTo_iff nonzero).mpr (roundUp_of_dvd (toNat_pos_of_nonzero nonzero) (rounds.divides nonzero)).symm

/-- Values below have a rounded value where this one has. -/
theorem exists_le (rounds : RoundsTo value align word) {lower : UInt32} (le : lower ≤ value) :
    ∃ below ≤ word, RoundsTo lower align below := by
  have divides := rounds.divides nonzero
  have above : lower.toNat ≤ word.toNat := (UInt32.le_iff_toNat_le.mp le).trans (rounds.value_le nonzero)
  obtain ⟨below, roundsLower⟩ := exists_roundsTo nonzero divides above word.toNat_lt
  refine ⟨below, ?_, roundsLower⟩
  rw [UInt32.le_iff_toNat_le]
  exact (roundsLower.le_iff nonzero divides).mpr above

theorem exists_finer (rounds : RoundsTo value align word) {fine : UInt32} (finer : fine.toNat ∣ align.toNat) :
    ∃ inner, RoundsTo value fine inner ∧ RoundsTo inner align word := by
  have positive := toNat_pos_of_nonzero nonzero
  have finePositive : 0 < fine.toNat := Nat.pos_of_dvd_of_pos finer positive
  have fineNonzero : fine ≠ 0 := by
    rintro rfl
    exact absurd finePositive (Nat.lt_irrefl 0)
  obtain ⟨inner, roundsInner⟩ := exists_roundsTo fineNonzero (Nat.dvd_trans finer (rounds.divides nonzero))
    (rounds.value_le nonzero) word.toNat_lt
  refine ⟨inner, roundsInner, (roundsTo_iff nonzero).mpr ?_⟩
  rw [(roundsTo_iff nonzero).mp rounds, (roundsTo_iff fineNonzero).mp roundsInner,
    roundUp_roundUp value.toNat finePositive positive finer]

end RoundsTo

end

/-- In words, too, rounding is a closure wherever the least multiple from the value on fits a word, and no
step overflows then. It is that multiple. Smaller values round to no more, a rounded value to itself, and
a multiple bounds the rounded value exactly if it bounds the value. Rounding to a finer unit first
changes nothing. The unit need not be a power of two. -/
theorem roundUpWord?_closes {align : UInt32} (nonzero : align ≠ 0) {value : UInt32} {least : Nat}
    (smallest : IsLeast {n | align.toNat ∣ n ∧ value.toNat ≤ n} least) :
    roundUp value.toNat align.toNat = least ∧
      ((Reckoning.roundUp value align).Held ↔ least < 2 ^ 32) ∧
      (least < 2 ^ 32 →
        ∃ word, RoundsTo value align word ∧ word.toNat = least ∧
          (∀ lower ≤ value, ∃ below ≤ word, RoundsTo lower align below) ∧
          RoundsTo word align word ∧
          (∀ multiple, align.toNat ∣ multiple → (word.toNat ≤ multiple ↔ value.toNat ≤ multiple)) ∧
          ∀ fine : UInt32, fine.toNat ∣ align.toNat →
            ∃ inner, RoundsTo value fine inner ∧ RoundsTo inner align word) := by
  have positive := toNat_pos_of_nonzero nonzero
  have exact : roundUp value.toNat align.toNat = least := (isLeast_roundUp value.toNat positive).unique smallest
  refine ⟨exact, exact ▸ (Reckoning.needs_roundUp value positive).held_iff, fun fits => ?_⟩
  obtain ⟨word, rounds⟩ := exists_roundsTo nonzero smallest.1.1 smallest.1.2 fits
  refine ⟨word, rounds, ((roundsTo_iff nonzero).mp rounds).trans exact, ?_, rounds.again nonzero, ?_, ?_⟩
  · intro lower le
    exact rounds.exists_le nonzero le
  · intro multiple divides
    exact rounds.le_iff nonzero divides
  · intro fine finer
    exact rounds.exists_finer nonzero finer

/-- The last multiple of twelve that is a word, from a value so near to it that the sum of the value and the
unit would overflow, and by way of a multiple of six. -/
theorem roundUpWord?_closes_at_last_multiple :
    let value : UInt32 := 4294967285
    let last : UInt32 := 4294967292
    (12 : UInt32) ≠ 0 ∧ IsLeast {n | (12 : UInt32).toNat ∣ n ∧ value.toNat ≤ n} 4294967292 ∧
      roundUpWord? value 12 = some last ∧ (Reckoning.roundUp value 12).Held ∧
      2 ^ 32 ≤ value.toNat + (12 - 1) ∧ RoundsTo last 12 last ∧
      ∃ inner, RoundsTo value 6 inner ∧ RoundsTo inner 12 last := by
  intro value last
  have nonzero : (12 : UInt32) ≠ 0 := by decide
  have smallest : IsLeast {n | (12 : UInt32).toNat ∣ n ∧ value.toNat ≤ n} 4294967292 := by
    refine ⟨⟨by decide, by decide⟩, ?_⟩
    rintro n ⟨divides, above⟩
    change 12 ∣ n at divides
    change 4294967285 ≤ n at above
    omega
  obtain ⟨_, _, closes⟩ := roundUpWord?_closes nonzero smallest
  obtain ⟨word, rounds, exact, _, again, _, composed⟩ := closes (by decide)
  obtain rfl : word = last := UInt32.toNat_inj.mp exact
  exact ⟨nonzero, smallest, rounds.computed, rounds.held, by decide, again, composed 6 (by decide)⟩

end GpuBuffer
