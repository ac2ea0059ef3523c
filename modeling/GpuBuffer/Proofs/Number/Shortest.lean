import GpuBuffer.Proofs.Number.Interval

namespace GpuBuffer

namespace Decimal

def value (d : Decimal) : ℚ :=
  d.digits * 10 ^ d.exponent

/-- How many digits are written. -/
def length (d : Decimal) : Nat :=
  (toString d.digits).length

theorem length_eq (d : Decimal) : d.length = (Nat.toDigits 10 d.digits).length := by
  rw [length, Nat.toString_eq_ofList_toDigits, String.length_ofList]

theorem length_pos (d : Decimal) : 0 < d.length :=
  d.length_eq ▸ Nat.length_toDigits_pos

theorem length_le_iff {d : Decimal} {n : Nat} (positive : 0 < n) : d.length ≤ n ↔ d.digits < 10 ^ n := by
  rw [length_eq, Nat.length_toDigits_le_iff (by decide) positive]

end Decimal

theorem zpow_mul_toNat {base : ℚ} (nonzero : base ≠ 0) (e : ℤ) : base ^ e * base ^ (-e).toNat = base ^ e.toNat := by
  rw [← zpow_natCast, ← zpow_natCast, ← zpow_add₀ nonzero]
  congr 1
  omega

namespace RoundingInterval
variable {interval : RoundingInterval} {power : ℤ} {digits : Nat}

/-- The common denominator that `Holds` compares over. -/
def denominator (interval : RoundingInterval) (power : ℤ) : ℚ :=
  10 ^ (-power).toNat * 2 ^ (-interval.scale).toNat

theorem denominator_pos : 0 < interval.denominator power := by
  unfold denominator
  positivity

theorem quarters_mul_denominator (count : Nat) :
    interval.quarters count * interval.denominator power =
      (count * (10 ^ (-power).toNat * 2 ^ interval.scale.toNat) : ℕ) := by
  push_cast
  rw [← zpow_mul_toNat two_ne_zero, quarters, denominator]
  ring

theorem value_mul_denominator :
    Decimal.value ⟨digits, power⟩ * interval.denominator power =
      (digits * 10 ^ power.toNat * 2 ^ (-interval.scale).toNat : ℕ) := by
  push_cast
  rw [← zpow_mul_toNat (by norm_num), Decimal.value, denominator]
  ring

theorem quarters_le_value_iff {count : Nat} : interval.quarters count ≤ Decimal.value ⟨digits, power⟩ ↔
    count * (10 ^ (-power).toNat * 2 ^ interval.scale.toNat) ≤
      digits * 10 ^ power.toNat * 2 ^ (-interval.scale).toNat := by
  rw [← mul_le_mul_iff_of_pos_right denominator_pos, quarters_mul_denominator, value_mul_denominator, Nat.cast_le]

theorem value_le_quarters_iff {count : Nat} : Decimal.value ⟨digits, power⟩ ≤ interval.quarters count ↔
    digits * 10 ^ power.toNat * 2 ^ (-interval.scale).toNat ≤
      count * (10 ^ (-power).toNat * 2 ^ interval.scale.toNat) := by
  rw [← mul_le_mul_iff_of_pos_right denominator_pos, quarters_mul_denominator, value_mul_denominator, Nat.cast_le]

/-- The comparison over whole numbers is that of the rationals. -/
theorem holds_iff : interval.Holds power digits ↔ interval.Contains (Decimal.value ⟨digits, power⟩) := by
  unfold Holds Contains low high
  cases interval.closed with
  | true => exact and_congr quarters_le_value_iff.symm value_le_quarters_iff.symm
  | false =>
    exact and_congr (lt_iff_lt_of_le_iff_le value_le_quarters_iff).symm
      (lt_iff_lt_of_le_iff_le quarters_le_value_iff).symm

theorem value_lt_value (power : ℤ) {m n : Nat} (lt : m < n) : Decimal.value ⟨m, power⟩ < Decimal.value ⟨n, power⟩ :=
  mul_lt_mul_of_pos_right (Nat.cast_lt.mpr lt) (by positivity)

theorem value_le_value (power : ℤ) {m n : Nat} (le : m ≤ n) : Decimal.value ⟨m, power⟩ ≤ Decimal.value ⟨n, power⟩ :=
  mul_le_mul_of_nonneg_right (Nat.cast_le.mpr le) (by positivity)

theorem centerOn_den_pos (interval : RoundingInterval) (power : ℤ) : 0 < (interval.centerOn power).2 := by
  unfold centerOn
  positivity

theorem value_mul_denominator_eq_den :
    Decimal.value ⟨digits, power⟩ * interval.denominator power = digits * (interval.centerOn power).2 := by
  rw [value_mul_denominator]
  simp only [centerOn]
  push_cast
  ring

theorem middle_mul_denominator_eq_num : interval.middle * interval.denominator power = (interval.centerOn power).1 := by
  rw [middle, quarters_mul_denominator]
  simp only [centerOn]
  push_cast
  ring

/-- The grid has a point on either side of the number. -/
theorem middle_between (interval : RoundingInterval) (power : ℤ) :
    let below := (interval.centerOn power).1 / (interval.centerOn power).2
    Decimal.value ⟨below, power⟩ ≤ interval.middle ∧ interval.middle < Decimal.value ⟨below + 1, power⟩ := by
  intro below
  have positive := interval.centerOn_den_pos power
  rw [← mul_le_mul_iff_of_pos_right denominator_pos, ← mul_lt_mul_iff_of_pos_right denominator_pos,
    value_mul_denominator_eq_den, value_mul_denominator_eq_den, middle_mul_denominator_eq_num]
  constructor
  · exact_mod_cast Nat.div_mul_le_self _ _
  · exact_mod_cast Nat.lt_mul_of_div_lt (Nat.lt_succ_self _) positive

theorem upper_no_farther_iff (interval : RoundingInterval) (power : ℤ) :
    let below := (interval.centerOn power).1 / (interval.centerOn power).2
    (interval.centerOn power).2 ≤ 2 * ((interval.centerOn power).1 % (interval.centerOn power).2) ↔
      Decimal.value ⟨below + 1, power⟩ - interval.middle ≤ interval.middle - Decimal.value ⟨below, power⟩ := by
  intro below
  rw [← mul_le_mul_iff_of_pos_right denominator_pos, sub_mul, sub_mul, value_mul_denominator_eq_den,
    value_mul_denominator_eq_den, middle_mul_denominator_eq_num, ← Nat.cast_le (α := ℚ)]
  subst below
  generalize (interval.centerOn power).1 = num
  generalize (interval.centerOn power).2 = den
  have split : (num : ℚ) = den * (num / den : ℕ) + (num % den : ℕ) := by
    exact_mod_cast (Nat.div_add_mod num den).symm
  push_cast
  constructor <;> intro <;> linarith

/-- A point of a grid in the interval that no other is nearer than, or as near and above. -/
structure NearestPoint (interval : RoundingInterval) (power : ℤ) (digits : Nat) : Prop where
  inside : interval.Contains (Decimal.value ⟨digits, power⟩)
  nearest : ∀ n, interval.Contains (Decimal.value ⟨n, power⟩) →
    |interval.middle - Decimal.value ⟨digits, power⟩| ≤ |interval.middle - Decimal.value ⟨n, power⟩|
  upper : ∀ n, interval.Contains (Decimal.value ⟨n, power⟩) →
    |interval.middle - Decimal.value ⟨n, power⟩| = |interval.middle - Decimal.value ⟨digits, power⟩| → n ≤ digits

section
variable (sound : interval.Sound) (below : Decimal.value ⟨digits, power⟩ ≤ interval.middle)
  (above : interval.middle < Decimal.value ⟨digits + 1, power⟩)
include sound below above

/-- If a point of the grid is in the interval, so is the neighbour of the number on its side, which is no
farther from the number. -/
theorem contains_neighbour {n : Nat} (inside : interval.Contains (Decimal.value ⟨n, power⟩)) :
    (n ≤ digits ∧ interval.Contains (Decimal.value ⟨digits, power⟩) ∧
        |interval.middle - Decimal.value ⟨n, power⟩| = interval.middle - Decimal.value ⟨n, power⟩ ∧
        Decimal.value ⟨n, power⟩ ≤ Decimal.value ⟨digits, power⟩) ∨
      (digits + 1 ≤ n ∧ interval.Contains (Decimal.value ⟨digits + 1, power⟩) ∧
        |interval.middle - Decimal.value ⟨n, power⟩| = Decimal.value ⟨n, power⟩ - interval.middle ∧
        Decimal.value ⟨digits + 1, power⟩ ≤ Decimal.value ⟨n, power⟩) := by
  rcases Nat.lt_or_ge digits n with beyond | within
  · have le := value_le_value power beyond
    refine Or.inr ⟨beyond, sound.contains_middle.between inside above.le le, ?_, le⟩
    rw [abs_of_neg (sub_neg_of_lt (above.trans_le le)), neg_sub]
  · have le := value_le_value power within
    exact Or.inl ⟨within, inside.between sound.contains_middle le below,
      abs_of_nonneg (sub_nonneg.mpr (le.trans below)), le⟩

theorem nearestPoint_lower (inside : interval.Contains (Decimal.value ⟨digits, power⟩))
    (alone : interval.Contains (Decimal.value ⟨digits + 1, power⟩) →
      interval.middle - Decimal.value ⟨digits, power⟩ < Decimal.value ⟨digits + 1, power⟩ - interval.middle) :
    interval.NearestPoint power digits := by
  have distance := abs_of_nonneg (sub_nonneg.mpr below)
  refine ⟨inside, fun n other => ?_, fun n other tied => ?_⟩
  · rcases contains_neighbour sound below above other with ⟨_, _, otherDistance, le⟩ | ⟨_, next, otherDistance, le⟩
    · linarith
    · have strict := alone next
      linarith
  · rcases contains_neighbour sound below above other with ⟨lower, _⟩ | ⟨_, next, otherDistance, le⟩
    · exact lower
    · have strict := alone next
      linarith

theorem nearestPoint_upper (inside : interval.Contains (Decimal.value ⟨digits + 1, power⟩))
    (preferred : interval.Contains (Decimal.value ⟨digits, power⟩) →
      Decimal.value ⟨digits + 1, power⟩ - interval.middle ≤ interval.middle - Decimal.value ⟨digits, power⟩) :
    interval.NearestPoint power (digits + 1) := by
  have distance := abs_of_neg (sub_neg_of_lt above)
  refine ⟨inside, fun n other => ?_, fun n other tied => ?_⟩
  · rcases contains_neighbour sound below above other with ⟨_, previous, otherDistance, le⟩ | ⟨_, _, otherDistance, le⟩
    · have near := preferred previous
      linarith
    · linarith
  · rcases contains_neighbour sound below above other with ⟨lower, _⟩ | ⟨_, _, otherDistance, le⟩
    · exact Nat.le_succ_of_le lower
    · by_contra farther
      have lt := value_lt_value power (Nat.not_le.mp farther)
      linarith

end

/-- A grid is passed over exactly if it has no point in the interval, and else it gives the nearest. -/
theorem gridPoint?_spec (sound : interval.Sound) (power : ℤ) :
    match interval.gridPoint? power with
    | some digits => interval.NearestPoint power digits
    | none => ∀ n : Nat, ¬ interval.Contains (Decimal.value ⟨n, power⟩) := by
  obtain ⟨below, above⟩ := interval.middle_between power
  have half := interval.upper_no_farther_iff power
  unfold gridPoint?
  dsimp only at below above half ⊢
  split_ifs with lower both upper
  · exact nearestPoint_upper sound below above (holds_iff.mp both.1) fun _ => half.mp both.2
  · refine nearestPoint_lower sound below above (holds_iff.mp lower) fun next => ?_
    exact not_le.mp fun near => both ⟨holds_iff.mpr next, half.mpr near⟩
  · exact nearestPoint_upper sound below above (holds_iff.mp upper) fun previous =>
      absurd (holds_iff.mpr previous) lower
  · intro n inside
    rcases contains_neighbour sound below above inside with ⟨_, previous, _⟩ | ⟨_, next, _⟩
    · exact lower (holds_iff.mpr previous)
    · exact upper (holds_iff.mpr next)

/-- The nearest point of the coarsest grid that has one. -/
structure Shortest (interval : RoundingInterval) (d : Decimal) : Prop where
  point : interval.NearestPoint d.exponent d.digits
  coarsest : ∀ power, d.exponent < power → ∀ n : Nat, ¬ interval.Contains (Decimal.value ⟨n, power⟩)

theorem middle_lt_coarse (interval : RoundingInterval) : interval.middle < 10 ^ interval.coarse := by
  have above := (interval.middle_between 0).2
  change interval.middle < 10 ^ (((interval.centerOn 0).1 / (interval.centerOn 0).2).log2 / 3 + 1)
  generalize (interval.centerOn 0).1 / (interval.centerOn 0).2 = whole at above ⊢
  have octal : whole + 1 ≤ 10 ^ (whole.log2 / 3 + 1) := by
    calc whole + 1 ≤ 2 ^ (whole.log2 + 1) := Nat.lt_log2_self
      _ ≤ 2 ^ (3 * (whole.log2 / 3 + 1)) := Nat.pow_le_pow_right (by decide) (by omega)
      _ = 8 ^ (whole.log2 / 3 + 1) := by rw [Nat.pow_mul]
      _ ≤ 10 ^ (whole.log2 / 3 + 1) := Nat.pow_le_pow_left (by decide) _
  rw [Decimal.value, zpow_zero, mul_one] at above
  exact above.trans_le (by exact_mod_cast octal)

theorem not_contains_of_coarse_lt (sound : interval.Sound) (beyond : (interval.coarse : ℤ) < power) (n : Nat) :
    ¬ interval.Contains (Decimal.value ⟨n, power⟩) := by
  intro inside
  have positive : 0 < n := by
    by_contra zero
    obtain rfl : n = 0 := by omega
    have pos := sound.pos inside
    simp [Decimal.value] at pos
  have grid : (10 : ℚ) ^ (interval.coarse + 1) ≤ 10 ^ power := by
    rw [← zpow_natCast]
    exact zpow_le_zpow_right₀ (by norm_num) (by omega)
  have point : (10 : ℚ) ^ power ≤ Decimal.value ⟨n, power⟩ :=
    le_mul_of_one_le_left (by positivity) (by exact_mod_cast positive)
  have bound := inside.le_high.trans sound.high_le
  have below := interval.middle_lt_coarse
  have unit : (0 : ℚ) < 10 ^ interval.coarse := by positivity
  rw [pow_succ] at grid
  linarith

/-- The number itself lies on the last grid that is tried. -/
theorem exists_value_eq_middle (interval : RoundingInterval) :
    ∃ n : Nat, Decimal.value ⟨n, -(interval.places : ℤ)⟩ = interval.middle := by
  refine ⟨interval.center * 2 ^ interval.scale.toNat * 5 ^ interval.places, ?_⟩
  have ten : (10 : ℚ) ^ interval.places = 2 ^ interval.places * 5 ^ interval.places := by
    rw [← mul_pow]
    norm_num
  have shifted : (2 : ℚ) ^ interval.scale * 2 ^ interval.places = 2 ^ interval.scale.toNat :=
    zpow_mul_toNat two_ne_zero _
  rw [Decimal.value, middle, quarters, zpow_neg, zpow_natCast, ten]
  push_cast
  rw [← shifted]
  field_simp

theorem findSome?_descending {f : ℤ → Option Decimal} {top : ℤ} {n : Nat} {d : Decimal}
    (found : ((List.range n).map fun (i : Nat) => top - (i : ℤ)).findSome? f = some d) :
    ∃ power, f power = some d ∧ ∀ q, power < q → q ≤ top → f q = none := by
  rw [List.findSome?_map, List.findSome?_eq_some_iff] at found
  obtain ⟨earlier, i, later, split, here, before⟩ := found
  refine ⟨top - i, here, fun q above inside => ?_⟩
  have ascending := List.pairwise_lt_range (n := n)
  have last : i < n := List.mem_range.mp (by simp [split])
  have member : (top - q).toNat ∈ List.range n := List.mem_range.mpr (by omega)
  rw [split, List.pairwise_append, List.pairwise_cons] at ascending
  rw [split, List.mem_append, List.mem_cons] at member
  have tried : (top - q).toNat ∈ earlier := by
    rcases member with first | same | after
    · exact first
    · omega
    · have order := ascending.2.1.1 _ after
      omega
  have missed := before _ tried
  rwa [Function.comp_apply, Int.toNat_of_nonneg (by omega), sub_sub_cancel] at missed

theorem shortest_spec (sound : interval.Sound) : interval.Shortest interval.shortest := by
  set attempt := fun power => (interval.gridPoint? power).map (Decimal.mk · power)
  have passed {power : ℤ} (none : attempt power = none) (n : Nat) :
      ¬ interval.Contains (Decimal.value ⟨n, power⟩) := by
    have spec := gridPoint?_spec sound power
    rw [Option.map_eq_none_iff.mp none] at spec
    exact spec n
  obtain ⟨n, exact⟩ := interval.exists_value_eq_middle
  have last : -(interval.places : ℤ) ∈ interval.exponents :=
    List.mem_map.mpr ⟨interval.coarse + interval.places, List.mem_range.mpr (Nat.lt_succ_self _), by omega⟩
  obtain ⟨d, found⟩ : ∃ d, interval.exponents.findSome? attempt = some d := by
    rw [← Option.isSome_iff_exists, List.findSome?_isSome_iff]
    refine ⟨_, last, Option.isSome_iff_ne_none.mpr fun none => ?_⟩
    exact passed none n (exact ▸ sound.contains_middle)
  obtain ⟨power, here, before⟩ := findSome?_descending found
  obtain ⟨digits, point, rfl⟩ := Option.map_eq_some_iff.mp here
  have same : interval.shortest = ⟨digits, power⟩ := by
    rw [shortest, found, Option.getD_some]
  have spec := gridPoint?_spec sound power
  rw [point] at spec
  rw [same]
  refine ⟨spec, fun q above => ?_⟩
  rcases le_or_gt q interval.coarse with tried | beyond
  · exact passed (before q above tried)
  · exact not_contains_of_coarse_lt sound beyond

namespace Shortest
variable {d e : Decimal}

theorem inside (shortest : interval.Shortest d) : interval.Contains d.value :=
  shortest.point.inside

/-- No decimal in the interval has fewer digits, for one that had would leave a power of ten between the two,
and so on a coarser grid. -/
theorem length_le (shortest : interval.Shortest d) (other : interval.Contains e.value) :
    d.length ≤ e.length := by
  have finer : e.exponent ≤ d.exponent := by
    by_contra coarser
    exact shortest.coarsest e.exponent (Int.not_le.mp coarser) e.digits other
  by_contra longer
  have small := (Decimal.length_le_iff e.length_pos).mp le_rfl
  have large := Nat.not_lt.mp ((Decimal.length_le_iff e.length_pos).not.mp longer)
  have power (grid : ℤ) : Decimal.value ⟨10 ^ e.length, grid⟩ = 10 ^ (e.length + grid : ℤ) := by
    rw [Decimal.value, zpow_add₀ (by norm_num), zpow_natCast]
    push_cast
    rfl
  have lower : e.value ≤ Decimal.value ⟨1, e.length + d.exponent⟩ := by
    calc e.value ≤ Decimal.value ⟨10 ^ e.length, e.exponent⟩ := value_le_value _ small.le
      _ = 10 ^ (e.length + e.exponent : ℤ) := power _
      _ ≤ 10 ^ (e.length + d.exponent : ℤ) := zpow_le_zpow_right₀ (by norm_num) (by omega)
      _ = Decimal.value ⟨1, e.length + d.exponent⟩ := by rw [Decimal.value, Nat.cast_one, one_mul]
  have upper : Decimal.value ⟨1, e.length + d.exponent⟩ ≤ d.value := by
    calc Decimal.value ⟨1, e.length + d.exponent⟩ = Decimal.value ⟨10 ^ e.length, d.exponent⟩ := by
          rw [power, Decimal.value, Nat.cast_one, one_mul]
      _ ≤ d.value := value_le_value _ large
  have positive := e.length_pos
  exact shortest.coarsest _ (by omega) 1 (other.between shortest.inside lower upper)

end Shortest

/-- The nearest 32-bit number to `1 / 10`, as its 64-bit neighbours see it. -/
example : (ofScaled 13421773 (-27)).shortest = ⟨10000000149011612, -17⟩ := by decide +kernel

/-- Of two equally near decimals, the upper. -/
example : (ofScaled 131073 (-17)).shortest = ⟨10000076293945313, -16⟩ := by decide +kernel

end RoundingInterval

end GpuBuffer
