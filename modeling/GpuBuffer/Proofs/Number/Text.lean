import GpuBuffer.Proofs.Number.Shortest
import Mathlib.Data.List.TakeWhile

namespace GpuBuffer

/-- The number that positional notation stands for: its digits, over a power of ten for those after the point. -/
def readPositional (text : List Char) : ℚ :=
  let whole := text.takeWhile (· != '.')
  let fraction := (text.dropWhile (· != '.')).tail
  Nat.ofDigitChars 10 (whole ++ fraction) 0 / 10 ^ fraction.length

/-- The same with a sign before it. -/
def readSigned (text : String) : ℚ :=
  match text.toList with
  | '-' :: magnitude => -readPositional magnitude
  | magnitude => readPositional magnitude

theorem ne_point_of_isDigit {text : List Char} (digits : ∀ c ∈ text, c.isDigit) : ∀ c ∈ text, (c != '.') = true := by
  intro c member
  rw [bne_iff_ne]
  rintro rfl
  exact absurd (digits '.' member) (by decide)

section
variable {whole fraction : List Char} (digits : ∀ c ∈ whole, c.isDigit)
include digits

theorem readPositional_whole : readPositional whole = Nat.ofDigitChars 10 whole 0 := by
  have noPoint := ne_point_of_isDigit digits
  rw [readPositional, List.takeWhile_eq_self_iff.mpr noPoint, List.dropWhile_eq_nil_iff.mpr noPoint]
  simp

theorem readPositional_point :
    readPositional (whole ++ '.' :: fraction) = Nat.ofDigitChars 10 (whole ++ fraction) 0 / 10 ^ fraction.length := by
  have noPoint := ne_point_of_isDigit digits
  rw [readPositional, List.takeWhile_append_of_pos noPoint, List.dropWhile_append_of_pos noPoint]
  simp

end

namespace Decimal

theorem isDigit_of_mem {d : Decimal} {c : Char} (member : c ∈ (toString d.digits).toList) : c.isDigit := by
  rw [Nat.toString_eq_ofList_toDigits, String.toList_ofList] at member
  exact Nat.isDigit_of_mem_toDigits (by decide) (by decide) member

theorem isDigit_of_mem_zeros {n : Nat} {c : Char} (member : c ∈ List.replicate n '0') : c.isDigit := by
  rw [List.eq_of_mem_replicate member]
  decide

theorem ofDigitChars_toString (n : Nat) : Nat.ofDigitChars 10 (toString n).toList 0 = n := by
  rw [Nat.toString_eq_ofList_toDigits, String.toList_ofList, Nat.ofDigitChars_toDigits (by decide) (by decide)]

/-- The digits of positional notation, with those after the point, if there are any, split off. -/
inductive Written (d : Decimal) : List Char → Prop
  | whole {text : List Char} (digits : ∀ c ∈ text, c.isDigit)
      (read : (Nat.ofDigitChars 10 text 0 : ℚ) = d.value) : Written d text
  | split {whole fraction : List Char} (digits : ∀ c ∈ whole ++ fraction, c.isDigit)
      (read : (Nat.ofDigitChars 10 (whole ++ fraction) 0 / 10 ^ fraction.length : ℚ) = d.value) :
      Written d (whole ++ '.' :: fraction)

theorem written_positional (d : Decimal) : Written d d.positional.toList := by
  unfold positional
  dsimp only
  rw [String.toList_ofList]
  set digits := (toString d.digits).toList
  set places := (-d.exponent).toNat
  set padded := List.replicate (places + 1 - digits.length) '0' ++ digits with padding
  split_ifs with none
  · refine .whole (fun c member => ?_) ?_
    · rcases List.mem_append.mp member with digit | zero
      · exact isDigit_of_mem digit
      · exact isDigit_of_mem_zeros zero
    · have exponent : (10 : ℚ) ^ d.exponent = 10 ^ d.exponent.toNat := by
        rw [← zpow_natCast, Int.toNat_of_nonneg (by omega)]
      rw [Nat.ofDigitChars_append, Nat.ofDigitChars_replicate_zero, ofDigitChars_toString, value, exponent]
      push_cast
      ring
  · refine .split (fun c member => ?_) ?_
    · rw [List.take_append_drop] at member
      rcases List.mem_append.mp member with zero | digit
      · exact isDigit_of_mem_zeros zero
      · exact isDigit_of_mem digit
    · have long : places < padded.length := by
        rw [padding, List.length_append, List.length_replicate]
        omega
      have exponent : d.exponent = -(places : ℤ) := by omega
      rw [List.take_append_drop, List.length_drop, Nat.sub_sub_self long.le, padding, Nat.ofDigitChars_append,
        Nat.ofDigitChars_replicate_zero, Nat.mul_zero, ofDigitChars_toString, value, exponent, zpow_neg, zpow_natCast]
      rfl

/-- Positional notation loses nothing. -/
theorem readPositional_positional (d : Decimal) : readPositional d.positional.toList = d.value := by
  have written := d.written_positional
  generalize d.positional.toList = text at written ⊢
  cases written with
  | whole digits read => rw [readPositional_whole digits, read]
  | split digits read => rw [readPositional_point fun c member => digits c (List.mem_append_left _ member), read]

theorem minus_not_mem_positional (d : Decimal) : '-' ∉ d.positional.toList := by
  have written := d.written_positional
  have other : '-'.isDigit ≠ true := by decide
  generalize d.positional.toList = text at written ⊢
  intro member
  cases written with
  | whole digits read => exact other (digits '-' member)
  | split digits read =>
    have digit := digits '-'
    simp only [List.mem_append, List.mem_cons, Char.reduceEq, false_or] at digit member
    exact other (digit member)

end Decimal

namespace Number
variable {negative : Bool} {mantissa : Nat} {exponent : ℤ}

theorem readSigned_text : readSigned (finite negative mantissa exponent).text =
    (if negative then -1 else 1) * (decimal mantissa exponent).value := by
  have read := (decimal mantissa exponent).readPositional_positional
  cases negative with
  | true =>
    have signed : (finite true mantissa exponent).text.toList =
        '-' :: (decimal mantissa exponent).positional.toList := by
      rw [text, if_pos rfl, String.toList_append]
      rfl
    rw [readSigned, signed]
    exact (congrArg Neg.neg read).trans (neg_one_mul _).symm
  | false =>
    have unsigned : (finite false mantissa exponent).text = (decimal mantissa exponent).positional := rfl
    rw [readSigned, unsigned]
    split
    · rename_i magnitude signed
      exact absurd (signed ▸ List.mem_cons_self) (decimal mantissa exponent).minus_not_mem_positional
    · rw [read, if_neg Bool.false_ne_true, one_mul]

/-- The decimal of a size rounds to it, and none that does has fewer digits. -/
theorem decimal_shortest (positive : 0 < mantissa) (short : mantissa < 2 ^ 53) (least : -1074 ≤ exponent)
    (most : exponent ≤ 970) : ∃ significand unit, FullSignificand significand unit ∧
      (significand * 2 ^ unit : ℚ) = mantissa * 2 ^ exponent ∧
      NearestEven64 (decimal mantissa exponent).value significand unit ∧
      ∀ d : Decimal, NearestEven64 d.value significand unit → (decimal mantissa exponent).length ≤ d.length := by
  obtain ⟨significand, unit, form, bits, below, same, interval⟩ :=
    RoundingInterval.exists_fullSignificand positive short least
  have rounds {q : ℚ} := RoundingInterval.contains_iff_nearestEven64 (q := q) form bits (below.trans most)
  have shortest := RoundingInterval.shortest_spec (RoundingInterval.sound_ofSignificand unit bits)
  rw [decimal, if_neg positive.ne', interval]
  exact ⟨significand, unit, form, same, rounds.mp shortest.inside,
    fun d other => shortest.length_le (rounds.mpr other)⟩

end Number

theorem IsBinary64.signed {y : ℚ} (number : IsBinary64 y) (negative : Bool) :
    IsBinary64 ((if negative then -1 else 1) * y) := by
  obtain ⟨significand, exponent, short, low, high, rfl⟩ := number
  refine ⟨(if negative then -1 else 1) * significand, exponent, ?_, low, high, ?_⟩
  · rw [abs_mul]
    split <;> simpa using short
  · push_cast
    ring

/-- The text of a number that the host supplies is read back as a decimal that no other number is nearer to. -/
theorem HostNumber.text_nearest {host : HostNumber} {v y : ℚ} (value : host.value? = some v) (number : IsBinary64 y) :
    |readSigned host.number.text - v| ≤ |readSigned host.number.text - y| := by
  rw [← value?_number] at value
  obtain ⟨negative, mantissa, exponent, finite, rfl⟩ := Number.exists_finite value
  obtain ⟨short, low, high⟩ := mantissa_lt finite
  rw [finite, Number.readSigned_text]
  set sign : ℚ := if negative then -1 else 1 with signed
  have square : sign * sign = 1 := by
    rw [signed]
    split <;> norm_num
  have size : |sign| = 1 := by
    rw [signed]
    split <;> norm_num
  rcases Nat.eq_zero_or_pos mantissa with rfl | positive
  · have zero : (Number.decimal 0 exponent).value = 0 := by simp [Number.decimal, Decimal.value]
    rw [zero, Nat.cast_zero, zero_mul, sub_self, abs_zero]
    exact abs_nonneg _
  · obtain ⟨significand, unit, _, same, rounds, _⟩ :=
      Number.decimal_shortest positive (by omega) (by omega) (by omega : exponent ≤ 970)
    have mirrored : sign * (sign * y) = y := by rw [← mul_assoc, square, one_mul]
    rw [← mirrored, ← mul_sub, ← mul_sub, abs_mul, abs_mul, size, one_mul, one_mul, ← same]
    exact rounds.nearest _ (number.signed negative)

example : (Number.ofInt 300).text = "300" := by decide +kernel
example : (Number.finite true 1 (-1)).text = "-0.5" := by decide +kernel

end GpuBuffer
