import GpuBuffer.Proofs.Encoding
import GpuBuffer.Proofs.Image.Bytes
import GpuBuffer.Proofs.Number.Value

namespace GpuBuffer

/-- How integers are stored. -/
inductive Signedness
  | unsigned
  | twosComplement

namespace Signedness

/-- The integers that `width` bytes can hold. -/
def Holds (signedness : Signedness) (width : Nat) (n : Int) : Prop :=
  match signedness with
  | .unsigned => 0 ≤ n ∧ n < 2 ^ (8 * width)
  | .twosComplement => -2 ^ (8 * width - 1) ≤ n ∧ n < 2 ^ (8 * width - 1)

/-- The integer that bytes hold. In two's complement the upper half of the patterns is negative. -/
def read (signedness : Signedness) (bytes : List UInt8) : Int :=
  let n := fromLittleEndian bytes
  match signedness with
  | .unsigned => n
  | .twosComplement => if n < 2 ^ (8 * bytes.length - 1) then n else n - 2 ^ (8 * bytes.length)

theorem fromLittleEndian_emod (width : Nat) (n : Int) :
    (fromLittleEndian (littleEndian width (n % 2 ^ (8 * width)).toNat) : Int) = n % 2 ^ (8 * width) := by
  have modulus : (0 : Int) < 2 ^ (8 * width) := Int.pow_pos (by decide)
  have nonnegative := Int.toNat_of_nonneg (Int.emod_nonneg n modulus.ne')
  have width_pow : 256 ^ width = 2 ^ (8 * width) := (pow_mul 2 8 width).symm
  rw [fromLittleEndian_littleEndian, width_pow]
  push_cast
  rw [nonnegative, Int.emod_emod]

/-- An integer is read back from its remainder, as long as the bytes can hold it. -/
theorem read_littleEndian {signedness : Signedness} {width : Nat} (positive : 0 < width) {n : Int}
    (held : signedness.Holds width n) :
    signedness.read (littleEndian width (n % 2 ^ (8 * width)).toNat) = n := by
  have stored := fromLittleEndian_emod width n
  have halves : (2 : Int) ^ (8 * width) = 2 * 2 ^ (8 * width - 1) := by
    rw [← pow_succ', show 8 * width - 1 + 1 = 8 * width by omega]
  cases signedness with
  | unsigned => exact stored.trans (Int.emod_eq_of_lt held.1 held.2)
  | twosComplement =>
    obtain ⟨above, below⟩ := held
    simp only [read, length_littleEndian]
    rcases lt_or_ge n 0 with negative | nonnegative
    · have wrapped : n % 2 ^ (8 * width) = n + 2 ^ (8 * width) := by
        rw [← Int.add_emod_right]
        exact Int.emod_eq_of_lt (by omega) (by omega)
      have shown := stored.trans wrapped
      rw [if_neg (by zify; omega), shown, Int.add_sub_cancel]
    · have shown := stored.trans (Int.emod_eq_of_lt nonnegative (by omega))
      rw [if_pos (by zify; omega), shown]

end Signedness

theorem integerIn?_eq_some_iff {low high : Int} {x : Number} {n : Int} :
    integerIn? low high x = some n ↔ x.value? = some (n : ℚ) ∧ low ≤ n ∧ n ≤ high := by
  rw [← Number.toInt?_eq_some_iff, integerIn?]
  cases x.toInt? with
  | none => simp
  | some i =>
    simp only [Option.ite_none_right_eq_some, Option.some.injEq]
    constructor
    · rintro ⟨range, rfl⟩
      exact ⟨rfl, range⟩
    · rintro ⟨rfl, range⟩
      exact ⟨range, rfl⟩

theorem map_toNat_eq_some_iff (width : Nat) {x : Number} {bits : Nat} :
    (integerIn? 0 (2 ^ (8 * width) - 1) x).map Int.toNat = some bits ↔
      ∃ n : Int, x.value? = some (n : ℚ) ∧ Signedness.unsigned.Holds width n ∧ (n % 2 ^ (8 * width)).toNat = bits := by
  simp only [Option.map_eq_some_iff, integerIn?_eq_some_iff, and_assoc, Signedness.Holds, Int.le_sub_one_iff]
  refine exists_congr fun n => and_congr_right fun _ => and_congr_right fun nonnegative => ?_
  refine and_congr_right fun below => ?_
  rw [Int.emod_eq_of_lt nonnegative below]

namespace Scalar

/-- How a scalar stores integers, if that is what it stores. -/
def signedness? : Scalar → Option Signedness
  | .sint32 => some .twosComplement
  | .uint32 | .uint16 | .uint8 => some .unsigned
  | .float32 | .unorm8 => none

variable {scalar : Scalar} {signedness : Signedness}

/-- What is stored of a number is the remainder of the integer that is its value. -/
theorem bits?_eq_some_iff (stores : scalar.signedness? = some signedness) {x : Number} {bits : Nat} :
    scalar.bits? x = some bits ↔ ∃ n : Int, x.value? = some (n : ℚ) ∧ signedness.Holds scalar.width n ∧
      (n % 2 ^ (8 * scalar.width)).toNat = bits := by
  cases scalar with
  | float32 => cases stores
  | unorm8 => cases stores
  | sint32 =>
    cases stores
    simp only [bits?, Option.map_eq_some_iff, integerIn?_eq_some_iff, and_assoc, Signedness.Holds, width,
      Int.le_sub_one_iff]
  | uint32 =>
    cases stores
    exact map_toNat_eq_some_iff 4
  | uint16 =>
    cases stores
    exact map_toNat_eq_some_iff 2
  | uint8 =>
    cases stores
    exact map_toNat_eq_some_iff 1

theorem encode_eq_ok_iff_value (stores : scalar.signedness? = some signedness) {field : String} {x : Number}
    {bytes : List UInt8} :
    scalar.encode field x = .ok bytes ↔ ∃ n : Int, x.value? = some (n : ℚ) ∧ signedness.Holds scalar.width n ∧
      littleEndian scalar.width (n % 2 ^ (8 * scalar.width)).toNat = bytes := by
  have found (bits : Nat) : scalar.bits? x = some bits ↔ ∃ n : Int, x.value? = some (n : ℚ) ∧
      signedness.Holds scalar.width n ∧ (n % 2 ^ (8 * scalar.width)).toNat = bits := bits?_eq_some_iff stores
  unfold encode
  cases stored : scalar.bits? x with
  | none =>
    simp only [stored, reduceCtorEq, false_iff] at found ⊢
    rintro ⟨n, value, held, _⟩
    exact found _ ⟨n, value, held, rfl⟩
  | some bits =>
    obtain ⟨n, value, held, rfl⟩ := (found bits).mp stored
    simp only [Except.ok.injEq]
    constructor
    · rintro rfl
      exact ⟨n, value, held, rfl⟩
    · rintro ⟨m, other, _, rfl⟩
      have same : (n : ℚ) = m := Option.some.inj (value.symm.trans other)
      rw [Int.cast_inj.mp same]

/-- An integer scalar stores a number exactly if its value is an integer that the scalar has bytes
for, and its bytes are then read back as that integer. Every other number is refused, and
reported as it is. Zeros of both signs have the value zero; what is not finite has no value. No
value is changed where a 64-bit float carries it. -/
theorem encode_integer (stores : scalar.signedness? = some signedness) (field : String) (host : HostNumber) :
    (∀ (values : Values) (i : Nat), values.hosts[i]? = some host → values.numbers[i]? = some host.number) ∧
      host.number.value? = host.value? ∧ (∀ v, host.value? = some v → IsBinary64 v) ∧
      ((∃ bytes, scalar.encode field host.number = .ok bytes) ↔
        ∃ n : Int, host.value? = some (n : ℚ) ∧ signedness.Holds scalar.width n) ∧
      (∀ bytes, scalar.encode field host.number = .ok bytes →
        bytes.length = scalar.width ∧ host.value? = some (signedness.read bytes : ℚ)) ∧
      ((¬ ∃ n : Int, host.value? = some (n : ℚ) ∧ signedness.Holds scalar.width n) →
        scalar.encode field host.number = .error (.valueRange field host.number)) := by
  have same := host.value?_number
  have accepted_iff : (∃ bytes, scalar.encode field host.number = .ok bytes) ↔
      ∃ n : Int, host.value? = some (n : ℚ) ∧ signedness.Holds scalar.width n := by
    simp only [encode_eq_ok_iff_value stores, same]
    constructor
    · rintro ⟨_, n, value, held, _⟩
      exact ⟨n, value, held⟩
    · rintro ⟨n, value, held⟩
      exact ⟨_, n, value, held, rfl⟩
  refine ⟨fun _ _ => Values.getElem?_numbers, same, fun _ => host.isBinary64, accepted_iff, ?_, ?_⟩
  · intro bytes accepted
    obtain ⟨n, value, held, rfl⟩ := (encode_eq_ok_iff_value stores).mp accepted
    rw [Signedness.read_littleEndian scalar.width_pos held]
    exact ⟨length_littleEndian _ _, same ▸ value⟩
  · intro misfit
    rw [← accepted_iff] at misfit
    unfold encode at misfit ⊢
    cases stored : scalar.bits? host.number with
    | none => rfl
    | some bits => exact absurd ⟨_, by rw [stored]⟩ misfit

/-- The least signed integer, the largest float below `2 ^ 32`, the negative zero, and a half. -/
theorem encode_integer_at_limits :
    let least : HostNumber := .signed (-2147483648)
    let large : HostNumber := .float ⟨0x4F7FFFFF⟩
    let zero : HostNumber := .float ⟨0x80000000⟩
    let half : HostNumber := .float ⟨0x3F000000⟩
    Scalar.sint32.encode "f" least.number = .ok [0, 0, 0, 128] ∧ least.value? = some ((-2147483648 : Int) : ℚ) ∧
      Scalar.uint32.encode "f" large.number = .ok [0, 255, 255, 255] ∧
      large.value? = some ((4294967040 : Int) : ℚ) ∧
      Scalar.uint8.encode "f" zero.number = .ok [0] ∧ zero.value? = some ((0 : Int) : ℚ) ∧
      Scalar.uint16.encode "f" half.number = .error (.valueRange "f" (.finite false 8388608 (-24))) ∧
      ¬ ∃ n : Int, half.value? = some (n : ℚ) ∧ Signedness.unsigned.Holds 2 n := by
  intro least large zero half
  have leastStored : Scalar.sint32.encode "f" least.number = .ok [0, 0, 0, 128] := by decide +kernel
  have largeStored : Scalar.uint32.encode "f" large.number = .ok [0, 255, 255, 255] := by decide +kernel
  have zeroStored : Scalar.uint8.encode "f" zero.number = .ok [0] := by decide +kernel
  have halfRefused : Scalar.uint16.encode "f" half.number =
      .error (.valueRange "f" (.finite false 8388608 (-24))) := by decide +kernel
  have signed : Scalar.sint32.signedness? = some .twosComplement := rfl
  have wide : Scalar.uint32.signedness? = some .unsigned := rfl
  have short : Scalar.uint16.signedness? = some .unsigned := rfl
  have narrow : Scalar.uint8.signedness? = some .unsigned := rfl
  obtain ⟨_, _, _, _, leastRead, _⟩ := encode_integer signed "f" least
  obtain ⟨_, _, _, _, largeRead, _⟩ := encode_integer wide "f" large
  obtain ⟨_, _, _, _, zeroRead, _⟩ := encode_integer narrow "f" zero
  obtain ⟨_, _, _, halfAccepted, _, _⟩ := encode_integer short "f" half
  refine ⟨leastStored, (leastRead _ leastStored).2, largeStored, (largeRead _ largeStored).2, zeroStored,
    (zeroRead _ zeroStored).2, halfRefused, ?_⟩
  intro integer
  obtain ⟨_, accepted⟩ := halfAccepted.mpr integer
  cases halfRefused.symm.trans accepted

end Scalar

end GpuBuffer
