namespace GpuBuffer

/-- The low `width` bytes of a natural number, least significant first. -/
def littleEndian : Nat → Nat → List UInt8
  | 0, _ => []
  | width + 1, n => UInt8.ofNat n :: littleEndian width (n / 256)

@[simp] theorem length_littleEndian (width n : Nat) : (littleEndian width n).length = width := by
  induction width generalizing n with
  | zero => rfl
  | succ width ih => simp [littleEndian, ih]

/-- Replaces the bytes from `start` on. What would fall outside is dropped. -/
def overlay (bytes : Array UInt8) (start : Nat) : List UInt8 → Array UInt8
  | [] => bytes
  | b :: rest => overlay (bytes.setIfInBounds start b) (start + 1) rest

@[simp] theorem size_overlay (bytes : Array UInt8) (start : Nat) (run : List UInt8) :
    (overlay bytes start run).size = bytes.size := by
  induction run generalizing bytes start with
  | nil => rfl
  | cons b rest ih => simp [overlay, ih]

/-- An overlaid byte is the run's where the run lies, and the old one elsewhere. -/
theorem getElem?_overlay (bytes : Array UInt8) (start : Nat) (run : List UInt8) (i : Nat) :
    (overlay bytes start run)[i]? =
      if start ≤ i ∧ i < start + run.length ∧ i < bytes.size then run[i - start]? else bytes[i]? := by
  induction run generalizing bytes start with
  | nil =>
    rw [if_neg (by simp only [List.length_nil]; omega)]
    rfl
  | cons b rest ih =>
    simp only [overlay, ih, Array.size_setIfInBounds, List.length_cons]
    by_cases here : i = start
    · subst here
      rw [if_neg (by omega)]
      by_cases inside : i < bytes.size
      · rw [if_pos (by omega)]
        simp [inside]
      · rw [if_neg (by omega)]
        simp [inside]
    · rw [Array.getElem?_setIfInBounds_ne (Ne.symm here)]
      by_cases covered : start ≤ i ∧ i < start + (rest.length + 1) ∧ i < bytes.size
      · rw [if_pos covered, if_pos (by omega)]
        obtain ⟨k, rfl⟩ : ∃ k, i = start + 1 + k := ⟨i - (start + 1), by omega⟩
        rw [Nat.add_sub_cancel_left, show start + 1 + k - start = k + 1 by omega, List.getElem?_cons_succ]
      · rw [if_neg covered, if_neg (by omega)]

def zeros (size : Nat) : Array UInt8 :=
  Array.replicate size 0

end GpuBuffer
