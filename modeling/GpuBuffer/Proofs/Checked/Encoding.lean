import GpuBuffer.Proofs.Image.Write
import Mathlib.Algebra.GroupWithZero.Nat

namespace GpuBuffer

/-- A number where a machine word of so many bits has to hold it. -/
def inWord? (bits n : Nat) : Option Nat :=
  if n < 2 ^ bits then some n else none

theorem inWord?_of_lt {bits n : Nat} (held : n < 2 ^ bits) : inWord? bits n = some n := if_pos held

/-- The length of the slice between two positions of a run of bytes, where there is such a slice. -/
def sliceLength? (size start stop : Nat) : Option Nat :=
  if start ≤ stop ∧ stop ≤ size then some (stop - start) else none

theorem sliceLength?_of_le {size start length : Nat} (inside : start + length ≤ size) :
    sliceLength? size start (start + length) = some length := by
  rw [sliceLength?, if_pos ⟨Nat.le_add_right _ _, inside⟩, Nat.add_sub_cancel_left]

/-- The start of a component, computed in 32-bit words. -/
def Shape.componentStart? (shape : Shape) (i : Nat) : Option Nat :=
  match shape.arrangement with
  | .single | .vector _ => inWord? 32 (i * shape.scalar.width)
  | .matrix _ rows =>
    if rows = 0 then none
    else do
      let column ← inWord? 32 (i / rows * columnSpan shape.scalar rows)
      let row ← inWord? 32 (i % rows * shape.scalar.width)
      inWord? 32 (column + row)

theorem Shape.componentStart?_eq {shape : Shape} (small : shape.size < 2 ^ 32) {i : Nat} (within : i < shape.arity) :
    shape.componentStart? i = some (shape.componentStart i) := by
  have inside := shape.component_within within
  have held : shape.componentStart i < 2 ^ 32 := by omega
  obtain ⟨scalar, arrangement⟩ := shape
  cases arrangement with
  | single => exact inWord?_of_lt held
  | vector length => exact inWord?_of_lt held
  | matrix columns rows =>
    have positive := rows_pos within
    simp only [componentStart] at held
    simp only [componentStart?, componentStart, if_neg (Nat.ne_of_gt positive)]
    rw [inWord?_of_lt (by omega), inWord?_of_lt (by omega)]
    exact inWord?_of_lt (by omega)

/-- Encodes `remaining` numbers from the `i`th on. Each of them has to be there, and so does the slice for
it, which must be as long as its bytes. -/
def Scalar.encodeInto? (scalar : Scalar) (field : String) (place? : Nat → Option Nat) (xs : List Number) :
    Nat → Nat → Array UInt8 → Option (Except BufferError (Array UInt8))
  | 0, _, bytes => some (.ok bytes)
  | remaining + 1, i, bytes => do
    let start ← place? i
    let x ← xs[i]?
    let stop ← inWord? 64 (start + scalar.width)
    let length ← sliceLength? bytes.size start stop
    match scalar.encode field x with
    | .error e => some (.error e)
    | .ok word =>
      if word.length = length then
        scalar.encodeInto? field place? xs remaining (i + 1) (overlay bytes start word)
      else none

/-- Encoded words, each laid at the place of its index. -/
def layWords (place : Nat → Nat) (bytes : Array UInt8) (i : Nat) (words : List (List UInt8)) : Array UInt8 :=
  (words.zipIdx i).foldl (fun bytes (word, k) => overlay bytes (place k) word) bytes

theorem Scalar.encodeInto?_eq {scalar : Scalar} {field : String} {place? : Nat → Option Nat} {place : Nat → Nat}
    {xs : List Number} {size : Nat} (placed : ∀ i < xs.length, place? i = some (place i))
    (inside : ∀ i < xs.length, place i + scalar.width ≤ size) (small : size < 2 ^ 64) (remaining i : Nat)
    (bytes : Array UInt8) (count : i + remaining = xs.length) (sized : bytes.size = size) :
    scalar.encodeInto? field place? xs remaining i bytes =
      some ((scalar.encodeAll field (xs.drop i)).map (layWords place bytes i)) := by
  -- By induction on what remains: the words before the `i`th are in `bytes` already.
  induction remaining generalizing i bytes with
  | zero =>
    rw [List.drop_eq_nil_of_le (by omega)]
    rfl
  | succ remaining ih =>
    have bound : i < xs.length := by omega
    have within := inside i bound
    rw [List.drop_eq_getElem_cons bound]
    simp only [encodeInto?, encodeAll, placed i bound, List.getElem?_eq_getElem bound, Option.bind_eq_bind,
      Option.bind_some, inWord?_of_lt (Nat.lt_of_le_of_lt within small), sized, sliceLength?_of_le within]
    cases encoded : scalar.encode field xs[i] with
    | error e => rfl
    | ok word =>
      have length : word.length = scalar.width := by
        rw [(encode_eq_ok_iff.mp encoded).2, length_stored]
      simp only [if_pos length]
      rw [ih (i + 1) (overlay bytes (place i) word) (by omega) (by rw [size_overlay, sized])]
      cases scalar.encodeAll field (xs.drop (i + 1)) <;> rfl

theorem Shape.encodeInto?_eq {shape : Shape} (small : shape.size < 2 ^ 32) {field : String} {xs : List Number}
    (count : xs.length = shape.arity) :
    shape.scalar.encodeInto? field shape.componentStart? xs shape.arity 0 (zeros shape.size) =
      some ((shape.scalar.encodeAll field xs).map shape.assemble) := by
  have placed : ∀ i < xs.length, shape.componentStart? i = some (shape.componentStart i) :=
    fun i within => componentStart?_eq small (count ▸ within)
  have inside : ∀ i < xs.length, shape.componentStart i + shape.scalar.width ≤ shape.size :=
    fun i within => shape.component_within (count ▸ within)
  exact Scalar.encodeInto?_eq placed inside (by omega) shape.arity 0 (zeros shape.size) (by omega) (by simp [zeros])

/-- Words of one width that are laid back to back are their concatenation. -/
theorem layWords_contiguous {width : Nat} {words : List (List UInt8)} (uniform : ∀ word ∈ words, word.length = width)
    (bytes : Array UInt8) (i : Nat) :
    layWords (· * width) bytes i words = overlay bytes (i * width) words.flatten := by
  induction words generalizing bytes i with
  | nil => rfl
  | cons word rest ih =>
    have length := uniform word (List.mem_cons_self ..)
    have later := ih (fun word member => uniform word (List.mem_cons_of_mem _ member)) (overlay bytes (i * width) word)
      (i + 1)
    rw [List.flatten_cons, overlay_append, length, ← Nat.add_one_mul]
    exact later

theorem overlay_zeros (run : List UInt8) : overlay (zeros run.length) 0 run = run.toArray := by
  apply Array.ext_getElem?
  intro i
  have lane : run.toArray[i]? = run[i]? := List.getElem?_toArray
  rw [getElem?_overlay, lane]
  by_cases inside : i < run.length
  · rw [if_pos (by simp [zeros, inside]), Nat.sub_zero]
  · rw [if_neg (by omega), List.getElem?_eq_none (Nat.not_lt.mp inside)]
    simp [zeros, inside]

theorem IndexFormat.length_flatten {format : IndexFormat} {list : List UInt32} {words : List (List UInt8)}
    (encoded : format.scalar.encodeAll "index" (Values.unsigned list).numbers = .ok words) :
    words.flatten.length = list.length * format.size := by
  obtain ⟨_, rfl⟩ := Scalar.encodeAll_eq_ok_iff.mp encoded
  rw [← List.flatMap_def]
  exact (Payload.words format list).length_bytes

theorem IndexFormat.encodeInto?_eq {format : IndexFormat} {list : List UInt32}
    (held : list.length * format.size < 2 ^ 64) :
    format.scalar.encodeInto? "index" (fun i => inWord? 64 (i * format.size)) (Values.unsigned list).numbers
        list.length 0 (zeros (list.length * format.size)) =
      some ((format.scalar.encodeAll "index" (Values.unsigned list).numbers).map fun words => words.flatten.toArray) := by
  have count : (Values.unsigned list).numbers.length = list.length := Values.length_numbers _
  have inside : ∀ i < (Values.unsigned list).numbers.length,
      i * format.size + format.size ≤ list.length * format.size := by
    intro i bound
    rw [← Nat.add_one_mul]
    exact Nat.mul_le_mul_right _ (by omega)
  have placed : ∀ i < (Values.unsigned list).numbers.length,
      inWord? 64 (i * format.size) = some (i * format.size) := by
    intro i bound
    have within := inside i bound
    exact inWord?_of_lt (by omega)
  rw [Scalar.encodeInto?_eq placed inside held list.length 0 _ (by omega) (by simp [zeros]), List.drop_zero]
  cases encoded : format.scalar.encodeAll "index" (Values.unsigned list).numbers with
  | error e => rfl
  | ok words =>
    have uniform : ∀ word ∈ words, word.length = format.size := by
      intro word member
      obtain ⟨_, rfl⟩ := Scalar.encodeAll_eq_ok_iff.mp encoded
      obtain ⟨x, _, rfl⟩ := List.mem_map.mp member
      exact format.scalar.length_stored x
    simp only [Except.map]
    rw [layWords_contiguous uniform, Nat.zero_mul, ← length_flatten encoded, overlay_zeros]

end GpuBuffer
