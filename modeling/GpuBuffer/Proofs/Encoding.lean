import GpuBuffer.Encoding
import GpuBuffer.Proofs.Component
import Mathlib.Data.List.Induction

namespace GpuBuffer

theorem map_eq_ok_iff {ε α β : Type} {f : α → β} {outcome : Except ε α} {result : β} :
    outcome.map f = .ok result ↔ ∃ a, outcome = .ok a ∧ f a = result := by
  cases outcome <;> simp [Except.map]

theorem map_eq_error_iff {ε α β : Type} {f : α → β} {outcome : Except ε α} {e : ε} :
    outcome.map f = .error e ↔ outcome = .error e := by
  cases outcome <;> simp [Except.map]

namespace Scalar

def Fits (scalar : Scalar) (x : Number) : Prop :=
  (scalar.bits? x).isSome

instance (scalar : Scalar) (x : Number) : Decidable (scalar.Fits x) :=
  inferInstanceAs (Decidable ((scalar.bits? x).isSome = true))

/-- The stored bytes of a number, and zeros for one that does not fit. -/
def stored (scalar : Scalar) (x : Number) : List UInt8 :=
  littleEndian scalar.width ((scalar.bits? x).getD 0)

@[simp] theorem length_stored (scalar : Scalar) (x : Number) : (scalar.stored x).length = scalar.width :=
  length_littleEndian _ _

theorem encode_eq_ok_iff {scalar : Scalar} {field : String} {x : Number} {bytes : List UInt8} :
    scalar.encode field x = .ok bytes ↔ scalar.Fits x ∧ bytes = scalar.stored x := by
  unfold Scalar.encode Fits stored
  cases scalar.bits? x with
  | none => simp
  | some bits =>
    simp only [Except.ok.injEq, Option.isSome_some, Option.getD_some, true_and]
    exact eq_comm

/-- A list is encoded exactly when each of its components is, whatever the field is called. -/
theorem encodeAll_eq_ok_iff {scalar : Scalar} {field : String} {xs : List Number}
    {encoded : List (List UInt8)} :
    scalar.encodeAll field xs = .ok encoded ↔
      (∀ x ∈ xs, scalar.Fits x) ∧ encoded = xs.map scalar.stored := by
  induction xs generalizing encoded with
  | nil => simp [encodeAll, eq_comm]
  | cons x rest ih =>
    simp only [encodeAll, List.forall_mem_cons, List.map_cons]
    cases first : scalar.encode field x with
    | error e =>
      have misfit : ¬ scalar.Fits x := fun fits =>
        nomatch first.symm.trans (encode_eq_ok_iff.mpr ⟨fits, rfl⟩)
      simp [misfit]
    | ok bytes =>
      obtain ⟨fits, rfl⟩ := encode_eq_ok_iff.mp first
      simp only [map_eq_ok_iff, ih, fits, true_and]
      constructor
      · intro encoding
        obtain ⟨tail, ⟨all, rfl⟩, rfl⟩ := encoding
        exact ⟨all, rfl⟩
      · intro facts
        obtain ⟨all, rfl⟩ := facts
        exact ⟨_, ⟨all, rfl⟩, rfl⟩

/-- A list that is not encoded is refused for the first of its numbers that does not fit. -/
theorem encodeAll_eq_error_iff {scalar : Scalar} {field : String} {xs : List Number} {e : BufferError} :
    scalar.encodeAll field xs = .error e ↔
      ∃ x, xs.find? (fun x => (scalar.bits? x).isNone) = some x ∧ e = .valueRange field x := by
  induction xs with
  | nil => simp [encodeAll]
  | cons x rest ih =>
    cases bits : scalar.bits? x with
    | none =>
      simp only [encodeAll, encode, bits, List.find?_cons, Option.isNone_none, Except.error.injEq,
        Option.some.injEq, exists_eq_left']
      exact eq_comm
    | some n =>
      simp only [encodeAll, encode, bits, List.find?_cons, Option.isNone_some, map_eq_error_iff, ih]

end Scalar

namespace Shape

theorem assemble_concat (shape : Shape) (front : List (List UInt8)) (last : List UInt8) :
    shape.assemble (front ++ [last]) =
      overlay (shape.assemble front) (shape.componentStart front.length) last := by
  simp [assemble, List.zipIdx_append, List.foldl_append]

@[simp] theorem size_assemble (shape : Shape) (components : List (List UInt8)) :
    (shape.assemble components).size = shape.size := by
  induction components using List.reverseRecOn with
  | nil => simp [assemble, zeros]
  | append_singleton front last ih => rw [assemble_concat, size_overlay, ih]

/-- A component assembled early is still found after the later ones, which lie beyond it. -/
theorem assemble_component (shape : Shape) {components : List (List UInt8)}
    (uniform : ∀ word ∈ components, word.length = shape.scalar.width) (count : components.length ≤ shape.arity)
    {i j : Nat} {word : List UInt8} (chosen : components[i]? = some word) (inside : j < shape.scalar.width) :
    (shape.assemble components)[shape.componentStart i + j]? = word[j]? := by
  -- Components are laid down front to back, so the induction removes the one laid down last.
  induction components using List.reverseRecOn with
  | nil => simp at chosen
  | append_singleton front last ih =>
    have width := uniform last (by simp)
    simp only [List.length_append, List.length_singleton] at count
    rw [assemble_concat, getElem?_overlay, size_assemble]
    rcases Nat.lt_trichotomy i front.length with earlier | rfl | beyond
    · have apart := shape.componentStart_ordered earlier (Nat.lt_of_succ_le count)
      rw [List.getElem?_append_left earlier] at chosen
      rw [if_neg (by omega)]
      exact ih (fun word member => uniform word (List.mem_append_left _ member)) (by omega) chosen
    · have within := shape.component_within (Nat.lt_of_succ_le count)
      have same : last = word := by simpa using chosen
      rw [if_pos (by omega), Nat.add_sub_cancel_left, same]
    · rw [List.getElem?_eq_none (by simp only [List.length_append, List.length_singleton]; omega)] at chosen
      cases chosen

/-- Outside its components a value has zeros. -/
theorem assemble_gap (shape : Shape) {components : List (List UInt8)}
    (uniform : ∀ word ∈ components, word.length = shape.scalar.width) {p : Nat} (inside : p < shape.size)
    (between : ∀ i < components.length,
      p < shape.componentStart i ∨ shape.componentStart i + shape.scalar.width ≤ p) :
    (shape.assemble components)[p]? = some 0 := by
  induction components using List.reverseRecOn with
  | nil => simp [assemble, zeros, inside]
  | append_singleton front last ih =>
    have width := uniform last (by simp)
    have outside := between front.length (by simp)
    rw [assemble_concat, getElem?_overlay, if_neg (by omega)]
    refine ih (fun word member => uniform word (List.mem_append_left _ member)) fun i bound => between i ?_
    simp only [List.length_append]
    omega

/-- The bytes of a value: its components at their places, and zeros between them. -/
def stored (shape : Shape) (xs : List Number) : List UInt8 :=
  (shape.assemble (xs.map shape.scalar.stored)).toList

@[simp] theorem length_stored (shape : Shape) (xs : List Number) : (shape.stored xs).length = shape.size := by
  simp [stored]

theorem encode_eq_ok_iff {shape : Shape} {field : String} {xs : List Number} {bytes : List UInt8} :
    shape.encode field xs = .ok bytes ↔ (∀ x ∈ xs, shape.scalar.Fits x) ∧ bytes = shape.stored xs := by
  simp only [Shape.encode, stored, map_eq_ok_iff, Scalar.encodeAll_eq_ok_iff]
  constructor
  · intro encoding
    obtain ⟨encoded, ⟨fits, rfl⟩, rfl⟩ := encoding
    exact ⟨fits, rfl⟩
  · intro facts
    obtain ⟨fits, rfl⟩ := facts
    exact ⟨_, ⟨fits, rfl⟩, rfl⟩

theorem encode_eq_error_iff {shape : Shape} {field : String} {xs : List Number} {e : BufferError} :
    shape.encode field xs = .error e ↔
      ∃ x, xs.find? (fun x => (shape.scalar.bits? x).isNone) = some x ∧ e = .valueRange field x := by
  rw [Shape.encode, map_eq_error_iff, Scalar.encodeAll_eq_error_iff]

theorem stored_component (shape : Shape) {xs : List Number} (count : xs.length = shape.arity) {i : Nat}
    {x : Number} (chosen : xs[i]? = some x) :
    ((shape.stored xs).drop (shape.componentStart i)).take shape.scalar.width = shape.scalar.stored x := by
  apply List.ext_getElem?
  intro j
  by_cases inside : j < shape.scalar.width
  · rw [List.getElem?_take_of_lt inside, List.getElem?_drop, stored, Array.getElem?_toList]
    exact shape.assemble_component (by simp) (by simp [count]) (by simp [chosen]) inside
  · rw [List.getElem?_eq_none (by simp only [List.length_take]; omega),
      List.getElem?_eq_none (by simp only [Scalar.length_stored]; omega)]

theorem stored_gap (shape : Shape) {xs : List Number} (count : xs.length = shape.arity) {p : Nat}
    (inside : p < shape.size)
    (between : ∀ i < shape.arity,
      p < shape.componentStart i ∨ shape.componentStart i + shape.scalar.width ≤ p) :
    (shape.stored xs)[p]? = some 0 := by
  rw [stored, Array.getElem?_toList]
  exact shape.assemble_gap (by simp) inside (by simpa [count] using between)

end Shape

end GpuBuffer
