import GpuBuffer.Proofs.Capacity
import GpuBuffer.Proofs.Image.Bytes

namespace GpuBuffer

/-- In a run of words of one width, each is found at its multiple of the width. -/
theorem take_drop_flatMap {α β : Type} {f : α → List β} {width : Nat} (uniform : ∀ x, (f x).length = width)
    {xs : List α} {i : Nat} {x : α} (chosen : xs[i]? = some x) :
    ((xs.flatMap f).drop (i * width)).take width = f x := by
  induction xs generalizing i with
  | nil => cases chosen
  | cons first rest ih =>
    rw [List.flatMap_cons]
    cases i with
    | zero =>
      cases chosen
      rw [Nat.zero_mul, List.drop_zero, List.take_append_of_le_length (uniform x).ge,
        List.take_of_length_le (uniform x).le]
    | succ i =>
      rw [Nat.add_one_mul, Nat.add_comm, ← uniform first, List.drop_length_add_append, uniform first]
      exact ih chosen

namespace IndexFormat

/-- The indices that a format has bytes for. -/
def Holds (format : IndexFormat) (index : UInt32) : Prop :=
  format = .uint16 → index.toNat ≤ 65535

instance (format : IndexFormat) : DecidablePred format.Holds :=
  fun _ => inferInstanceAs (Decidable (_ → _))

theorem bits?_index (format : IndexFormat) (index : UInt32) :
    format.scalar.bits? (.ofInt index.toNat) = if format.Holds index then some index.toNat else none := by
  have below := index.toNat_lt
  by_cases held : format.Holds index
  · rw [if_pos held]
    cases format with
    | uint16 =>
      have small : index.toNat ≤ 65535 := held rfl
      simp only [scalar, Scalar.bits?, integerIn?, Number.toInt?_ofInt]
      rw [if_pos (by omega)]
      rfl
    | uint32 =>
      simp only [scalar, Scalar.bits?, integerIn?, Number.toInt?_ofInt]
      rw [if_pos (by omega)]
      rfl
  · rw [if_neg held]
    obtain ⟨rfl, large⟩ := Classical.not_imp.mp held
    simp only [scalar, Scalar.bits?, integerIn?, Number.toInt?_ofInt]
    rw [if_neg (by omega)]
    rfl

theorem fits_index_iff {format : IndexFormat} {index : UInt32} :
    format.scalar.Fits (.ofInt index.toNat) ↔ format.Holds index := by
  rw [Scalar.Fits, bits?_index]
  split <;> simp_all

theorem fromLittleEndian_stored {format : IndexFormat} {index : UInt32} (held : format.Holds index) :
    fromLittleEndian (format.scalar.stored (.ofInt index.toNat)) = index.toNat := by
  have small : index.toNat < 256 ^ format.scalar.width := by
    cases format with
    | uint16 => exact Nat.lt_succ_of_le (held rfl)
    | uint32 => exact index.toNat_lt
  rw [Scalar.stored, bits?_index, if_pos held, Option.getD_some, fromLittleEndian_littleEndian,
    Nat.mod_eq_of_lt small]

end IndexFormat

/-- Indices in a row, and the position of the first. -/
structure IndexRun where
  first : Nat
  list : List UInt32
  deriving DecidableEq

namespace IndexRun

def stop (run : IndexRun) : Nat :=
  run.first + run.list.length

/-- The index that the run has for a position. -/
def at? (run : IndexRun) (position : Nat) : Option UInt32 :=
  if run.first ≤ position then run.list[position - run.first]? else none

theorem at?_eq_some_iff {run : IndexRun} {position : Nat} {index : UInt32} :
    run.at? position = some index ↔ ∃ i, position = run.first + i ∧ run.list[i]? = some index := by
  rw [at?, Option.ite_none_right_eq_some]
  constructor
  · rintro ⟨reached, chosen⟩
    exact ⟨position - run.first, by omega, chosen⟩
  · rintro ⟨i, rfl, chosen⟩
    exact ⟨Nat.le_add_right _ _, by rwa [Nat.add_sub_cancel_left]⟩

theorem at?_eq_none_iff {run : IndexRun} {position : Nat} :
    run.at? position = none ↔ position < run.first ∨ run.stop ≤ position := by
  unfold at? stop
  split
  · rw [List.getElem?_eq_none_iff]
    omega
  · simp only [true_iff]
    omega

/-- The index that the last of the runs has for a position, of those that have one. -/
def lastIndex? (runs : List IndexRun) (position : Nat) : Option UInt32 :=
  (runs.filterMap (·.at? position)).getLast?

theorem lastIndex?_cons (run : IndexRun) (rest : List IndexRun) (position : Nat) :
    lastIndex? (run :: rest) position = (lastIndex? rest position).or (run.at? position) := by
  unfold lastIndex?
  cases found : run.at? position with
  | none => simp only [List.filterMap_cons, found, Option.or_none]
  | some index =>
    simp only [List.filterMap_cons, found, List.getLast?_cons]
    cases (rest.filterMap (·.at? position)).getLast? <;> rfl

end IndexRun

namespace IndexLayout
variable {layout : IndexLayout} {image : Image} {run : IndexRun}

def writeOf (layout : IndexLayout) (run : IndexRun) : Write :=
  .indices layout run.first run.list

/-- The run ends where the list ends or before, and the format has bytes for all of it. -/
def Accepts (layout : IndexLayout) (run : IndexRun) : Prop :=
  run.stop ≤ layout.count ∧ ∀ index ∈ run.list, layout.format.Holds index

instance (layout : IndexLayout) : DecidablePred layout.Accepts :=
  fun run => @instDecidableAnd _ _ (run.stop.decLe layout.count) (List.decidableBAll layout.format.Holds run.list)

def patchOf (layout : IndexLayout) (run : IndexRun) : Patch :=
  ⟨run.first * layout.format.size, (Values.unsigned run.list).numbers.flatMap layout.format.scalar.stored⟩

theorem length_patchOf (layout : IndexLayout) (run : IndexRun) :
    (layout.patchOf run).bytes.length = run.list.length * layout.format.size :=
  (Payload.words layout.format run.list).length_bytes

theorem reach_patchOf (layout : IndexLayout) (run : IndexRun) :
    (layout.patchOf run).reach = run.stop * layout.format.size := by
  rw [Patch.reach, length_patchOf, IndexRun.stop, Nat.add_mul]
  rfl

theorem Accepts.reach_le (accepted : layout.Accepts run) : (layout.patchOf run).reach ≤ layout.size := by
  rw [reach_patchOf, size, Nat.mul_comm]
  exact Nat.mul_le_mul_left _ accepted.1

theorem suits_writeOf_iff : (layout.writeOf run).Suits ↔ ∀ index ∈ run.list, layout.format.Holds index := by
  simp only [writeOf, Write.Suits, Values.numbers, List.forall_mem_map, IndexFormat.fits_index_iff]

theorem writeOf_eq_ok_iff (size : image.size = layout.size) :
    (image.write (layout.writeOf run)).1 = .ok () ↔ layout.Accepts run := by
  rw [writeOf, write_eq_ok_iff size, ← writeOf, suits_writeOf_iff, Accepts, and_comm]
  exact and_congr_left fun _ => Nat.not_lt

theorem write_of_accepts (size : image.size = layout.size) (accepted : layout.Accepts run) :
    image.write (layout.writeOf run) = (.ok (), image.patch (layout.patchOf run)) := by
  obtain ⟨p, patched⟩ := Image.write_eq_ok_iff.mp ((writeOf_eq_ok_iff size).mpr accepted)
  rw [Image.write_of_patch patched]
  obtain ⟨_, _, rfl⟩ := patch_eq_ok_iff.mp patched
  rfl

theorem write_of_not_accepts (size : image.size = layout.size) (refused : ¬ layout.Accepts run) :
    (image.write (layout.writeOf run)).2 = image := by
  rcases image.write_cases (layout.writeOf run) with ⟨_, _, result⟩ | ⟨_, _, result⟩
  · rw [result]
  · exact absurd ((writeOf_eq_ok_iff size).mp (congrArg Prod.fst result)) refused

/-- An image of the list's size that shows, at each position, a number stored there. -/
structure Shows (layout : IndexLayout) (stored : Nat → Nat) (image : Image) : Prop where
  size : image.size = layout.size
  word : ∀ position < layout.count,
    fromLittleEndian (image.read (position * layout.format.size) layout.format.size) = stored position

theorem Shows.zeroed (layout : IndexLayout) : layout.Shows (fun _ => 0) (Image.zeroed layout.request) where
  size := Image.size_zeroed _
  word := by
    intro position inside
    have room := Nat.mul_le_mul_right layout.format.size (Nat.succ_le_of_lt inside)
    rw [Nat.succ_mul] at room
    rw [Image.read_zeroed (by simpa only [request, IndexLayout.size, Nat.mul_comm] using room)]
    cases layout.format <;> rfl

/-- A run that is accepted shows its indices at its positions and leaves the others. -/
theorem Shows.store {stored : Nat → Nat} (shown : layout.Shows stored image) (accepted : layout.Accepts run) :
    layout.Shows (fun position => ((run.at? position).map UInt32.toNat).getD (stored position))
      (image.patch (layout.patchOf run)) := by
  have fits : (layout.patchOf run).reach ≤ image.size := shown.size ▸ accepted.reach_le
  refine ⟨by rw [Image.size_patch, shown.size], ?_⟩
  intro position inside
  cases found : run.at? position with
  | none =>
    have apart : position * layout.format.size + layout.format.size ≤ (layout.patchOf run).offset ∨
        (layout.patchOf run).reach ≤ position * layout.format.size := by
      rw [← Nat.add_one_mul, reach_patchOf]
      rcases IndexRun.at?_eq_none_iff.mp found with before | after
      · exact Or.inl (Nat.mul_le_mul_right _ before)
      · exact Or.inr (Nat.mul_le_mul_right _ after)
    rw [Image.read_patch_outside _ apart]
    exact shown.word position inside
  | some index =>
    obtain ⟨i, rfl, chosen⟩ := IndexRun.at?_eq_some_iff.mp found
    have held := accepted.2 index (List.mem_of_getElem? chosen)
    have listed : (Values.unsigned run.list).numbers[i]? = some (.ofInt index.toNat) := by
      rw [Values.numbers, List.getElem?_map, chosen]
      rfl
    have within : i * layout.format.size + layout.format.size ≤ (layout.patchOf run).bytes.length := by
      rw [length_patchOf, ← Nat.add_one_mul]
      exact Nat.mul_le_mul_right _ (List.getElem?_eq_some_iff.mp chosen).1
    have word := take_drop_flatMap (fun x => layout.format.scalar.length_stored x) listed
    rw [Nat.add_mul]
    exact (congrArg fromLittleEndian ((Image.read_patch_inside fits within).trans word)).trans
      (IndexFormat.fromLittleEndian_stored held)

/-- After any runs an image shows, at each position, the last index that an accepted run has for it. -/
theorem Shows.writeAll {stored : Nat → Nat} (shown : layout.Shows stored image) (runs : List IndexRun) :
    layout.Shows
      (fun position =>
        ((IndexRun.lastIndex? (runs.filter layout.Accepts) position).map UInt32.toNat).getD (stored position))
      (image.writeAll (runs.map layout.writeOf)) := by
  induction runs generalizing image stored with
  | nil => exact shown
  | cons run rest ih =>
    rw [List.map_cons, Image.writeAll_cons]
    by_cases accepted : layout.Accepts run
    · rw [List.filter_cons_of_pos (by simpa using accepted), write_of_accepts shown.size accepted]
      convert ih (shown.store accepted) using 2 with position
      rw [IndexRun.lastIndex?_cons]
      cases IndexRun.lastIndex? (rest.filter layout.Accepts) position <;> rfl
    · rw [List.filter_cons_of_neg (by simpa using accepted), write_of_not_accepts shown.size accepted]
      exact ih shown

end IndexLayout

end GpuBuffer
