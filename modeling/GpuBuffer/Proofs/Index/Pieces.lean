import GpuBuffer.Proofs.Image.Answer
import GpuBuffer.Proofs.Index.Image

namespace GpuBuffer

namespace Write

/-- The writes share no byte. -/
def Apart (w v : Write) : Prop :=
  ∀ offset payload other content, w.aim = some (offset, payload) → v.aim = some (other, content) →
    offset + payload.size ≤ other ∨ other + content.size ≤ offset

instance : Std.Symm Apart :=
  ⟨fun _ _ apart offset payload other content aim otherAim =>
    (apart other content offset payload otherAim aim).symm⟩

end Write

namespace Image

theorem write_of_refused {image : Image} {w : Write} {e : BufferError}
    (refused : w.patch image.label image.size = .error e) : image.write w = (.error e, image) := by
  simp only [write, refused]

/-- Writes apart from each other can change places, also where one of them is refused. -/
theorem write_comm_of_apart (image : Image) {w v : Write} (apart : w.Apart v) :
    ((image.write w).2.write v).2 = ((image.write v).2.write w).2 := by
  -- Whether a write is refused does not change with the bytes, so a refused one does nothing in both places.
  rcases image.write_cases w with ⟨e, patched, result⟩ | ⟨p, patched, result⟩
  · have again : w.patch (image.write v).2.label (image.write v).2.size = .error e := by simpa using patched
    rw [result, write_of_refused again]
  · rcases image.write_cases v with ⟨e, otherPatched, otherResult⟩ | ⟨q, otherPatched, otherResult⟩
    · have again : v.patch (image.write w).2.label (image.write w).2.size = .error e := by simpa using otherPatched
      rw [otherResult, write_of_refused again]
    · obtain ⟨payload, aim, _⟩ := Write.patch_aim patched
      obtain ⟨content, otherAim, _⟩ := Write.patch_aim otherPatched
      exact write_comm (congrArg Prod.fst result) (congrArg Prod.fst otherResult) aim otherAim
        (apart _ _ _ _ aim otherAim)

@[simp] theorem label_writeAll (image : Image) (writes : List Write) :
    (image.writeAll writes).label = image.label := by
  induction writes generalizing image with
  | nil => rfl
  | cons w rest ih => exact (ih _).trans (image.label_write w)

theorem writeAll_perm (image : Image) {order writes : List Write} (same : order.Perm writes)
    (apart : writes.Pairwise Write.Apart) : image.writeAll order = image.writeAll writes := by
  refine same.foldl_eq' ?_ image
  intro w first v second image
  by_cases equal : w = v
  · rw [equal]
  · exact image.write_comm_of_apart (apart.forall (same.mem_iff.mp first) (same.mem_iff.mp second) equal)

theorem writeEach_eq_ok {image : Image} {writes : List Write}
    (accepted : ∀ w ∈ writes, (image.write w).1 = .ok ()) : image.writeEach writes = .ok (image.writeAll writes) := by
  induction writes generalizing image with
  | nil => rfl
  | cons w rest ih =>
    obtain ⟨p, patched⟩ := write_eq_ok_iff.mp (accepted w (List.mem_cons_self ..))
    have result := write_of_patch patched
    simp only [writeEach, writeAll_cons, result]
    refine ih fun v member => ?_
    have unchanged := write_result_congr (image.label_patch p) (image.size_patch p) v
    exact unchanged.trans (accepted v (List.mem_cons_of_mem _ member))

end Image

namespace IndexRun

/-- Runs that hold the parts one behind the other, from position `first` on. -/
def pieces (first : Nat) : List (List UInt32) → List IndexRun
  | [] => []
  | part :: rest => ⟨first, part⟩ :: pieces (first + part.length) rest

theorem first_le_of_mem_pieces {first : Nat} {parts : List (List UInt32)} {run : IndexRun}
    (member : run ∈ pieces first parts) : first ≤ run.first := by
  induction parts generalizing first with
  | nil => cases member
  | cons part rest ih =>
    rcases List.mem_cons.mp member with rfl | later
    · exact Nat.le_refl _
    · exact (Nat.le_add_right _ _).trans (ih later)

theorem pieces_ordered (first : Nat) (parts : List (List UInt32)) :
    (pieces first parts).Pairwise fun a b => a.stop ≤ b.first := by
  induction parts generalizing first with
  | nil => exact .nil
  | cons part rest ih => exact .cons (fun _ later => first_le_of_mem_pieces later) (ih _)

end IndexRun

namespace IndexLayout
variable {layout : IndexLayout} {image : Image}

theorem writeOf_apart {a b : IndexRun} (before : a.stop ≤ b.first) :
    (layout.writeOf a).Apart (layout.writeOf b) := by
  intro offset payload other content aim otherAim
  cases aim
  cases otherAim
  left
  rw [Payload.size, ← Nat.add_mul]
  exact Nat.mul_le_mul_right _ before

theorem Accepts.front {first : Nat} {front back : List UInt32} (accepted : layout.Accepts ⟨first, front ++ back⟩) :
    layout.Accepts ⟨first, front⟩ := by
  obtain ⟨within, held⟩ := accepted
  simp only [IndexRun.stop, List.length_append] at within
  exact ⟨by simp only [IndexRun.stop]; omega, fun index member => held index (List.mem_append_left _ member)⟩

theorem Accepts.back {first : Nat} {front back : List UInt32} (accepted : layout.Accepts ⟨first, front ++ back⟩) :
    layout.Accepts ⟨first + front.length, back⟩ := by
  obtain ⟨within, held⟩ := accepted
  simp only [IndexRun.stop, List.length_append] at within
  exact ⟨by simp only [IndexRun.stop]; omega, fun index member => held index (List.mem_append_right _ member)⟩

theorem Accepts.of_mem_pieces {first : Nat} {parts : List (List UInt32)}
    (accepted : layout.Accepts ⟨first, parts.flatten⟩) {run : IndexRun}
    (member : run ∈ IndexRun.pieces first parts) : layout.Accepts run := by
  induction parts generalizing first with
  | nil => cases member
  | cons part rest ih =>
    rcases List.mem_cons.mp member with rfl | later
    · exact accepted.front
    · exact ih accepted.back later

/-- A run in two halves stores the bytes of the whole. -/
theorem patch_patchOf_append (image : Image) (first : Nat) (front back : List UInt32) :
    image.patch (layout.patchOf ⟨first, front ++ back⟩) =
      (image.patch (layout.patchOf ⟨first, front⟩)).patch (layout.patchOf ⟨first + front.length, back⟩) := by
  have length : _ = front.length * layout.format.size := layout.length_patchOf ⟨first, front⟩
  have split := image.patch_append (first * layout.format.size) (layout.patchOf ⟨first, front⟩).bytes
    (layout.patchOf ⟨first + front.length, back⟩).bytes
  rw [length, ← Nat.add_mul] at split
  simp only [patchOf, Values.numbers, List.map_append, List.flatMap_append] at split ⊢
  exact split

theorem writeAll_pieces (size : image.size = layout.size) {first : Nat} {parts : List (List UInt32)}
    (accepted : layout.Accepts ⟨first, parts.flatten⟩) :
    image.writeAll ((IndexRun.pieces first parts).map layout.writeOf) =
      (image.write (layout.writeOf ⟨first, parts.flatten⟩)).2 := by
  rw [write_of_accepts size accepted]
  induction parts generalizing image first with
  | nil => rfl
  | cons part rest ih =>
    have sized : (image.patch (layout.patchOf ⟨first, part⟩)).size = layout.size := by rw [Image.size_patch, size]
    simp only [IndexRun.pieces, List.map_cons, Image.writeAll_cons, write_of_accepts size accepted.front,
      List.flatten_cons]
    rw [ih sized accepted.back, patch_patchOf_append]

/-- An accepted run can be cut in any way and its pieces written in any order. -/
theorem writeEach_pieces (size : image.size = layout.size) {first : Nat} {parts : List (List UInt32)}
    (accepted : layout.Accepts ⟨first, parts.flatten⟩) {order : List IndexRun}
    (same : order.Perm (IndexRun.pieces first parts)) :
    image.writeEach (order.map layout.writeOf) = .ok (image.write (layout.writeOf ⟨first, parts.flatten⟩)).2 := by
  have apart : ((IndexRun.pieces first parts).map layout.writeOf).Pairwise Write.Apart :=
    List.pairwise_map.mpr ((IndexRun.pieces_ordered first parts).imp writeOf_apart)
  have all : ∀ w ∈ order.map layout.writeOf, (image.write w).1 = .ok () := by
    intro w member
    obtain ⟨run, chosen, rfl⟩ := List.mem_map.mp member
    exact (writeOf_eq_ok_iff size).mpr (accepted.of_mem_pieces (same.mem_iff.mp chosen))
  rw [Image.writeEach_eq_ok all, image.writeAll_perm (same.map _) apart, writeAll_pieces size accepted]

theorem write_beyond (label : image.label = layout.label) (size : image.size = layout.size) {run : IndexRun}
    (beyond : layout.count < run.stop) :
    (image.write (layout.writeOf run)).1 =
      .error (.outOfBounds layout.label (run.stop * layout.format.size) layout.size) := by
  have past : layout.size < (run.first + run.list.length) * layout.format.size := by
    rw [IndexLayout.size, Nat.mul_comm]
    exact Nat.mul_lt_mul_of_pos_right beyond layout.format.size_pos
  rw [Image.result_write, label, size]
  exact (Answers.eq (.beyond past)).symm

theorem write_misfit (size : image.size = layout.size) {run : IndexRun} (within : run.stop ≤ layout.count)
    {index : UInt32} (misfit : run.list.find? (¬ layout.format.Holds ·) = some index) :
    (image.write (layout.writeOf run)).1 = .error (.valueRange "index" (.ofInt index.toNat)) := by
  have inside : (run.first + run.list.length) * layout.format.size ≤ layout.size := by
    rw [IndexLayout.size, Nat.mul_comm]
    exact Nat.mul_le_mul_left _ within
  have first : layout.format.scalar.FirstMisfit (Values.unsigned run.list).numbers (.ofInt index.toNat) := by
    rw [← Scalar.find?_misfit_eq_some_iff, Values.numbers, List.find?_map]
    have same : (fun x => (layout.format.scalar.bits? x).isNone) ∘ (fun i : UInt32 => Number.ofInt i.toNat) =
        (fun i => decide ¬ layout.format.Holds i) := by
      funext i
      rw [Bool.eq_iff_iff, Function.comp, Scalar.isNone_bits?_iff, IndexFormat.fits_index_iff, decide_eq_true_iff]
    rw [same, misfit]
    rfl
  rw [Image.result_write, size]
  exact (Answers.eq (.misfit inside first)).symm

/-- The image of an index list holds, at each position, the index that was last written there, or zero.
Whatever was written before, a run is accepted exactly if it ends within the list and its indices fit;
one that does not end within is refused for that, and else for its first index that does not fit. To
write an accepted run at once is to write it cut into pieces, in any order. -/
theorem index_image_holds_last_indices {schema : IndexSchema} {layout : IndexLayout}
    (resolved : schema.layout = .ok layout) (earlier : List IndexRun) :
    let width := layout.format.size
    let image := (Image.zeroed layout.request).writeAll (earlier.map layout.writeOf)
    layout.size = width * schema.count ∧ image.size = layout.size ∧
      (∀ position < layout.count,
        fromLittleEndian (image.read (position * width) width) =
          ((IndexRun.lastIndex? (earlier.filter layout.Accepts) position).map UInt32.toNat).getD 0) ∧
      ∀ run : IndexRun,
        let outcome := image.write (layout.writeOf run)
        (outcome.1 = .ok () ↔ run.stop ≤ schema.count ∧ ∀ index ∈ run.list, schema.format.Holds index) ∧
          (schema.count < run.stop →
            outcome.1 = .error (.outOfBounds schema.label (run.stop * width) layout.size)) ∧
          (run.stop ≤ schema.count → ∀ index, run.list.find? (¬ schema.format.Holds ·) = some index →
            outcome.1 = .error (.valueRange "index" (.ofInt index.toNat))) ∧
          (outcome.1 = .ok () → ∀ parts : List (List UInt32), parts.flatten = run.list →
            ∀ order : List IndexRun, order.Perm (IndexRun.pieces run.first parts) →
              image.writeEach (order.map layout.writeOf) = .ok outcome.2) := by
  intro width image
  have resolves := IndexSchema.layout_eq_ok_iff.mp resolved
  have shown := (Shows.zeroed layout).writeAll earlier
  have label : image.label = layout.label := by
    rw [Image.label_writeAll]
    rfl
  rw [← resolves.count, ← resolves.format, ← resolves.label]
  refine ⟨rfl, shown.size, shown.word, ?_⟩
  intro run outcome
  refine ⟨writeOf_eq_ok_iff shown.size, write_beyond label shown.size,
    fun within index misfit => write_misfit shown.size within misfit, ?_⟩
  intro accepted parts whole order same
  have accepts := (writeOf_eq_ok_iff shown.size).mp accepted
  obtain ⟨first, list⟩ := run
  cases whole
  exact writeEach_pieces shown.size accepts same

/-- Runs that overlap, one of them with an index too large, one that ends too far and an empty one at the end. -/
theorem index_image_holds_last_indices_of_overlapping_runs :
    let schema : IndexSchema := ⟨"i", 5, .uint16⟩
    let layout : IndexLayout := ⟨"i", 5, .uint16⟩
    let earlier : List IndexRun := [⟨0, [1, 2, 3]⟩, ⟨1, [9, 65536]⟩, ⟨2, [65535, 4]⟩, ⟨4, [7, 8]⟩, ⟨5, []⟩]
    let image := (Image.zeroed layout.request).writeAll (earlier.map layout.writeOf)
    schema.layout = .ok layout ∧ fromLittleEndian (image.read 2 2) = 2 ∧ fromLittleEndian (image.read 4 2) = 65535 ∧
      fromLittleEndian (image.read 8 2) = 0 ∧
      (image.write (layout.writeOf ⟨5, [65536]⟩)).1 = .error (.outOfBounds "i" 12 10) ∧
      (image.write (layout.writeOf ⟨1, [7, 65536, 65537]⟩)).1 = .error (.valueRange "index" (.ofInt 65536)) ∧
      image.writeEach ([⟨3, [8]⟩, ⟨1, []⟩, ⟨1, [6, 7]⟩].map layout.writeOf) =
        .ok (image.write (layout.writeOf ⟨1, [6, 7, 8]⟩)).2 := by
  intro schema layout earlier image
  have resolved : schema.layout = .ok layout := by decide
  have accepts : layout.Accepts ⟨1, [6, 7, 8]⟩ := by decide
  obtain ⟨_, _, words, answers⟩ := index_image_holds_last_indices resolved earlier
  obtain ⟨_, beyond, _, _⟩ := answers ⟨5, [65536]⟩
  obtain ⟨_, _, misfit, _⟩ := answers ⟨1, [7, 65536, 65537]⟩
  obtain ⟨accepted, _, _, pieces⟩ := answers ⟨1, [6, 7, 8]⟩
  refine ⟨resolved, (words 1 (by decide)).trans (by decide), (words 2 (by decide)).trans (by decide),
    (words 4 (by decide)).trans (by decide), beyond (by decide), misfit (by decide) 65536 (by decide), ?_⟩
  exact pieces (accepted.mpr accepts) [[], [6, 7], [8]] rfl _ (by decide)

end IndexLayout

end GpuBuffer
