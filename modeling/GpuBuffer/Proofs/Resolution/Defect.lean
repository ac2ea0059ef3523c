import GpuBuffer.Proofs.Vertex.Parity
import Mathlib.Order.Minimal

namespace GpuBuffer

/-- The name at a place stands at an earlier place, too. -/
def RepeatsAt (names : List String) (j : Nat) : Prop :=
  ∃ i < j, ∃ name, names[i]? = some name ∧ names[j]? = some name

/-- The name that is the first to repeat an earlier one. -/
def FirstRepeat (names : List String) (name : String) : Prop :=
  ∃ j, IsLeast {k | RepeatsAt names k} j ∧ names[j]? = some name

theorem repeatsAt_iff_mem_take {names : List String} {j : Nat} {name : String} (chosen : names[j]? = some name) :
    RepeatsAt names j ↔ name ∈ names.take j := by
  constructor
  · rintro ⟨i, before, other, earlier, again⟩
    cases Option.some.inj (chosen.symm.trans again)
    refine List.mem_of_getElem? (i := i) ?_
    rw [List.getElem?_take_of_lt before, earlier]
  · intro member
    obtain ⟨i, found⟩ := List.mem_iff_getElem?.mp member
    have before : i < j := by
      have inside := (List.getElem?_eq_some_iff.mp found).1
      rw [List.length_take] at inside
      omega
    rw [List.getElem?_take_of_lt before] at found
    exact ⟨i, before, name, found, chosen⟩

/-- The search stops at the first place whose name was seen before, at the start or on the way. -/
theorem repeatedName?_eq_some_iff_seen {seen names : List String} {name : String} :
    repeatedName? seen names = some name ↔
      ∃ j : Nat, names[j]? = some name ∧ name ∈ seen ++ names.take j ∧
        ∀ k < j, ∀ other, names[k]? = some other → other ∉ seen ++ names.take k := by
  induction names generalizing seen with
  | nil => simp [repeatedName?]
  | cons first rest ih =>
    -- Counted from the next name on, this one is among those seen before.
    have shift : ∀ (other : String) (k : Nat),
        other ∈ (first :: seen) ++ rest.take k ↔ other ∈ seen ++ (first :: rest).take (k + 1) := by
      intro other k
      simp only [List.take_succ_cons, List.cons_append, List.mem_cons, List.mem_append]
      exact or_left_comm
    by_cases known : first ∈ seen
    · rw [repeatedName?, if_pos known]
      constructor
      · rintro ⟨⟩
        exact ⟨0, rfl, List.mem_append_left _ known, fun k before => absurd before (Nat.not_lt_zero k)⟩
      · rintro ⟨j, chosen, -, fresh⟩
        cases j with
        | zero => exact chosen
        | succ j => exact absurd (List.mem_append_left _ known) (fresh 0 j.succ_pos first rfl)
    · rw [repeatedName?, if_neg known, ih]
      constructor
      · rintro ⟨j, chosen, again, fresh⟩
        refine ⟨j + 1, chosen, (shift name j).mp again, fun k before other earlier => ?_⟩
        cases k with
        | zero =>
          cases earlier
          simpa using known
        | succ k => exact mt (shift other k).mpr (fresh k (Nat.lt_of_succ_lt_succ before) other earlier)
      · rintro ⟨j, chosen, again, fresh⟩
        cases j with
        | zero =>
          cases chosen
          exact absurd (by simpa using again) known
        | succ j =>
          refine ⟨j, chosen, (shift name j).mpr again, fun k before other earlier => ?_⟩
          exact mt (shift other k).mp (fresh (k + 1) (Nat.succ_lt_succ before) other earlier)

theorem repeatedName?_eq_some_iff {names : List String} {name : String} :
    repeatedName? [] names = some name ↔ FirstRepeat names name := by
  rw [repeatedName?_eq_some_iff_seen]
  refine exists_congr fun j => ?_
  constructor
  · rintro ⟨chosen, again, fresh⟩
    refine ⟨⟨(repeatsAt_iff_mem_take chosen).mpr again, fun k repeats => ?_⟩, chosen⟩
    obtain ⟨_, _, other, _, later⟩ := id repeats
    exact Nat.le_of_not_lt fun before => fresh k before other later ((repeatsAt_iff_mem_take later).mp repeats)
  · rintro ⟨⟨again, least⟩, chosen⟩
    refine ⟨chosen, (repeatsAt_iff_mem_take chosen).mp again, fun k before other earlier repeats => ?_⟩
    exact absurd (least ((repeatsAt_iff_mem_take earlier).mpr repeats)) (Nat.not_le_of_lt before)

theorem nodup_of_no_repeat {names : List String} (none : ∀ name, ¬ FirstRepeat names name) : names.Nodup := by
  have unrepeated : repeatedName? [] names = .none :=
    Option.eq_none_iff_forall_ne_some.mpr fun name found => none name (repeatedName?_eq_some_iff.mp found)
  exact (repeatedName?_eq_none_iff.mp unrepeated).1

/-- What can be wrong with a declaration. -/
inductive Defect
  | unlabelled
  | noField
  | uncounted
  | noElement
  | noIndex
  | repeated (name : String)
  | unaligned (extent : Nat)
  deriving DecidableEq

namespace Defect

/-- The order in which defects are looked for, whatever the kind of the declaration. -/
def rank : Defect → Nat
  | .unlabelled => 0
  | .noField => 1
  | .uncounted | .noElement | .noIndex => 2
  | .repeated _ => 3
  | .unaligned _ => 4

/-- What an incomplete declaration is said to lack. -/
def reason? : Defect → Option String
  | .unlabelled => some "label is empty"
  | .noField => some "no fields declared"
  | .uncounted => some "element count not set"
  | .noElement => some "element count is zero"
  | .noIndex => some "index count is zero"
  | .repeated _ | .unaligned _ => none

/-- The error that reports a defect. -/
inductive Reports (label : String) : Defect → BufferError → Prop
  | incomplete {defect : Defect} {missing : Missing} (reason : defect.reason? = some missing.text) :
      Reports label defect (.incomplete label missing)
  | repeated (name : String) : Reports label (.repeated name) (.duplicateField label name)
  | unaligned (extent : Nat) : Reports label (.unaligned extent) (.unalignedStride label extent)

/-- A defect that is looked for before all others there are. -/
def First (has : Defect → Prop) (defect : Defect) : Prop :=
  has defect ∧ ∀ other, has other → defect.rank ≤ other.rank

theorem First.clear {has : Defect → Prop} {defect other : Defect} (first : First has defect)
    (before : other.rank < defect.rank) : ¬ has other :=
  fun present => absurd (first.2 other present) (Nat.not_le_of_lt before)

theorem exists_first {has : Defect → Prop} {defect : Defect} (present : has defect) :
    ∃ first, First has first := by
  obtain ⟨first, found, least⟩ := exists_minimalFor_of_wellFoundedLT has rank ⟨defect, present⟩
  exact ⟨first, found, fun other has => (Nat.le_total _ _).elim id (least has)⟩

theorem text_injective : Function.Injective Missing.text := by
  intro missing other same
  cases missing <;> cases other <;> first | rfl | exact absurd same (by decide)

/-- A defect is reported in one way only. -/
theorem Reports.unique {label : String} {defect : Defect} {error other : BufferError}
    (reports : Reports label defect error) (others : Reports label defect other) : error = other := by
  cases reports with
  | incomplete reason =>
    cases others with
    | incomplete again => rw [text_injective (Option.some.inj (reason.symm.trans again))]
    | repeated _ | unaligned _ => cases reason
  | repeated name =>
    cases others with
    | incomplete reason => cases reason
    | repeated _ => rfl
  | unaligned extent =>
    cases others with
    | incomplete reason => cases reason
    | unaligned _ => rfl

end Defect

/-- A result fails with the report of the first defect, and succeeds where there is none. -/
def ReportsFirst {α : Type} (has : Defect → Prop) (label : String) (result : Except BufferError α) : Prop :=
  (∀ error, result = .error error ↔ ∃ defect, Defect.First has defect ∧ defect.Reports label error) ∧
    ((∃ value, result = .ok value) ↔ ∀ defect, ¬ has defect)

/-- It is enough to see what comes of a defect when all that are looked for before it are absent. -/
theorem ReportsFirst.of_refused {α : Type} {has : Defect → Prop} {label : String} {result : Except BufferError α}
    (refused : ∀ defect, Defect.First has defect → ∃ error, defect.Reports label error ∧ result = .error error)
    (accepted : (∀ defect, ¬ has defect) → ∃ value, result = .ok value) : ReportsFirst has label result := by
  constructor
  · intro error
    constructor
    · intro failed
      have defective : ¬ ∀ defect, ¬ has defect := fun none => by
        obtain ⟨value, succeeded⟩ := accepted none
        cases failed.symm.trans succeeded
      obtain ⟨defect, present⟩ := not_forall_not.mp defective
      obtain ⟨first, isFirst⟩ := Defect.exists_first present
      obtain ⟨reported, reports, failedSo⟩ := refused first isFirst
      cases failed.symm.trans failedSo
      exact ⟨first, isFirst, reports⟩
    · rintro ⟨first, isFirst, reports⟩
      obtain ⟨reported, reportsSo, failed⟩ := refused first isFirst
      rw [failed, reports.unique reportsSo]
  · refine ⟨?_, accepted⟩
    rintro ⟨value, succeeded⟩ defect present
    obtain ⟨first, isFirst⟩ := Defect.exists_first present
    obtain ⟨error, -, failed⟩ := refused first isFirst
    cases failed.symm.trans succeeded

theorem ReportsFirst.map {α β : Type} {has : Defect → Prop} {label : String} {result : Except BufferError α}
    (reports : ReportsFirst has label result) (f : α → β) : ReportsFirst has label (result.map f) := by
  obtain ⟨failures, successes⟩ := reports
  refine ⟨fun error => map_eq_error_iff.trans (failures error), ?_⟩
  rw [← successes]
  constructor
  · rintro ⟨_, succeeded⟩
    obtain ⟨value, own, -⟩ := map_eq_ok_iff.mp succeeded
    exact ⟨value, own⟩
  · rintro ⟨value, own⟩
    exact ⟨f value, map_eq_ok_iff.mpr ⟨value, own, rfl⟩⟩

namespace VertexSchema

/-- What can be wrong with the declaration of a stream. -/
inductive Has (schema : VertexSchema) : Defect → Prop
  | unlabelled (blank : schema.label = "") : Has schema .unlabelled
  | noField (empty : schema.attributes = []) : Has schema .noField
  | uncounted (unset : schema.elements = none) : Has schema .uncounted
  | noElement (zero : schema.elements = some 0) : Has schema .noElement
  | repeated {name : String} (first : FirstRepeat (schema.attributes.map (·.name)) name) : Has schema (.repeated name)
  | unaligned (refuses : schema.rounding = .refuse) (off : ¬ 4 ∣ schema.extent) :
      Has schema (.unaligned schema.extent)

theorem exists_count {schema : VertexSchema} (set : schema.elements ≠ none) (positive : schema.elements ≠ some 0) :
    ∃ n, schema.count = .ok n := by
  obtain ⟨n, elements⟩ := Option.ne_none_iff_exists'.mp set
  refine ⟨n, count_eq_ok_iff.mpr ⟨elements, Nat.pos_of_ne_zero ?_⟩⟩
  rintro rfl
  exact positive elements

theorem exists_complete {schema : VertexSchema} (clear : ∀ defect : Defect, defect.rank < 4 → ¬ schema.Has defect) :
    ∃ count, schema.Complete count := by
  obtain ⟨n, counted⟩ := exists_count (fun unset => clear _ (by decide) (.uncounted unset))
    (fun zero => clear _ (by decide) (.noElement zero))
  obtain ⟨elements, positive⟩ := count_eq_ok_iff.mp counted
  exact ⟨n, fun blank => clear _ (by decide) (.unlabelled blank), fun empty => clear _ (by decide) (.noField empty),
    elements, positive,
    nodup_of_no_repeat fun name first => clear (.repeated name) (Nat.lt_add_one 3) (.repeated first)⟩

theorem exists_stride {schema : VertexSchema} (clear : ¬ schema.Has (.unaligned schema.extent)) :
    ∃ stride, schema.stride = .ok stride := by
  by_cases aligned : schema.extent % 4 = 0
  · exact ⟨_, if_pos aligned⟩
  · cases rounding : schema.rounding with
    | pad => exact ⟨roundUp schema.extent 4, by simp only [stride, if_neg aligned, rounding]⟩
    | refuse => exact absurd (.unaligned rounding (mt Nat.mod_eq_zero_of_dvd aligned)) clear

theorem reportsFirst_layout (schema : VertexSchema) : ReportsFirst schema.Has schema.label schema.layout := by
  refine .of_refused (fun defect first => ?_) (fun none => ?_)
  · have clear : ∀ other : Defect, other.rank < defect.rank → ¬ schema.Has other := fun _ => first.clear
    have labelled : 0 < defect.rank → schema.label ≠ "" := fun later blank =>
      clear .unlabelled later (.unlabelled blank)
    have declared : 1 < defect.rank → schema.attributes ≠ [] := fun later empty =>
      clear .noField later (.noField empty)
    have counted : 2 < defect.rank → ∃ n, schema.count = .ok n := fun later =>
      exists_count (fun unset => clear .uncounted later (.uncounted unset))
        (fun zero => clear .noElement later (.noElement zero))
    cases first.1 with
    | unlabelled blank => exact ⟨.incomplete schema.label .label, .incomplete rfl, if_pos blank⟩
    | noField empty =>
      refine ⟨.incomplete schema.label .fields, .incomplete rfl, ?_⟩
      simp only [layout, if_neg (labelled (by decide)), if_pos empty]
    | uncounted unset =>
      refine ⟨.incomplete schema.label .countOfElements, .incomplete rfl, ?_⟩
      simp only [layout, if_neg (labelled (by decide)), if_neg (declared (by decide)), count, unset]
    | noElement zero =>
      refine ⟨.incomplete schema.label .anyElement, .incomplete rfl, ?_⟩
      simp only [layout, if_neg (labelled (by decide)), if_neg (declared (by decide)), count, zero]
    | @repeated name repeats =>
      obtain ⟨n, taken⟩ := counted (by decide : 2 < 3)
      refine ⟨.duplicateField schema.label name, .repeated name, ?_⟩
      simp only [layout, if_neg (labelled (by decide : 0 < 3)), if_neg (declared (by decide : 1 < 3)), taken,
        repeatedName?_eq_some_iff.mpr repeats]
    | unaligned refuses off =>
      obtain ⟨count, complete⟩ := exists_complete clear
      refine ⟨.unalignedStride schema.label schema.extent, .unaligned _, ?_⟩
      rw [complete.layout_eq, stride_refused refuses (mt Nat.dvd_of_mod_eq_zero off)]
      rfl
  · obtain ⟨count, complete⟩ := exists_complete fun defect _ => none defect
    obtain ⟨stride, accepted⟩ := exists_stride (none _)
    exact ⟨schema.layoutOf count stride, by rw [complete.layout_eq, accepted]; rfl⟩

end VertexSchema

namespace StructSchema

/-- What can be wrong with the declaration of a struct. -/
inductive Has (schema : StructSchema) : Defect → Prop
  | unlabelled (blank : schema.label = "") : Has schema .unlabelled
  | noField (empty : schema.members = []) : Has schema .noField
  | repeated {name : String} (first : FirstRepeat (schema.members.map (·.name)) name) : Has schema (.repeated name)

theorem reportsFirst_layout (schema : StructSchema) : ReportsFirst schema.Has schema.label schema.layout := by
  refine .of_refused (fun defect first => ?_) (fun none => ?_)
  · have clear : ∀ other : Defect, other.rank < defect.rank → ¬ schema.Has other := fun _ => first.clear
    have labelled : 0 < defect.rank → schema.label ≠ "" := fun later blank =>
      clear .unlabelled later (.unlabelled blank)
    have declared : 1 < defect.rank → schema.members ≠ [] := fun later empty =>
      clear .noField later (.noField empty)
    cases first.1 with
    | unlabelled blank => exact ⟨.incomplete schema.label .label, .incomplete rfl, if_pos blank⟩
    | noField empty =>
      refine ⟨.incomplete schema.label .fields, .incomplete rfl, ?_⟩
      simp only [layout, if_neg (labelled (by decide)), if_pos empty]
    | @repeated name repeats =>
      refine ⟨.duplicateField schema.label name, .repeated name, ?_⟩
      simp only [layout, if_neg (labelled (by decide : 0 < 3)), if_neg (declared (by decide : 1 < 3)),
        repeatedName?_eq_some_iff.mpr repeats]
  · have distinct := nodup_of_no_repeat fun name first => none (.repeated name) (.repeated first)
    exact ⟨⟨schema.label, schema.binding, schema.placed, schema.size, schema.alignment⟩,
      layout_eq_ok_iff.mpr ⟨fun blank => none _ (.unlabelled blank), fun empty => none _ (.noField empty), distinct,
        rfl, rfl, rfl, rfl, rfl⟩⟩

end StructSchema

namespace IndexSchema

/-- What can be wrong with the declaration of an index list. -/
inductive Has (schema : IndexSchema) : Defect → Prop
  | unlabelled (blank : schema.label = "") : Has schema .unlabelled
  | noIndex (zero : schema.count = 0) : Has schema .noIndex

theorem reportsFirst_layout (schema : IndexSchema) : ReportsFirst schema.Has schema.label schema.layout := by
  refine .of_refused (fun defect first => ?_) (fun none => ?_)
  · cases first.1 with
    | unlabelled blank => exact ⟨.incomplete schema.label .label, .incomplete rfl, if_pos blank⟩
    | noIndex zero =>
      have labelled : schema.label ≠ "" := fun blank => first.clear (by decide) (.unlabelled blank)
      refine ⟨.incomplete schema.label .anyIndex, .incomplete rfl, ?_⟩
      simp only [layout, if_neg labelled, if_pos zero]
  · exact ⟨⟨schema.label, schema.count, schema.format⟩,
      layout_eq_ok_iff.mpr ⟨fun blank => none _ (.unlabelled blank),
        Nat.pos_of_ne_zero fun zero => none _ (.noIndex zero), rfl, rfl, rfl⟩⟩

end IndexSchema

namespace Schema

def label : Schema → String
  | .vertex schema => schema.label
  | .struct schema => schema.label
  | .index schema => schema.label

def Has : Schema → Defect → Prop
  | .vertex schema => schema.Has
  | .struct schema => schema.Has
  | .index schema => schema.Has

theorem reportsFirst_resolve (schema : Schema) : ReportsFirst schema.Has schema.label schema.resolve.result := by
  cases schema with
  | vertex schema =>
    refine .map ?_ Layout.vertex
    rw [VertexSchema.resolve, Outcome.result_ofResult]
    exact schema.reportsFirst_layout
  | struct schema =>
    refine .map ?_ Layout.struct
    rw [StructSchema.resolve, Outcome.result_ofResult]
    exact schema.reportsFirst_layout
  | index schema =>
    refine .map ?_ Layout.index
    rw [IndexSchema.resolve, Outcome.result_ofResult]
    exact schema.reportsFirst_layout

end Schema

end GpuBuffer
