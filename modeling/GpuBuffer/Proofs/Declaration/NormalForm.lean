import GpuBuffer.Proofs.Declaration.Stream

namespace GpuBuffer

namespace StructSchema

/-- A declaration opens with a label, or with a label and a binding. -/
inductive Opening
  | labelled (label : String)
  | bound (label : String) (binding : StructBinding)

namespace Opening

def start : Opening → StructSchema
  | .labelled label => { label := label }
  | .bound label binding => { label := label, binding := binding }

def label : Opening → String
  | .labelled label | .bound label _ => label

/-- The calls behind a label that an opening stands for. -/
def calls : Opening → List Call
  | .labelled _ => []
  | .bound _ binding => [.binding binding]

end Opening

/-- What calls other than those for members set. -/
inductive Setting
  | binding

namespace Call

def setting? : Call → Option Setting
  | .binding _ => some .binding
  | .field .. => none

def binding? : Call → Option StructBinding
  | .binding chosen => some chosen
  | .field .. => none

/-- The member that a call declares, if it declares one. -/
def member? : Call → Option Member
  | .field name tag => (Tagged.ofTag tag).toOption.map (Member.mk name)
  | .binding _ => none

/-- The tag that a call names, if it is the tag of no member type. -/
def unknownTag? : Call → Option String
  | .field _ tag => if tag ∈ MemberType.all.map MemberType.tag then none else some tag
  | .binding _ => none

theorem isSome_binding?_iff (c : Call) : c.binding?.isSome ↔ c.setting? = some .binding := by
  cases c <;> simp [binding?, setting?]

theorem setting?_of_member? (c : Call) (declares : c.member?.isSome) : c.setting? = none := by
  cases c with
  | binding _ => cases declares
  | field => rfl

theorem unknownTag?_of_setting {c : Call} (sets : c.setting? ≠ none) : c.unknownTag? = none := by
  cases c with
  | binding _ => rfl
  | field => exact absurd rfl sets

end Call

/-- What the calls behind a label come to: the last binding, and the members in order. -/
def ofCalls (label : String) (calls : List Call) : StructSchema where
  label := label
  binding := (lastSet Call.binding? calls).getD .uniform
  members := calls.filterMap Call.member?

theorem start_eq (o : Opening) : o.start = ofCalls o.label o.calls := by
  cases o <;> rfl

theorem ofCalls_concat (label : String) (history : List Call) (call : Call) :
    ofCalls label (history ++ [call]) =
      ⟨label, (call.binding?.or (lastSet Call.binding? history)).getD .uniform,
        history.filterMap Call.member? ++ call.member?.toList⟩ := by
  have members : [call].filterMap Call.member? = call.member?.toList := by
    cases found : call.member? <;> simp [found]
  simp only [ofCalls, lastSet_concat, List.filterMap_append, members]

theorem ofCalls_grows (label : String) : Grows apply Call.unknownTag? (ofCalls label) := by
  intro history call
  rw [ofCalls_concat]
  cases call with
  | binding chosen =>
    refine Or.inr ⟨rfl, ?_⟩
    simp only [apply, ofCalls, Call.binding?, Call.member?, Option.some_or, Option.getD_some, Option.toList_none,
      List.append_nil]
  | field name tag =>
    by_cases known : tag ∈ MemberType.all.map MemberType.tag
    · obtain ⟨type, read⟩ : ∃ type : MemberType, Tagged.ofTag tag = .ok type := Tagged.ofTag_of_known known
      refine Or.inr ⟨if_pos known, ?_⟩
      simp only [apply, read, ofCalls, Call.binding?, Call.member?, Option.none_or]
      rfl
    · refine Or.inl ⟨tag, if_neg known, ?_⟩
      rw [apply, Tagged.ofTag_of_unknown known]
      rfl

/-- The sequences of calls, with what they open with, have the same label, set the same binding last, and
declare the same members in the same order. -/
def SameCalls (o : Opening) (calls : List Call) (p : Opening) (others : List Call) : Prop :=
  o.label = p.label ∧
    (lastSet Call.binding? (o.calls ++ calls)).getD .uniform =
      (lastSet Call.binding? (p.calls ++ others)).getD .uniform ∧
    calls.filterMap Call.member? = others.filterMap Call.member?

theorem Opening.members_calls (o : Opening) (calls : List Call) :
    (o.calls ++ calls).filterMap Call.member? = calls.filterMap Call.member? := by
  cases o <;> rfl

theorem ofCalls_swap (label : String) (front back : List Call) {c d : Call} (differ : c.setting? ≠ d.setting?) :
    ofCalls label (front ++ c :: d :: back) = ofCalls label (front ++ d :: c :: back) := by
  simp only [ofCalls, lastSet, filterMap_swap (fun c => c.isSome_binding?_iff.mp) differ,
    filterMap_swap Call.setting?_of_member? differ]

theorem ofCalls_forget (label : String) (front : List Call) {back : List Call} {c d : Call}
    (sets : c.setting? ≠ none) (later : d ∈ back) (again : d.setting? = c.setting?) :
    ofCalls label (front ++ c :: back) = ofCalls label (front ++ back) := by
  have declares : c.member? = none := Option.not_isSome_iff_eq_none.mp (sets ∘ c.setting?_of_member?)
  simp only [ofCalls, lastSet_forget Call.isSome_binding?_iff later again, List.filterMap_append,
    List.filterMap_cons_none declares]

theorem declare_comesTo : ComesTo (fun (o : Opening) calls => o.start.declare calls) Call.unknownTag?
    fun o calls => ofCalls o.label (o.calls ++ calls) := by
  simp only [start_eq, declare]
  exact Grows.comesTo fun o => ofCalls_grows o.label

theorem declare_hasNormalForm :
    HasNormalForm (fun (o : Opening) calls => o.start.declare calls) Call.unknownTag? Call.setting? SameCalls := by
  refine .of_comesTo declare_comesTo (fun c sets => Call.unknownTag?_of_setting sets) ?_ ?_ ?_
  · intro o front back c d differ
    simp only [← List.append_assoc, ofCalls_swap o.label (o.calls ++ front) back differ]
  · intro o front back c d sets later again
    simp only [← List.append_assoc, ofCalls_forget o.label (o.calls ++ front) sets later again]
  · intro o p calls others
    simp only [ofCalls, StructSchema.mk.injEq, Opening.members_calls, SameCalls]

end StructSchema

/-- Declarations are the same exactly if their calls set the same last and declare the same fields in the
same order, whatever else was set in between. So it is with streams, also where their attributes are
kept with the offsets given to them when they were declared, and with structs. The first unknown tag stops
a declaration, and nothing else does. -/
theorem declarations_have_normal_form :
    HasNormalForm (fun (o : VertexSchema.Opening) calls => o.start.declare calls) VertexSchema.Call.unknownTag?
        VertexSchema.Call.setting? VertexSchema.SameCalls ∧
      HasNormalForm VertexDraft.declare VertexSchema.Call.unknownTag? VertexSchema.Call.setting?
        VertexSchema.SameCalls ∧
      HasNormalForm (fun (o : StructSchema.Opening) calls => o.start.declare calls) StructSchema.Call.unknownTag?
        StructSchema.Call.setting? StructSchema.SameCalls :=
  ⟨VertexSchema.declare_hasNormalForm, VertexDraft.declare_hasNormalForm, StructSchema.declare_hasNormalForm⟩

/-- Settings made twice and between the fields come to what opening with them comes to; another binding is another
struct; and the first of two unknown tags is the one that is named. -/
theorem declarations_have_normal_form_of_interleaved_calls :
    let plain : List VertexSchema.Call := [.field 0 "id" "uint8x2", .field 7 "position" "float32x3"]
    let mixed : List VertexSchema.Call :=
      [.elements 3, .field 0 "id" "uint8x2", .rounding .refuse, .stepMode .perInstance,
        .field 7 "position" "float32x3", .rounding .pad, .elements 9]
    let unknown : List VertexSchema.Call :=
      [.elements 0, .field 0 "" "float64", .field 0 "" "vec3f", .stepMode .perVertex]
    let scale : List StructSchema.Call := [.field "scale" "f32"]
    (∃ draft, VertexDraft.declare (.labelled "v") mixed = .ok draft ∧
        VertexDraft.declare (.counted "v" 9 .perInstance) plain = .ok draft) ∧
      VertexDraft.declare (.labelled "v") unknown = .error ⟨1, .unsupportedType "float64"⟩ ∧
      ∃ uniform storage : StructSchema,
        (StructSchema.Opening.labelled "s").start.declare scale = .ok uniform ∧
          (StructSchema.Opening.labelled "s").start.declare (.binding .storage :: scale) = .ok storage ∧
          uniform ≠ storage := by
  intro plain mixed unknown scale
  obtain ⟨-, drafts, structs⟩ := declarations_have_normal_form
  refine ⟨?_, ?_, ?_⟩
  · obtain ⟨one, first⟩ := (drafts.accepted_iff (.labelled "v") mixed).mpr (by decide)
    obtain ⟨two, second⟩ := (drafts.accepted_iff (.counted "v" 9 .perInstance) plain).mpr (by decide)
    have same := (drafts.equal_iff _ _ _ _ one two first second).mpr ⟨rfl, by decide, by decide, by decide, by decide⟩
    exact ⟨one, first, same ▸ second⟩
  · refine (drafts.refused_iff _ _ _).mpr ⟨1, "float64", ⟨⟨.field 0 "" "float64", rfl, by decide⟩, ?_⟩, rfl⟩
    intro j before call earlier
    obtain rfl : j = 0 := by omega
    cases earlier
    rfl
  · obtain ⟨uniform, first⟩ := (structs.accepted_iff (.labelled "s") scale).mpr (by decide)
    obtain ⟨storage, second⟩ := (structs.accepted_iff (.labelled "s") (.binding .storage :: scale)).mpr (by decide)
    refine ⟨uniform, storage, first, second, fun same => ?_⟩
    have bindings := ((structs.equal_iff _ _ _ _ uniform storage first second).mp same).2.1
    exact absurd bindings (by decide)

end GpuBuffer
