import GpuBuffer.Proofs.Declaration.Calls
import GpuBuffer.Proofs.Vertex.Sequential

namespace GpuBuffer

namespace VertexSchema

/-- A declaration opens with a label, or with a label, a count of elements and a step mode. -/
inductive Opening
  | labelled (label : String)
  | counted (label : String) (count : Nat) (stepMode : StepMode)

namespace Opening

def start : Opening → VertexSchema
  | .labelled label => { label := label }
  | .counted label count stepMode => .ofElements label count stepMode

def label : Opening → String
  | .labelled label | .counted label _ _ => label

/-- The calls behind a label that an opening stands for. -/
def calls : Opening → List Call
  | .labelled _ => []
  | .counted _ count stepMode => [.elements count, .stepMode stepMode]

end Opening

/-- What calls other than those for attributes set. -/
inductive Setting
  | elements
  | stepMode
  | rounding

namespace Call

def setting? : Call → Option Setting
  | .elements _ => some .elements
  | .stepMode _ => some .stepMode
  | .rounding _ => some .rounding
  | .field .. => none

def elements? : Call → Option Nat
  | .elements count => some count
  | _ => none

def stepMode? : Call → Option StepMode
  | .stepMode mode => some mode
  | _ => none

def rounding? : Call → Option StrideRounding
  | .rounding chosen => some chosen
  | _ => none

/-- The tag that a call names, if it is the tag of no vertex format. -/
def unknownTag? : Call → Option String
  | .field _ _ tag => if tag ∈ VertexFormat.all.map VertexFormat.tag then none else some tag
  | _ => none

end Call

/-- What the calls behind a label come to: the last setting of each kind, and the attributes in order. -/
def ofCalls (label : String) (calls : List Call) : VertexSchema where
  label := label
  elements := lastSet Call.elements? calls
  stepMode := (lastSet Call.stepMode? calls).getD .perVertex
  rounding := (lastSet Call.rounding? calls).getD .pad
  attributes := calls.filterMap Call.attribute?

theorem start_eq (o : Opening) : o.start = ofCalls o.label o.calls := by
  cases o <;> rfl

theorem ofCalls_concat (label : String) (history : List Call) (call : Call) :
    ofCalls label (history ++ [call]) =
      ⟨label, call.elements?.or (lastSet Call.elements? history),
        (call.stepMode?.or (lastSet Call.stepMode? history)).getD .perVertex,
        (call.rounding?.or (lastSet Call.rounding? history)).getD .pad,
        history.filterMap Call.attribute? ++ call.attribute?.toList⟩ := by
  have attributes : [call].filterMap Call.attribute? = call.attribute?.toList := by
    cases found : call.attribute? <;> simp [found]
  simp only [ofCalls, lastSet_concat, List.filterMap_append, attributes]

theorem ofCalls_grows (label : String) : Grows apply Call.unknownTag? (ofCalls label) := by
  intro history call
  rw [ofCalls_concat]
  cases call with
  | elements _ | stepMode _ | rounding _ =>
    refine Or.inr ⟨rfl, ?_⟩
    simp only [apply, ofCalls, Call.elements?, Call.stepMode?, Call.rounding?, Call.attribute?, Option.some_or,
      Option.none_or, Option.getD_some, Option.toList_none, List.append_nil]
  | field slot name tag =>
    by_cases known : tag ∈ VertexFormat.all.map VertexFormat.tag
    · obtain ⟨format, read⟩ : ∃ format : VertexFormat, Tagged.ofTag tag = .ok format := Tagged.ofTag_of_known known
      refine Or.inr ⟨if_pos known, ?_⟩
      simp only [apply, read, ofCalls, Call.elements?, Call.stepMode?, Call.rounding?, Call.attribute?, Option.none_or]
      rfl
    · refine Or.inl ⟨tag, if_neg known, ?_⟩
      rw [apply, Tagged.ofTag_of_unknown known]
      rfl

/-- The sequences of calls, with what they open with, have the same label, set the same last, and declare
the same attributes in the same order. -/
def SameCalls (o : Opening) (calls : List Call) (p : Opening) (others : List Call) : Prop :=
  o.label = p.label ∧
    lastSet Call.elements? (o.calls ++ calls) = lastSet Call.elements? (p.calls ++ others) ∧
    (lastSet Call.stepMode? (o.calls ++ calls)).getD .perVertex =
      (lastSet Call.stepMode? (p.calls ++ others)).getD .perVertex ∧
    (lastSet Call.rounding? (o.calls ++ calls)).getD .pad = (lastSet Call.rounding? (p.calls ++ others)).getD .pad ∧
    calls.filterMap Call.attribute? = others.filterMap Call.attribute?

theorem Opening.attributes_calls (o : Opening) (calls : List Call) :
    (o.calls ++ calls).filterMap Call.attribute? = calls.filterMap Call.attribute? := by
  cases o <;> rfl

theorem ofCalls_eq_iff {o p : Opening} {calls others : List Call} :
    ofCalls o.label (o.calls ++ calls) = ofCalls p.label (p.calls ++ others) ↔ SameCalls o calls p others := by
  simp only [ofCalls, VertexSchema.mk.injEq, Opening.attributes_calls, SameCalls]

theorem Call.isSome_elements?_iff (c : Call) : c.elements?.isSome ↔ c.setting? = some .elements := by
  cases c <;> simp [elements?, setting?]

theorem Call.isSome_stepMode?_iff (c : Call) : c.stepMode?.isSome ↔ c.setting? = some .stepMode := by
  cases c <;> simp [stepMode?, setting?]

theorem Call.isSome_rounding?_iff (c : Call) : c.rounding?.isSome ↔ c.setting? = some .rounding := by
  cases c <;> simp [rounding?, setting?]

theorem Call.setting?_of_attribute? (c : Call) (declares : c.attribute?.isSome) : c.setting? = none := by
  cases c with
  | elements _ | stepMode _ | rounding _ => cases declares
  | field => rfl

theorem ofCalls_swap (label : String) (front back : List Call) {c d : Call} (differ : c.setting? ≠ d.setting?) :
    ofCalls label (front ++ c :: d :: back) = ofCalls label (front ++ d :: c :: back) := by
  simp only [ofCalls, lastSet, filterMap_swap (fun c => c.isSome_elements?_iff.mp) differ,
    filterMap_swap (fun c => c.isSome_stepMode?_iff.mp) differ,
    filterMap_swap (fun c => c.isSome_rounding?_iff.mp) differ, filterMap_swap Call.setting?_of_attribute? differ]

theorem ofCalls_forget (label : String) (front : List Call) {back : List Call} {c d : Call}
    (sets : c.setting? ≠ none) (later : d ∈ back) (again : d.setting? = c.setting?) :
    ofCalls label (front ++ c :: back) = ofCalls label (front ++ back) := by
  have declares : c.attribute? = none := Option.not_isSome_iff_eq_none.mp (sets ∘ c.setting?_of_attribute?)
  simp only [ofCalls, lastSet_forget Call.isSome_elements?_iff later again,
    lastSet_forget Call.isSome_stepMode?_iff later again, lastSet_forget Call.isSome_rounding?_iff later again,
    List.filterMap_append, List.filterMap_cons_none declares]

theorem Call.unknownTag?_of_setting {c : Call} (sets : c.setting? ≠ none) : c.unknownTag? = none := by
  cases c with
  | elements _ | stepMode _ | rounding _ => rfl
  | field => exact absurd rfl sets

theorem declare_comesTo : ComesTo (fun (o : Opening) calls => o.start.declare calls) Call.unknownTag?
    fun o calls => ofCalls o.label (o.calls ++ calls) := by
  simp only [start_eq, declare]
  exact Grows.comesTo fun o => ofCalls_grows o.label

theorem declare_hasNormalForm :
    HasNormalForm (fun (o : Opening) calls => o.start.declare calls) Call.unknownTag? Call.setting? SameCalls := by
  refine .of_comesTo declare_comesTo (fun c sets => Call.unknownTag?_of_setting sets) ?_ ?_ ?_
  · intro o front back c d differ
    simp only [← List.append_assoc, ofCalls_swap o.label (o.calls ++ front) back differ]
  · intro o front back c d sets later again
    simp only [← List.append_assoc, ofCalls_forget o.label (o.calls ++ front) sets later again]
  · intro o p calls others
    exact ofCalls_eq_iff

end VertexSchema

/-- The declaration of a stream that places every attribute as soon as it is declared. -/
structure VertexDraft where
  label : String
  elements : Option Nat := none
  stepMode : StepMode := .perVertex
  rounding : StrideRounding := .pad
  placed : List PlacedAttribute := []
  deriving DecidableEq

namespace VertexDraft

def apply (draft : VertexDraft) : VertexSchema.Call → Except BufferError VertexDraft
  | .elements count => .ok { draft with elements := some count }
  | .stepMode mode => .ok { draft with stepMode := mode }
  | .rounding rounding => .ok { draft with rounding := rounding }
  | .field slot name tag =>
    (Tagged.ofTag tag).map fun format => { draft with placed := placeNext draft.placed ⟨slot, name, format⟩ }

def opened : VertexSchema.Opening → VertexDraft
  | .labelled label => { label := label }
  | .counted label count stepMode => { label := label, elements := some count, stepMode := stepMode }

def declare (o : VertexSchema.Opening) (calls : List VertexSchema.Call) : Except RefusedCall VertexDraft :=
  applyCalls apply 0 (opened o) calls

def ofSchema (schema : VertexSchema) : VertexDraft :=
  ⟨schema.label, schema.elements, schema.stepMode, schema.rounding, schema.placed⟩

theorem ofSchema_injective {s t : VertexSchema} (same : ofSchema s = ofSchema t) : s = t := by
  obtain ⟨label, elements, stepMode, rounding, attributes⟩ := s
  obtain ⟨otherLabel, otherElements, otherStepMode, otherRounding, otherAttributes⟩ := t
  obtain ⟨rfl, rfl, rfl, rfl, placed⟩ := VertexDraft.mk.inj same
  have declared := congrArg (List.map (·.toAttribute)) placed
  simp only [VertexSchema.placed, placeAttributes_attributes] at declared
  rw [declared]

theorem apply_ofSchema (schema : VertexSchema) (call : VertexSchema.Call) :
    (ofSchema schema).apply call = (schema.apply call).map ofSchema := by
  cases call with
  | elements _ | stepMode _ | rounding _ => rfl
  | field slot name tag =>
    simp only [apply, VertexSchema.apply]
    cases read : (Tagged.ofTag tag : Except BufferError VertexFormat) with
    | error e => rfl
    | ok format =>
      have placed := placeAttributes_concat schema.attributes ⟨slot, name, format⟩
      simp only [Except.map, ofSchema, VertexSchema.addAttribute, VertexSchema.placed, placed]

/-- Placing the attributes while they are declared comes to the same as placing them all in the end. -/
theorem declare_eq (o : VertexSchema.Opening) (calls : List VertexSchema.Call) :
    declare o calls = (o.start.declare calls).map ofSchema := by
  have opening : opened o = ofSchema o.start := by cases o <;> rfl
  rw [declare, opening, VertexSchema.declare]
  exact applyCalls_map apply_ofSchema 0 o.start calls

theorem declare_hasNormalForm :
    HasNormalForm declare VertexSchema.Call.unknownTag? VertexSchema.Call.setting? VertexSchema.SameCalls := by
  have normal := VertexSchema.declare_hasNormalForm.map fun _ _ => ofSchema_injective
  simpa only [← declare_eq] using normal

end VertexDraft

end GpuBuffer
