import GpuBuffer.Cache
import GpuBuffer.Proofs.Encoding

namespace GpuBuffer

section LastSet
variable {κ τ : Type}

/-- The value that calls set last, if they set any. -/
def lastSet (set? : κ → Option τ) (calls : List κ) : Option τ :=
  (calls.filterMap set?).getLast?

theorem lastSet_append (set? : κ → Option τ) (front back : List κ) :
    lastSet set? (front ++ back) = (lastSet set? back).or (lastSet set? front) := by
  simp only [lastSet, List.filterMap_append, List.getLast?_append]

theorem lastSet_singleton (set? : κ → Option τ) (call : κ) : lastSet set? [call] = set? call := by
  cases sets : set? call <;> simp [lastSet, sets]

theorem lastSet_concat (set? : κ → Option τ) (calls : List κ) (call : κ) :
    lastSet set? (calls ++ [call]) = (set? call).or (lastSet set? calls) := by
  rw [lastSet_append, lastSet_singleton]

theorem isSome_lastSet {set? : κ → Option τ} {calls : List κ} {call : κ} (member : call ∈ calls)
    (sets : (set? call).isSome) : (lastSet set? calls).isSome := by
  obtain ⟨value, sets⟩ := Option.isSome_iff_exists.mp sets
  have among : value ∈ calls.filterMap set? := List.mem_filterMap.mpr ⟨call, member, sets⟩
  rw [lastSet, List.getLast?_eq_some_getLast (List.ne_nil_of_mem among)]
  rfl

/-- Neighbours of different kinds can change places, where only one kind contributes. -/
theorem filterMap_swap {ι : Type} {f : κ → Option τ} {kind : κ → ι} {k : ι} (only : ∀ c, (f c).isSome → kind c = k)
    {c d : κ} (differ : kind c ≠ kind d) (front back : List κ) :
    (front ++ c :: d :: back).filterMap f = (front ++ d :: c :: back).filterMap f := by
  simp only [List.filterMap_append, List.filterMap_cons]
  cases first : f c with
  | none => cases f d <;> rfl
  | some _ =>
    have here := only c (by rw [first]; rfl)
    cases second : f d with
    | none => rfl
    | some _ => exact absurd (here.trans (only d (by rw [second]; rfl)).symm) differ

/-- What is set again later is forgotten. -/
theorem lastSet_forget {ι : Type} {set? : κ → Option τ} {kind : κ → ι} {k : ι}
    (exactly : ∀ c, (set? c).isSome ↔ kind c = k) {c d : κ} {back : List κ} (later : d ∈ back)
    (again : kind d = kind c) (front : List κ) :
    lastSet set? (front ++ c :: back) = lastSet set? (front ++ back) := by
  rw [List.append_cons, lastSet_append, lastSet_append set? front back, lastSet_concat]
  by_cases here : kind c = k
  · have sets : (set? d).isSome := (exactly d).mpr (again.trans here)
    obtain ⟨last, atEnd⟩ := Option.isSome_iff_exists.mp (isSome_lastSet later sets)
    rw [atEnd, Option.some_or, Option.some_or]
  · have unset : set? c = none := Option.not_isSome_iff_eq_none.mp (here ∘ (exactly c).mp)
    rw [unset, Option.none_or]

end LastSet

theorem Tagged.ofTag_of_unknown {α : Type} [Tagged α] {tag : String}
    (unknown : tag ∉ (Tagged.all (α := α)).map Tagged.tag) :
    (Tagged.ofTag tag : Except BufferError α) = .error (.unsupportedType tag) := by
  have absent : (Tagged.all (α := α)).find? (fun format => Tagged.tag format == tag) = none := by
    rw [List.find?_eq_none]
    intro format member same
    exact unknown (List.mem_map.mpr ⟨format, member, by simpa using same⟩)
  simp only [ofTag, absent]

theorem Tagged.ofTag_of_known {α : Type} [Tagged α] {tag : String}
    (known : tag ∈ (Tagged.all (α := α)).map Tagged.tag) :
    ∃ format : α, Tagged.ofTag tag = .ok format := by
  obtain ⟨format, member, spelled⟩ := List.mem_map.mp known
  cases search : (Tagged.all (α := α)).find? (fun format => Tagged.tag format == tag) with
  | none =>
    have absent := List.find?_eq_none.mp search format member
    exact absurd (by simpa using spelled) absent
  | some found => exact ⟨found, by simp only [ofTag, search]⟩

/-- Of the calls the `i`-th is the first to name a tag that no format has. -/
structure FirstUnknown {κ : Type} (unknown? : κ → Option String) (calls : List κ) (i : Nat) (tag : String) : Prop where
  names : ∃ call, calls[i]? = some call ∧ unknown? call = some tag
  first : ∀ j < i, ∀ call, calls[j]? = some call → unknown? call = none

theorem FirstUnknown.unique {κ : Type} {unknown? : κ → Option String} {calls : List κ} {i j : Nat}
    {tag other : String} (one : FirstUnknown unknown? calls i tag) (two : FirstUnknown unknown? calls j other) :
    i = j ∧ tag = other := by
  obtain ⟨call, atI, names⟩ := one.names
  obtain ⟨later, atJ, namesOther⟩ := two.names
  rcases Nat.lt_trichotomy i j with before | rfl | after
  · cases (two.first i before call atI).symm.trans names
  · cases atI.symm.trans atJ
    exact ⟨rfl, Option.some.inj (names.symm.trans namesOther)⟩
  · cases (one.first j after later atJ).symm.trans namesOther

section Histories
variable {σ κ : Type} {apply : σ → κ → Except BufferError σ} {unknown? : κ → Option String} {state : List κ → σ}

/-- A schema is what the calls so far come to, and the next call adds itself to them, unless it names a
tag that no format has. -/
def Grows (apply : σ → κ → Except BufferError σ) (unknown? : κ → Option String) (state : List κ → σ) : Prop :=
  ∀ history call,
    (∃ tag, unknown? call = some tag ∧ apply (state history) call = .error (.unsupportedType tag)) ∨
      unknown? call = none ∧ apply (state history) call = .ok (state (history ++ [call]))

/-- A run of calls stops at the first unknown tag, and without one adds all of them to the history. -/
theorem Grows.run (grows : Grows apply unknown? state) (position : Nat) (history calls : List κ) :
    (∃ i tag, FirstUnknown unknown? calls i tag ∧
        applyCalls apply position (state history) calls = .error ⟨position + i, .unsupportedType tag⟩) ∨
      (∀ call ∈ calls, unknown? call = none) ∧
        applyCalls apply position (state history) calls = .ok (state (history ++ calls)) := by
  induction calls generalizing position history with
  | nil => exact Or.inr ⟨fun _ member => absurd member List.not_mem_nil, by rw [List.append_nil]; rfl⟩
  | cons call rest ih =>
    rcases grows history call with ⟨tag, names, refused⟩ | ⟨known, applied⟩
    · refine Or.inl ⟨0, tag, ⟨⟨call, rfl, names⟩, fun j before => absurd before (Nat.not_lt_zero j)⟩, ?_⟩
      simp only [applyCalls, refused, Nat.add_zero]
    · simp only [applyCalls, applied]
      rcases ih (position + 1) (history ++ [call]) with ⟨i, tag, ⟨names, first⟩, refused⟩ | ⟨others, accepted⟩
      · refine Or.inl ⟨i + 1, tag, ⟨names, ?_⟩, by rw [refused, Nat.add_assoc, Nat.add_comm 1 i]⟩
        intro j before earlier atJ
        cases j with
        | zero =>
          cases atJ
          exact known
        | succ j => exact first j (Nat.lt_of_succ_lt_succ before) earlier atJ
      · refine Or.inr ⟨List.forall_mem_cons.mpr ⟨known, others⟩, ?_⟩
        rw [accepted, List.append_assoc, List.singleton_append]

/-- A schema kept in another form goes through the same calls alike. -/
theorem applyCalls_map {τ : Type} {f : σ → τ} {next : τ → κ → Except BufferError τ}
    (alike : ∀ s call, next (f s) call = (apply s call).map f) (position : Nat) (s : σ) (calls : List κ) :
    applyCalls next position (f s) calls = (applyCalls apply position s calls).map f := by
  induction calls generalizing position s with
  | nil => rfl
  | cons call rest ih =>
    simp only [applyCalls, alike]
    cases apply s call with
    | error e => rfl
    | ok t => exact ih (position + 1) t

end Histories

section Outcomes
variable {ω σ κ : Type} {declare : ω → List κ → Except RefusedCall σ} {unknown? : κ → Option String}
  {state : ω → List κ → σ}

/-- Declarations come to a state, except that the first unknown tag among their calls stops them. -/
def ComesTo (declare : ω → List κ → Except RefusedCall σ) (unknown? : κ → Option String)
    (state : ω → List κ → σ) : Prop :=
  ∀ o calls,
    (∃ i tag, FirstUnknown unknown? calls i tag ∧ declare o calls = .error ⟨i, .unsupportedType tag⟩) ∨
      (∀ call ∈ calls, unknown? call = none) ∧ declare o calls = .ok (state o calls)

/-- Openings that stand for calls of their own come before those made. -/
theorem Grows.comesTo {apply : σ → κ → Except BufferError σ} {opening : ω → List κ}
    (grows : ∀ o, Grows apply unknown? (state o)) :
    ComesTo (fun o calls => applyCalls apply 0 (state o (opening o)) calls) unknown?
      fun o calls => state o (opening o ++ calls) := by
  intro o calls
  have run := (grows o).run 0 (opening o) calls
  simpa only [Nat.zero_add] using run

theorem ComesTo.eq_ok_iff (comes : ComesTo declare unknown? state) {o : ω} {calls : List κ} {s : σ} :
    declare o calls = .ok s ↔ (∀ call ∈ calls, unknown? call = none) ∧ state o calls = s := by
  rcases comes o calls with ⟨i, tag, unknown, refused⟩ | ⟨known, result⟩
  · obtain ⟨call, atI, names⟩ := unknown.names
    rw [refused]
    constructor
    · intro impossible
      cases impossible
    · rintro ⟨known, _⟩
      cases (known call (List.mem_of_getElem? atI)).symm.trans names
  · rw [result, Except.ok.injEq]
    exact ⟨fun reached => ⟨known, reached⟩, fun facts => facts.2⟩

theorem ComesTo.eq_error_iff (comes : ComesTo declare unknown? state) {o : ω} {calls : List κ}
    {refused : RefusedCall} :
    declare o calls = .error refused ↔
      ∃ i tag, FirstUnknown unknown? calls i tag ∧ refused = ⟨i, .unsupportedType tag⟩ := by
  rcases comes o calls with ⟨i, tag, unknown, result⟩ | ⟨known, result⟩
  · rw [result, Except.error.injEq]
    constructor
    · rintro rfl
      exact ⟨i, tag, unknown, rfl⟩
    · rintro ⟨j, other, again, rfl⟩
      obtain ⟨rfl, rfl⟩ := unknown.unique again
      rfl
  · rw [result]
    constructor
    · intro impossible
      cases impossible
    · rintro ⟨i, tag, unknown, _⟩
      obtain ⟨call, atI, names⟩ := unknown.names
      cases (known call (List.mem_of_getElem? atI)).symm.trans names

end Outcomes

/-- A cache finds what was put in under a key for that key alone. -/
theorem Cache.found_insert_iff {σ δ : Type} [DecidableEq σ] {cache : Cache σ δ} {s t : σ} {layout : δ}
    (absent : cache.find? t = none) :
    (cache.insert s layout).find? t = some ⟨cache.issued, layout⟩ ↔ s = t := by
  by_cases same : s = t
  · simp [find?, insert, same]
  · have elsewhere : (cache.insert s layout).find? t = cache.find? t := by simp [find?, insert, same]
    simp [elsewhere, absent, same]

/-- Declarations that open in one of the ways `ω` and go on by calls have a normal form, by which
`Same` tells them apart. Unknown tags are the only reason to refuse one. -/
structure HasNormalForm {ω σ κ ι : Type} [DecidableEq σ] (declare : ω → List κ → Except RefusedCall σ)
    (unknown? : κ → Option String) (setting? : κ → Option ι) (Same : ω → List κ → ω → List κ → Prop) : Prop where
  accepted_iff : ∀ (o : ω) (calls : List κ),
    (∃ s, declare o calls = .ok s) ↔ ∀ call ∈ calls, unknown? call = none
  refused_iff : ∀ (o : ω) (calls : List κ) (refused : RefusedCall),
    declare o calls = .error refused ↔
      ∃ i tag, FirstUnknown unknown? calls i tag ∧ refused = ⟨i, .unsupportedType tag⟩
  equal_iff : ∀ (o p : ω) (calls others : List κ) (s t : σ), declare o calls = .ok s → declare p others = .ok t →
    (s = t ↔ Same o calls p others)
  found_iff : ∀ (o p : ω) (calls others : List κ) (s t : σ), declare o calls = .ok s → declare p others = .ok t →
    ∀ (δ : Type) (cache : Cache σ δ) (layout : δ), cache.find? t = none →
      ((cache.insert s layout).find? t = some ⟨cache.issued, layout⟩ ↔ Same o calls p others)
  commutes : ∀ (o : ω) (front back : List κ) (c d : κ) (s : σ), setting? c ≠ setting? d →
    (declare o (front ++ c :: d :: back) = .ok s ↔ declare o (front ++ d :: c :: back) = .ok s)
  forgets : ∀ (o : ω) (front back : List κ) (c d : κ) (s : σ), setting? c ≠ none → d ∈ back → setting? d = setting? c →
    (declare o (front ++ c :: back) = .ok s ↔ declare o (front ++ back) = .ok s)

theorem HasNormalForm.of_comesTo {ω σ κ ι : Type} [DecidableEq σ] {declare : ω → List κ → Except RefusedCall σ}
    {unknown? : κ → Option String} {setting? : κ → Option ι} {Same : ω → List κ → ω → List κ → Prop}
    {state : ω → List κ → σ} (comes : ComesTo declare unknown? state)
    (settings : ∀ c, setting? c ≠ none → unknown? c = none)
    (swap : ∀ o front back c d, setting? c ≠ setting? d →
      state o (front ++ c :: d :: back) = state o (front ++ d :: c :: back))
    (forget : ∀ o front back c d, setting? c ≠ none → d ∈ back → setting? d = setting? c →
      state o (front ++ c :: back) = state o (front ++ back))
    (same : ∀ o p calls others, state o calls = state p others ↔ Same o calls p others) :
    HasNormalForm declare unknown? setting? Same where
  accepted_iff o calls := by
    simp only [comes.eq_ok_iff]
    exact ⟨fun found => found.choose_spec.1, fun known => ⟨_, known, rfl⟩⟩
  refused_iff o calls refused := comes.eq_error_iff
  equal_iff o p calls others s t first second := by
    rw [← (comes.eq_ok_iff.mp first).2, ← (comes.eq_ok_iff.mp second).2]
    exact same o p calls others
  found_iff o p calls others s t first second δ cache layout absent := by
    rw [Cache.found_insert_iff absent, ← (comes.eq_ok_iff.mp first).2, ← (comes.eq_ok_iff.mp second).2]
    exact same o p calls others
  commutes o front back c d s differ := by
    rw [comes.eq_ok_iff, comes.eq_ok_iff, swap o front back c d differ]
    have order : (front ++ c :: d :: back).Perm (front ++ d :: c :: back) := .append_left front (.swap d c back)
    simp only [order.mem_iff]
  forgets o front back c d s isSetting later again := by
    rw [comes.eq_ok_iff, comes.eq_ok_iff, forget o front back c d isSetting later again]
    simp only [List.forall_mem_append, List.forall_mem_cons, settings c isSetting, true_and]

/-- Another form of the schemas has the same normal form, if it loses nothing. -/
theorem HasNormalForm.map {ω σ τ κ ι : Type} [DecidableEq σ] [DecidableEq τ]
    {declare : ω → List κ → Except RefusedCall σ} {unknown? : κ → Option String} {setting? : κ → Option ι}
    {Same : ω → List κ → ω → List κ → Prop} (normal : HasNormalForm declare unknown? setting? Same) {f : σ → τ}
    (injective : ∀ s t, f s = f t → s = t) :
    HasNormalForm (fun o calls => (declare o calls).map f) unknown? setting? Same := by
  have equal : ∀ o p calls others s t, (declare o calls).map f = .ok s → (declare p others).map f = .ok t →
      (s = t ↔ Same o calls p others) := by
    intro o p calls others s t first second
    obtain ⟨a, declared, rfl⟩ := map_eq_ok_iff.mp first
    obtain ⟨b, declaredToo, rfl⟩ := map_eq_ok_iff.mp second
    rw [← normal.equal_iff o p calls others a b declared declaredToo]
    exact ⟨injective a b, congrArg f⟩
  refine ⟨?_, ?_, equal, ?_, ?_, ?_⟩
  · intro o calls
    rw [← normal.accepted_iff o]
    simp [map_eq_ok_iff]
  · intro o calls refused
    rw [map_eq_error_iff, normal.refused_iff]
  · intro o p calls others s t first second δ cache layout absent
    rw [Cache.found_insert_iff absent]
    exact equal o p calls others s t first second
  · intro o front back c d s differ
    simp only [map_eq_ok_iff, normal.commutes o front back c d _ differ]
  · intro o front back c d s sets later again
    simp only [map_eq_ok_iff, normal.forgets o front back c d _ sets later again]

end GpuBuffer
