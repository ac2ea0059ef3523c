import GpuBuffer.Proofs.Cache.Invariant
import Mathlib.Data.List.DropRight

namespace GpuBuffer
variable {σ δ : Type}

namespace CacheCall

def asked? : CacheCall σ → Option σ
  | .get s => some s
  | .size | .clear => none

theorem asked?_eq_some_iff {c : CacheCall σ} {s : σ} : c.asked? = some s ↔ c = .get s := by
  cases c <;> simp [asked?]

def clears : CacheCall σ → Bool
  | .clear => true
  | .get _ | .size => false

end CacheCall

/-- The calls after the last that cleared the cache. -/
def sinceClear (calls : List (CacheCall σ)) : List (CacheCall σ) :=
  calls.rtakeWhile fun c => !c.clears

theorem sinceClear_concat {c : CacheCall σ} (quiet : c.clears = false) (calls : List (CacheCall σ)) :
    sinceClear (calls ++ [c]) = sinceClear calls ++ [c] :=
  List.rtakeWhile_concat_pos _ _ _ (by simpa using quiet)

theorem sinceClear_concat_clear (calls : List (CacheCall σ)) : sinceClear (calls ++ [.clear]) = [] :=
  List.rtakeWhile_concat_neg _ _ _ (by simp [CacheCall.clears])

/-- One of the first `i` calls asks for the schema, and none between it and the `i`-th clears. -/
def AskedBefore (calls : List (CacheCall σ)) (s : σ) (i : Nat) : Prop :=
  ∃ m < i, calls[m]? = some (.get s) ∧ ∀ k, m < k → k < i → calls[k]? ≠ some .clear

theorem askedBefore_succ_iff {calls : List (CacheCall σ)} {s : σ} {i : Nat} :
    AskedBefore calls s (i + 1) ↔
      calls[i]? = some (.get s) ∨ calls[i]? ≠ some .clear ∧ AskedBefore calls s i := by
  constructor
  · intro request
    obtain ⟨m, bound, asked, quiet⟩ := request
    rcases Nat.lt_succ_iff_lt_or_eq.mp bound with before | rfl
    · refine Or.inr ⟨quiet i before (Nat.lt_succ_self i), m, before, asked, fun k lower upper => ?_⟩
      exact quiet k lower (Nat.lt_succ_of_lt upper)
    · exact Or.inl asked
  · rintro (asked | ⟨still, m, before, asked, quiet⟩)
    · exact ⟨i, Nat.lt_succ_self i, asked, fun k lower upper => by omega⟩
    · refine ⟨m, Nat.lt_succ_of_lt before, asked, fun k lower upper => ?_⟩
      rcases Nat.lt_succ_iff_lt_or_eq.mp upper with inside | rfl
      · exact quiet k lower inside
      · exact still

/-- A request belongs to the calls since the last clear exactly if none follows it. -/
theorem get_mem_sinceClear_take_iff {calls : List (CacheCall σ)} {s : σ} {i : Nat} :
    .get s ∈ sinceClear (calls.take i) ↔ AskedBefore calls s i := by
  induction i with
  | zero => simp [sinceClear, AskedBefore]
  | succ i ih =>
    rw [List.take_add_one, askedBefore_succ_iff, ← ih]
    cases call : calls[i]? with
    | none => simp
    | some c =>
      rw [Option.toList_some]
      cases c with
      | get t =>
        rw [sinceClear_concat rfl, List.mem_append, List.mem_singleton]
        simp [or_comm, eq_comm]
      | size =>
        rw [sinceClear_concat rfl]
        simp
      | clear =>
        rw [sinceClear_concat_clear]
        simp

variable [DecidableEq σ] [Resolvable σ δ]

/-- The schemas that a history of calls has asked for with success since it last cleared the cache. -/
def knownSchemas (calls : List (CacheCall σ)) : Finset σ :=
  ((sinceClear calls).filterMap CacheCall.asked?).toFinset.filter fun s => (Resolvable.resolve s).result.isOk

theorem mem_knownSchemas {calls : List (CacheCall σ)} {s : σ} :
    s ∈ knownSchemas calls ↔ .get s ∈ sinceClear calls ∧ (Resolvable.resolve s).result.isOk = true := by
  simp only [knownSchemas, Finset.mem_filter, List.mem_toFinset, List.mem_filterMap,
    CacheCall.asked?_eq_some_iff, exists_eq_right]

@[simp] theorem knownSchemas_nil : knownSchemas ([] : List (CacheCall σ)) = ∅ := by
  simp [knownSchemas, sinceClear]

theorem mem_knownSchemas_get {calls : List (CacheCall σ)} {s t : σ} :
    t ∈ knownSchemas (calls ++ [.get s]) ↔
      t = s ∧ (Resolvable.resolve s).result.isOk = true ∨ t ∈ knownSchemas calls := by
  rw [mem_knownSchemas, mem_knownSchemas, sinceClear_concat rfl, List.mem_append, List.mem_singleton,
    CacheCall.get.injEq]
  by_cases same : t = s
  · subst same
    simp
  · simp [same]

theorem knownSchemas_get_ok {calls : List (CacheCall σ)} {s : σ} {layout : δ}
    (result : (Resolvable.resolve s).result = .ok layout) :
    knownSchemas (calls ++ [.get s]) = insert s (knownSchemas calls) := by
  ext t
  rw [mem_knownSchemas_get, Finset.mem_insert, result]
  simp [Except.isOk, Except.toBool]

theorem knownSchemas_get_error {calls : List (CacheCall σ)} {s : σ} {e : BufferError}
    (result : (Resolvable.resolve s).result = .error e) :
    knownSchemas (calls ++ [.get s]) = knownSchemas calls := by
  ext t
  rw [mem_knownSchemas_get, result]
  simp [Except.isOk, Except.toBool]

theorem knownSchemas_size (calls : List (CacheCall σ)) :
    knownSchemas (calls ++ [.size]) = knownSchemas calls := by
  ext t
  rw [mem_knownSchemas, mem_knownSchemas, sinceClear_concat rfl]
  simp

theorem knownSchemas_clear (calls : List (CacheCall σ)) : knownSchemas (calls ++ [.clear]) = ∅ := by
  ext t
  rw [mem_knownSchemas, sinceClear_concat_clear]
  simp

end GpuBuffer
