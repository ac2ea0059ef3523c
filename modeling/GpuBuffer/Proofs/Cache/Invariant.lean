import GpuBuffer.Cache
import Mathlib.Data.Finset.Card

namespace GpuBuffer.Cache
variable {σ δ : Type}

/-- A cache that remembers exactly the known schemas, each with its layout, and numbers its
instances in the order of their making. -/
structure Remembers [Resolvable σ δ] (cache : Cache σ δ) (known : Finset σ) : Prop where
  keys : ∀ s, s ∈ cache.entries.map (·.1) ↔ s ∈ known
  distinct : (cache.entries.map (·.1)).Nodup
  resolved : ∀ entry ∈ cache.entries, (Resolvable.resolve entry.1).result = .ok entry.2.layout
  numbered : cache.entries.Pairwise fun newer older => older.2.id < newer.2.id
  issued : ∀ entry ∈ cache.entries, entry.2.id < cache.issued

namespace Remembers
variable [Resolvable σ δ] {cache : Cache σ δ} {known : Finset σ}

theorem resolves (remembers : cache.Remembers known) {s : σ} (member : s ∈ known) :
    ∃ layout, (Resolvable.resolve s).result = .ok layout := by
  obtain ⟨entry, stored, rfl⟩ := List.mem_map.mp ((remembers.keys s).mpr member)
  exact ⟨_, remembers.resolved entry stored⟩

/-- Two entries have one number exactly if they have one key. -/
theorem id_eq_iff (remembers : cache.Remembers known) {s t : σ} {a b : Shared δ}
    (first : (s, a) ∈ cache.entries) (second : (t, b) ∈ cache.entries) : a.id = b.id ↔ s = t := by
  obtain ⟨i, inI, atI⟩ := List.mem_iff_getElem.mp first
  obtain ⟨j, inJ, atJ⟩ := List.mem_iff_getElem.mp second
  have ordered := List.pairwise_iff_getElem.mp remembers.numbered
  have distinct := List.pairwise_iff_getElem.mp remembers.distinct
  rcases Nat.lt_trichotomy i j with before | rfl | after
  · have newer := ordered i j inI inJ before
    have different := distinct i j (by simpa using inI) (by simpa using inJ) before
    simp only [List.getElem_map, atI, atJ] at newer different
    exact ⟨fun same => absurd same newer.ne', fun same => absurd same different⟩
  · cases atI.symm.trans atJ
    exact ⟨fun _ => rfl, fun _ => rfl⟩
  · have newer := ordered j i inJ inI after
    have different := distinct j i (by simpa using inJ) (by simpa using inI) after
    simp only [List.getElem_map, atI, atJ] at newer different
    exact ⟨fun same => absurd same newer.ne, fun same => absurd same.symm different⟩

theorem empty : (Cache.empty : Cache σ δ).Remembers ∅ where
  keys := by simp [Cache.empty]
  distinct := .nil
  resolved := by simp [Cache.empty]
  numbered := .nil
  issued := by simp [Cache.empty]

theorem clear (cache : Cache σ δ) : cache.clear.Remembers ∅ where
  keys := by simp [Cache.clear]
  distinct := .nil
  resolved := by simp [Cache.clear]
  numbered := .nil
  issued := by simp [Cache.clear]

end Remembers

/-- All entries, also those still to come, have numbers from `bound` on. -/
def NumberedFrom (bound : Nat) (cache : Cache σ δ) : Prop :=
  bound ≤ cache.issued ∧ ∀ entry ∈ cache.entries, bound ≤ entry.2.id

theorem NumberedFrom.clear {bound : Nat} {cache : Cache σ δ} (issued : bound ≤ cache.issued) :
    NumberedFrom bound cache.clear :=
  ⟨issued, by simp [Cache.clear]⟩

variable [DecidableEq σ]

theorem mem_of_find? {cache : Cache σ δ} {s : σ} {shared : Shared δ} (found : cache.find? s = some shared) :
    (s, shared) ∈ cache.entries := by
  obtain ⟨entry, first, rfl⟩ := Option.map_eq_some_iff.mp found
  have key : entry.1 = s := by simpa using List.find?_some first
  cases key
  exact List.mem_of_find?_eq_some first

theorem find?_eq_none_iff {cache : Cache σ δ} {s : σ} :
    cache.find? s = none ↔ s ∉ cache.entries.map (·.1) := by
  simp only [find?, Option.map_eq_none_iff, List.find?_eq_none, decide_eq_true_eq, List.mem_map, not_exists,
    not_and]

variable [Resolvable σ δ]

/-- A request hits, or misses and adds what it resolves, or misses and fails. -/
theorem get_cases (cache : Cache σ δ) (s : σ) :
    (∃ shared, cache.find? s = some shared ∧ cache.get s = (cache, ⟨[.cacheHit], .ok shared⟩)) ∨
      (∃ layout, cache.find? s = none ∧ (Resolvable.resolve s).result = .ok layout ∧
        cache.get s = (cache.insert s layout,
          ⟨.cacheMiss :: (Resolvable.resolve s).events, .ok ⟨cache.issued, layout⟩⟩)) ∨
      ∃ e, cache.find? s = none ∧ (Resolvable.resolve s).result = .error e ∧
        cache.get s = (cache, ⟨.cacheMiss :: (Resolvable.resolve s).events, .error e⟩) := by
  unfold get
  cases found : cache.find? s with
  | some shared => exact Or.inl ⟨shared, rfl, rfl⟩
  | none =>
    cases result : (Resolvable.resolve s).result with
    | ok layout => exact Or.inr (Or.inl ⟨layout, rfl, rfl, by simp only [result]⟩)
    | error e => exact Or.inr (Or.inr ⟨e, rfl, rfl, by simp only [result]⟩)

namespace Remembers
variable {cache : Cache σ δ} {known : Finset σ}

theorem find?_eq_none_iff (remembers : cache.Remembers known) {s : σ} :
    cache.find? s = none ↔ s ∉ known := by
  rw [Cache.find?_eq_none_iff, remembers.keys]

theorem size (remembers : cache.Remembers known) : cache.size = known.card := by
  have same : (cache.entries.map (·.1)).toFinset = known := by
    ext s
    rw [List.mem_toFinset, remembers.keys]
  rw [← same, List.toFinset_card_of_nodup remembers.distinct, List.length_map, Cache.size]

theorem insert (remembers : cache.Remembers known) {s : σ} {layout : δ} (fresh : cache.find? s = none)
    (result : (Resolvable.resolve s).result = .ok layout) :
    (cache.insert s layout).Remembers (Insert.insert s known) where
  keys t := by simp only [Cache.insert, List.map_cons, List.mem_cons, remembers.keys, Finset.mem_insert]
  distinct := List.nodup_cons.mpr ⟨Cache.find?_eq_none_iff.mp fresh, remembers.distinct⟩
  resolved := by
    intro entry member
    rcases List.mem_cons.mp member with rfl | older
    · exact result
    · exact remembers.resolved entry older
  numbered := .cons remembers.issued remembers.numbered
  issued := by
    intro entry member
    rcases List.mem_cons.mp member with rfl | older
    · exact Nat.lt_succ_self _
    · exact Nat.lt_succ_of_lt (remembers.issued entry older)

end Remembers

end GpuBuffer.Cache
