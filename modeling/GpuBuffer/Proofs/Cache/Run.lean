import GpuBuffer.Proofs.Cache.History

namespace GpuBuffer.Cache
variable {σ δ : Type} [DecidableEq σ] [Resolvable σ δ]

theorem run_concat (cache : Cache σ δ) (calls : List (CacheCall σ)) (c : CacheCall σ) :
    cache.run (calls ++ [c]) =
      (((cache.run calls).1.call c).1, (cache.run calls).2 ++ [((cache.run calls).1.call c).2]) := by
  induction calls generalizing cache with
  | nil => rfl
  | cons first rest ih => simp only [List.cons_append, run, ih]

/-- The state of a new cache after a history of calls. -/
def after (calls : List (CacheCall σ)) : Cache σ δ :=
  ((Cache.empty : Cache σ δ).run calls).1

theorem after_concat (calls : List (CacheCall σ)) (c : CacheCall σ) :
    (after (calls ++ [c]) : Cache σ δ) = ((after calls).call c).1 := by
  rw [after, run_concat, after]

theorem after_take_succ {calls : List (CacheCall σ)} {i : Nat} {c : CacheCall σ} (call : calls[i]? = some c) :
    (after (calls.take (i + 1)) : Cache σ δ) = ((after (calls.take i)).call c).1 := by
  rw [List.take_add_one, call, Option.toList_some, after_concat]

theorem after_take_beyond {calls : List (CacheCall σ)} {i : Nat} (beyond : calls[i]? = none) :
    (after (calls.take (i + 1)) : Cache σ δ) = after (calls.take i) := by
  rw [List.take_add_one, beyond, Option.toList_none, List.append_nil]

@[simp] theorem length_replies (cache : Cache σ δ) (calls : List (CacheCall σ)) :
    (cache.run calls).2.length = calls.length := by
  induction calls generalizing cache with
  | nil => rfl
  | cons c rest ih => simp only [run, List.length_cons, ih]

/-- Each call is answered from the state that the calls before it left. -/
theorem reply_eq {calls : List (CacheCall σ)} {i : Nat} {c : CacheCall σ} (call : calls[i]? = some c) :
    ((Cache.empty : Cache σ δ).run calls).2[i]? = some ((after (calls.take i)).call c).2 := by
  -- A history grows at its end, and so does the induction.
  induction calls using List.reverseRecOn with
  | nil => simp at call
  | append_singleton front last ih =>
    rw [run_concat]
    rcases Nat.lt_trichotomy i front.length with earlier | rfl | beyond
    · rw [List.getElem?_append_left earlier] at call
      rw [List.getElem?_append_left (by rwa [length_replies]), List.take_append_of_le_length earlier.le]
      exact ih call
    · have same : last = c := by simpa using call
      rw [List.getElem?_append_right (by rw [length_replies]), length_replies, List.take_left, same]
      simp [after]
    · rw [List.getElem?_eq_none (by simp only [List.length_append, List.length_singleton]; omega)] at call
      cases call

theorem Remembers.call {cache : Cache σ δ} {history : List (CacheCall σ)}
    (remembers : cache.Remembers (knownSchemas history)) (c : CacheCall σ) :
    (cache.call c).1.Remembers (knownSchemas (history ++ [c])) := by
  cases c with
  | get s =>
    change (cache.get s).1.Remembers _
    rcases cache.get_cases s with ⟨shared, found, result⟩ | ⟨layout, fresh, resolved, result⟩ |
      ⟨e, _, failed, result⟩
    · have known : s ∈ knownSchemas history :=
        (remembers.keys s).mp (List.mem_map_of_mem (mem_of_find? found))
      obtain ⟨layout, resolved⟩ := remembers.resolves known
      rw [result, knownSchemas_get_ok resolved, Finset.insert_eq_of_mem known]
      exact remembers
    · rw [result, knownSchemas_get_ok resolved]
      exact remembers.insert fresh resolved
    · rw [result, knownSchemas_get_error failed]
      exact remembers
  | size =>
    rw [knownSchemas_size]
    exact remembers
  | clear =>
    rw [knownSchemas_clear]
    exact .clear cache

/-- A cache remembers what it was asked for with success since it was last cleared. -/
theorem after_remembers (calls : List (CacheCall σ)) :
    (after calls : Cache σ δ).Remembers (knownSchemas calls) := by
  induction calls using List.reverseRecOn with
  | nil => rw [knownSchemas_nil]; exact .empty
  | append_singleton front last ih =>
    rw [after_concat]
    exact ih.call last

/-- A call leaves the cache alone, adds a layout under a number not used before, or clears it. -/
theorem call_cases (cache : Cache σ δ) (c : CacheCall σ) :
    (cache.call c).1 = cache ∨ (∃ s layout, (cache.call c).1 = cache.insert s layout) ∨
      c = .clear ∧ (cache.call c).1 = cache.clear := by
  cases c with
  | get s =>
    change (cache.get s).1 = cache ∨ (∃ t layout, (cache.get s).1 = cache.insert t layout) ∨ _
    rcases cache.get_cases s with ⟨_, _, result⟩ | ⟨layout, _, _, result⟩ | ⟨_, _, _, result⟩
    · exact Or.inl (by rw [result])
    · exact Or.inr (Or.inl ⟨s, layout, by rw [result]⟩)
    · exact Or.inl (by rw [result])
  | size => exact Or.inl rfl
  | clear => exact Or.inr (Or.inr ⟨rfl, rfl⟩)

theorem issued_le_call (cache : Cache σ δ) (c : CacheCall σ) : cache.issued ≤ (cache.call c).1.issued := by
  rcases cache.call_cases c with same | ⟨_, _, added⟩ | ⟨_, cleared⟩
  · rw [same]
  · rw [added]
    exact Nat.le_succ _
  · rw [cleared]
    exact Nat.le_refl cache.issued

/-- Only a clear drops an entry. -/
theorem mem_entries_call {cache : Cache σ δ} {c : CacheCall σ} {entry : σ × Shared δ}
    (keeps : c ≠ .clear) (member : entry ∈ cache.entries) : entry ∈ (cache.call c).1.entries := by
  rcases cache.call_cases c with same | ⟨_, _, added⟩ | ⟨clears, _⟩
  · rwa [same]
  · rw [added]
    exact List.mem_cons_of_mem _ member
  · exact absurd clears keeps

theorem NumberedFrom.call {bound : Nat} {cache : Cache σ δ} (numbered : NumberedFrom bound cache)
    (c : CacheCall σ) : NumberedFrom bound (cache.call c).1 := by
  rcases cache.call_cases c with same | ⟨_, _, added⟩ | ⟨_, cleared⟩
  · rwa [same]
  · rw [added]
    exact ⟨Nat.le_succ_of_le numbered.1, List.forall_mem_cons.mpr numbered⟩
  · rw [cleared]
    exact .clear numbered.1

end GpuBuffer.Cache
