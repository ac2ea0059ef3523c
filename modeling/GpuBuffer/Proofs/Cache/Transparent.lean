import GpuBuffer.Proofs.Cache.Run
import Mathlib.Order.Nat

namespace GpuBuffer.Cache
variable {σ δ : Type} [DecidableEq σ] [Resolvable σ δ]

/-- What holds at one time and survives each later call holds later on. -/
theorem after_take_induction (P : Cache σ δ → Prop) {calls : List (CacheCall σ)} {i j : Nat} (later : i ≤ j)
    (step : ∀ k c cache, i ≤ k → k < j → calls[k]? = some c → P cache → P (cache.call c).1)
    (holds : P (after (calls.take i))) : P (after (calls.take j)) := by
  induction j, later using Nat.le_induction with
  | base => exact holds
  | succ j later ih =>
    have before := ih fun k c cache lower upper => step k c cache lower (Nat.lt_succ_of_lt upper)
    cases call : calls[j]? with
    | none => rwa [after_take_beyond call]
    | some c =>
      rw [after_take_succ call]
      exact step j c _ later (Nat.lt_succ_self j) call before

theorem entries_persist {calls : List (CacheCall σ)} {i j : Nat} (later : i ≤ j)
    (uncleared : ∀ k, i ≤ k → k < j → calls[k]? ≠ some .clear) {entry : σ × Shared δ}
    (member : entry ∈ (after (calls.take i) : Cache σ δ).entries) :
    entry ∈ (after (calls.take j) : Cache σ δ).entries := by
  refine after_take_induction (entry ∈ ·.entries) later (fun k c cache lower upper call held => ?_) member
  exact mem_entries_call (fun clears => uncleared k lower upper (clears ▸ call)) held

/-- Whatever is handed out after a clear has a larger number than anything handed out before. -/
theorem id_lt_of_clear {calls : List (CacheCall σ)} {i k j : Nat} (first : i ≤ k) (second : k < j)
    (clears : calls[k]? = some .clear) {old new : σ × Shared δ}
    (before : old ∈ (after (calls.take i) : Cache σ δ).entries)
    (behind : new ∈ (after (calls.take j) : Cache σ δ).entries) : old.2.id < new.2.id := by
  have issued : old.2.id < (after (calls.take k) : Cache σ δ).issued :=
    after_take_induction (old.2.id < ·.issued) first
      (fun _ c cache _ _ _ below => below.trans_le (cache.issued_le_call c))
      ((after_remembers _).issued old before)
  have cleared : NumberedFrom (old.2.id + 1) (after (calls.take (k + 1)) : Cache σ δ) := by
    rw [after_take_succ clears]
    exact .clear issued
  have numbered : NumberedFrom (old.2.id + 1) (after (calls.take j) : Cache σ δ) :=
    after_take_induction (NumberedFrom _) second (fun _ c _ _ _ _ numbered => numbered.call c) cleared
  exact numbered.2 new behind

namespace Remembers
variable {cache : Cache σ δ} {known : Finset σ}

theorem result_get (remembers : cache.Remembers known) (s : σ) :
    (cache.get s).2.result.map (·.layout) = (Resolvable.resolve s).result := by
  rcases cache.get_cases s with ⟨shared, found, result⟩ | ⟨layout, _, resolved, result⟩ | ⟨e, _, failed, result⟩
  · rw [result, remembers.resolved _ (mem_of_find? found)]
    rfl
  · rw [result, resolved]
    rfl
  · rw [result, failed]
    rfl

theorem events_get (remembers : cache.Remembers known) (s : σ) :
    (cache.get s).2.events =
      if s ∈ known then [.cacheHit] else .cacheMiss :: (Resolvable.resolve s).events := by
  rcases cache.get_cases s with ⟨shared, found, result⟩ | ⟨_, fresh, _, result⟩ | ⟨_, fresh, _, result⟩
  · rw [result, if_pos ((remembers.keys s).mp (List.mem_map_of_mem (mem_of_find? found)))]
  · rw [result, if_neg (remembers.find?_eq_none_iff.mp fresh)]
  · rw [result, if_neg (remembers.find?_eq_none_iff.mp fresh)]

end Remembers

/-- An instance handed out is kept under its schema. -/
theorem mem_entries_get {cache : Cache σ δ} {s : σ} {shared : Shared δ}
    (handed : (cache.get s).2.result = .ok shared) : (s, shared) ∈ (cache.get s).1.entries := by
  rcases cache.get_cases s with ⟨_, found, result⟩ | ⟨_, _, _, result⟩ | ⟨_, _, _, result⟩
  · rw [result] at handed ⊢
    cases handed
    exact mem_of_find? found
  · rw [result] at handed ⊢
    cases handed
    exact List.mem_cons_self
  · rw [result] at handed
    cases handed

theorem get_eq_of_error (cache : Cache σ δ) {s : σ} {e : BufferError}
    (failed : (Resolvable.resolve s).result = .error e) :
    (cache.get s).1 = cache := by
  rcases cache.get_cases s with ⟨_, _, result⟩ | ⟨_, _, resolved, _⟩ | ⟨_, _, _, result⟩
  · rw [result]
  · cases failed.symm.trans resolved
  · rw [result]

theorem size_reply (cache : Cache σ δ) (c : CacheCall σ) : (cache.call c).2.size = (cache.call c).1.size := by
  cases c <;> rfl

theorem knownSchemas_take_iff {calls : List (CacheCall σ)} {s : σ} {i : Nat} {layout : δ}
    (resolved : (Resolvable.resolve s).result = .ok layout) :
    s ∈ knownSchemas (calls.take i) ↔ AskedBefore calls s i := by
  rw [mem_knownSchemas, get_mem_sinceClear_take_iff, resolved]
  simp [Except.isOk, Except.toBool]

/-- The answers of a new cache to a history of calls. -/
def replies (calls : List (CacheCall σ)) : List (CacheReply δ) :=
  ((Cache.empty : Cache σ δ).run calls).2

theorem reply_call {calls : List (CacheCall σ)} {i : Nat} {c : CacheCall σ} {reply : CacheReply δ}
    (call : calls[i]? = some c) (answer : (replies calls)[i]? = some reply) :
    reply = ((after (calls.take i)).call c).2 :=
  (Option.some.inj ((reply_eq call).symm.trans answer)).symm

theorem events_reply {calls : List (CacheCall σ)} {i : Nat} {s : σ} {reply : CacheReply δ}
    (call : calls[i]? = some (.get s)) (answer : (replies calls)[i]? = some reply) :
    reply.events = if s ∈ knownSchemas (calls.take i) then [.cacheHit]
      else .cacheMiss :: (Resolvable.resolve s).events := by
  rw [reply_call call answer]
  exact (after_remembers _).events_get s

theorem mem_entries_reply {calls : List (CacheCall σ)} {i : Nat} {s : σ} {reply : CacheReply δ}
    {shared : Shared δ} (call : calls[i]? = some (.get s)) (answer : (replies calls)[i]? = some reply)
    (handed : reply.shared = some (.ok shared)) :
    (s, shared) ∈ (after (calls.take (i + 1)) : Cache σ δ).entries := by
  rw [reply_call call answer] at handed
  rw [after_take_succ call]
  exact mem_entries_get (Option.some.inj handed)

/-- Two requests of a history are handed one instance exactly if they ask for one schema and no
clear lies between them. -/
theorem id_eq_iff {calls : List (CacheCall σ)} {i j : Nat} {s t : σ} {first second : CacheReply δ}
    {a b : Shared δ} (before : i < j) (call : calls[i]? = some (.get s)) (later : calls[j]? = some (.get t))
    (answer : (replies calls)[i]? = some first) (laterAnswer : (replies calls)[j]? = some second)
    (handed : first.shared = some (.ok a)) (laterHanded : second.shared = some (.ok b)) :
    a.id = b.id ↔ s = t ∧ ∀ k, i < k → k < j → calls[k]? ≠ some .clear := by
  have held := mem_entries_reply call answer handed
  have laterHeld := mem_entries_reply later laterAnswer laterHanded
  by_cases uncleared : ∀ k, i < k → k < j → calls[k]? ≠ some .clear
  · have kept : (s, a) ∈ (after (calls.take (j + 1)) : Cache σ δ).entries := by
      refine entries_persist (by omega) (fun k lower upper => ?_) held
      rcases Nat.lt_succ_iff_lt_or_eq.mp upper with inside | rfl
      · exact uncleared k lower inside
      · simp [later]
    rw [(after_remembers _).id_eq_iff kept laterHeld]
    exact ⟨fun same => ⟨same, uncleared⟩, fun both => both.1⟩
  · push Not at uncleared
    obtain ⟨k, lower, upper, clears⟩ := uncleared
    have larger := id_lt_of_clear (Nat.succ_le_of_lt lower) (Nat.lt_succ_of_lt upper) clears held laterHeld
    exact ⟨fun same => absurd same larger.ne, fun both => absurd clears (both.2 k lower upper)⟩

/-- The first request for a schema after a clear misses, and no other does before the next clear. -/
theorem existsUnique_miss {calls : List (CacheCall σ)} {s : σ} {layout : δ} {start stop : Nat}
    (resolved : (Resolvable.resolve s).result = .ok layout)
    (opened : start = 0 ∨ calls[start - 1]? = some .clear)
    (uncleared : ∀ k, start ≤ k → k < stop → calls[k]? ≠ some .clear)
    (asked : ∃ i, start ≤ i ∧ i < stop ∧ calls[i]? = some (.get s)) :
    ∃! i, start ≤ i ∧ i < stop ∧ calls[i]? = some (.get s) ∧ s ∉ knownSchemas (calls.take i) := by
  classical
  -- The miss is the first request of the period. Those before the opening clear do not count.
  obtain ⟨lower, upper, call⟩ := Nat.find_spec asked
  have least : ∀ m, start ≤ m → m < Nat.find asked → calls[m]? ≠ some (.get s) := fun m above below again =>
    Nat.find_min asked below ⟨above, below.trans upper, again⟩
  refine ⟨Nat.find asked, ⟨lower, upper, call, ?_⟩, ?_⟩
  · rw [knownSchemas_take_iff resolved]
    intro before
    obtain ⟨m, below, again, quiet⟩ := before
    rcases Nat.lt_or_ge m start with outside | inside
    · rcases opened with rfl | clears
      · omega
      · rcases Nat.lt_or_ge m (start - 1) with further | atClear
        · exact quiet (start - 1) further (by omega) clears
        · rw [show start - 1 = m by omega, again] at clears
          cases clears
    · exact least m inside below again
  · intro i miss
    obtain ⟨above, below, again, unknown⟩ := miss
    rw [knownSchemas_take_iff resolved] at unknown
    rcases Nat.lt_trichotomy i (Nat.find asked) with earlier | same | after
    · exact absurd again (least i above earlier)
    · exact same
    · exact absurd ⟨_, after, call, fun k first last => uncleared k (by omega) (by omega)⟩ unknown

/-- What a history of calls shows of a cache: instances shared and work saved, and no other difference. -/
structure Transparent (calls : List (CacheCall σ)) : Prop where
  /-- Every request is answered with the value, or the error, that its schema resolves to. -/
  answered : ∀ (i : Nat) (s : σ), calls[i]? = some (.get s) →
    ∃ reply answer, (replies calls)[i]? = some reply ∧ reply.shared = some answer ∧
      answer.map (·.layout) = (Resolvable.resolve s).result
  /-- Two requests share one instance exactly if their schemas are equal and no clear lies between. -/
  identified : ∀ (i j : Nat) (s t : σ) (first second : CacheReply δ) (a b : Shared δ), i < j →
    calls[i]? = some (.get s) → calls[j]? = some (.get t) →
    (replies calls)[i]? = some first → (replies calls)[j]? = some second →
    first.shared = some (.ok a) → second.shared = some (.ok b) →
    (a.id = b.id ↔ s = t ∧ ∀ k, i < k → k < j → calls[k]? ≠ some .clear)
  /-- The size is the number of different schemas asked for with success since the last clear. -/
  sized : ∀ (i : Nat),
    (after (calls.take i) : Cache σ δ).size = (knownSchemas (calls.take i)).card ∧
      ((after (calls.take i) : Cache σ δ).isEmpty = true ↔ (knownSchemas (calls.take i)).card = 0) ∧
      ∀ reply : CacheReply δ, (replies calls)[i]? = some reply →
        reply.size = (knownSchemas (calls.take (i + 1))).card
  /-- A hit reports itself and nothing else. A miss reports itself, then what resolving reports. -/
  reported : ∀ (i : Nat) (s : σ) (reply : CacheReply δ), calls[i]? = some (.get s) →
    (replies calls)[i]? = some reply →
    reply.events = if s ∈ knownSchemas (calls.take i) then [.cacheHit]
      else .cacheMiss :: (Resolvable.resolve s).events
  /-- A failing request leaves the cache as it was, and resolves its schema each time anew. -/
  retried : ∀ (i : Nat) (s : σ) (reply : CacheReply δ) (e : BufferError), calls[i]? = some (.get s) →
    (replies calls)[i]? = some reply → (Resolvable.resolve s).result = .error e →
    (after (calls.take (i + 1)) : Cache σ δ) = after (calls.take i) ∧
      reply.events = .cacheMiss :: (Resolvable.resolve s).events
  /-- From one clear to the next a schema that resolves, if asked for, is resolved exactly once. -/
  once : ∀ (s : σ) (layout : δ) (start stop : Nat), (Resolvable.resolve s).result = .ok layout →
    (start = 0 ∨ calls[start - 1]? = some .clear) →
    (∀ k, start ≤ k → k < stop → calls[k]? ≠ some .clear) →
    (∃ i, start ≤ i ∧ i < stop ∧ calls[i]? = some (.get s)) →
    ∃! i, start ≤ i ∧ i < stop ∧ calls[i]? = some (.get s) ∧
      (replies calls)[i]?.map (·.events) = some (.cacheMiss :: (Resolvable.resolve s).events)

/-- A cache answers every history of calls as if it resolved each schema anew. -/
theorem run_transparent (calls : List (CacheCall σ)) :
    Transparent calls ∧ Event.cacheHit.message = "layout cache hit" ∧
      Event.cacheMiss.message = "layout cache miss; finalizing" := by
  refine ⟨?_, rfl, rfl⟩
  constructor
  case answered =>
    intro i s call
    exact ⟨_, _, reply_eq call, rfl, (after_remembers _).result_get s⟩
  case identified =>
    intro i j s t first second a b before call later answer laterAnswer handed laterHanded
    exact id_eq_iff before call later answer laterAnswer handed laterHanded
  case sized =>
    intro i
    have size : (after (calls.take i) : Cache σ δ).size = (knownSchemas (calls.take i)).card :=
      (after_remembers _).size
    refine ⟨size, by rw [Cache.isEmpty, size, beq_iff_eq], ?_⟩
    intro reply answer
    cases call : calls[i]? with
    | none =>
      have bound := (List.getElem?_eq_some_iff.mp answer).1
      rw [replies, length_replies] at bound
      exact absurd (List.getElem?_eq_none_iff.mp call) (Nat.not_le.mpr bound)
    | some c => rw [reply_call call answer, size_reply, ← after_take_succ call, (after_remembers _).size]
  case reported =>
    intro i s reply call answer
    exact events_reply call answer
  case retried =>
    intro i s reply e call answer failed
    refine ⟨?_, ?_⟩
    · rw [after_take_succ call]
      exact get_eq_of_error _ failed
    · rw [events_reply call answer, if_neg]
      intro known
      obtain ⟨layout, resolved⟩ := (after_remembers _).resolves known
      cases failed.symm.trans resolved
  case once =>
    intro s layout start stop resolved opened uncleared asked
    have misses : ∀ i, calls[i]? = some (.get s) →
        ((replies calls)[i]?.map (·.events) = some (.cacheMiss :: (Resolvable.resolve s).events) ↔
          s ∉ knownSchemas (calls.take i)) := by
      intro i call
      have answer : (replies calls)[i]? = some _ := reply_eq call
      rw [answer, Option.map_some, events_reply call answer]
      by_cases known : s ∈ knownSchemas (calls.take i) <;> simp [known]
    obtain ⟨i, ⟨lower, upper, call, unknown⟩, unique⟩ := existsUnique_miss resolved opened uncleared asked
    refine ⟨i, ⟨lower, upper, call, (misses i call).mpr unknown⟩, ?_⟩
    intro j miss
    obtain ⟨above, below, again, missed⟩ := miss
    exact unique j ⟨above, below, again, (misses j again).mp missed⟩

end GpuBuffer.Cache
