import TestIntelligence.Server.RateLimit

/-!
# The size of the rate limit store

A check replaces the bucket of its own key at most; the buckets of other keys stay, expired or
not.
-/

namespace TestIntelligence.Server

open Js

/-- No bucket of the store has a window that has expired. -/
def LiveAt (nowMs : ℚ) (store : RateLimitStore) : Prop :=
  ∀ entry ∈ store, nowMs - entry.2.windowStartedAtMs < rateLimitWindowMs

/-- The distinct keys of the checks within the last window. -/
def keysSeen (nowMs : ℚ) (checks : List CheckInput) : List JsString :=
  setOf ((checks.filter fun input ↦ nowMs - input.nowMs < rateLimitWindowMs).map fun input ↦
    bucketKey input.pair)

namespace RateLimiter

variable {limiter : RateLimiter} {store : RateLimitStore} {before checks : List CheckInput}
  {input : CheckInput}

/-- After the check the store holds live buckets only, no more than keys were seen in the last
window. -/
def Trimmed (limiter : RateLimiter) (before : List CheckInput) (input : CheckInput) : Prop :=
  LiveAt input.nowMs (limiter.storeAfter (before ++ [input])) ∧
    (limiter.storeAfter (before ++ [input])).length ≤
      (keysSeen input.nowMs (before ++ [input])).length

/-- Before the check the buckets of the other keys are live. -/
def OthersLive (limiter : RateLimiter) (before : List CheckInput) (input : CheckInput) : Prop :=
  ∀ entry ∈ limiter.storeAfter before, entry.1 ≠ bucketKey input.pair →
    input.nowMs - entry.2.windowStartedAtMs < rateLimitWindowMs

/-- A check leaves the store, or puts a live bucket under its key: one whose window starts now or
one that started with a bucket of the key. -/
theorem check_store_cases (limiter : RateLimiter) (store : RateLimitStore) (input : CheckInput) :
    (∃ existing, mapGet store (bucketKey input.pair) = some existing ∧
      input.nowMs - existing.windowStartedAtMs < rateLimitWindowMs ∧
      (limiter.check store input).1 = store) ∨
    ∃ bucket, (limiter.check store input).1 = mapSet store (bucketKey input.pair) bucket ∧
      input.nowMs - bucket.windowStartedAtMs < rateLimitWindowMs ∧
      (bucket.windowStartedAtMs = input.nowMs ∨ ∃ existing,
        mapGet store (bucketKey input.pair) = some existing ∧
          bucket.windowStartedAtMs = existing.windowStartedAtMs) := by
  have hfresh : input.nowMs - input.nowMs < rateLimitWindowMs := by norm_num [rateLimitWindowMs]
  rw [check]
  cases hget : mapGet store (bucketKey input.pair) with
  | none => exact .inr ⟨_, rfl, hfresh, .inl rfl⟩
  | some existing =>
      dsimp only
      split
      · exact .inr ⟨_, rfl, hfresh, .inl rfl⟩
      · next hlive =>
          rw [ge_iff_le, not_le] at hlive
          split
          · exact .inl ⟨existing, rfl, hlive, rfl⟩
          · exact .inr ⟨_, rfl, hlive, .inr ⟨existing, rfl, rfl⟩⟩

/-- Every bucket was opened by a check of its key. -/
structure Opened (checks : List CheckInput) (store : RateLimitStore) : Prop where
  nodup : (store.map Prod.fst).Nodup
  opened : ∀ entry ∈ store, ∃ input ∈ checks, bucketKey input.pair = entry.1 ∧
    input.nowMs = entry.2.windowStartedAtMs

theorem Opened.check (h : Opened before store) (limiter : RateLimiter) (input : CheckInput) :
    Opened (before ++ [input]) (limiter.check store input).1 := by
  have hkept : ∀ entry ∈ store, ∃ input' ∈ before ++ [input], bucketKey input'.pair = entry.1 ∧
      input'.nowMs = entry.2.windowStartedAtMs := by
    intro entry hentry
    obtain ⟨input', hmem, hkey⟩ := h.opened entry hentry
    exact ⟨input', List.mem_append_left _ hmem, hkey⟩
  rcases check_store_cases limiter store input with ⟨existing, -, -, heq⟩ | ⟨bucket, heq, -, hstart⟩
  · rw [heq]
    exact ⟨h.nodup, hkept⟩
  · rw [heq]
    refine ⟨by rw [keys_mapSet]; exact nodup_setAdd h.nodup _, fun entry hentry ↦ ?_⟩
    rcases mem_mapSet hentry with rfl | hentry
    · rcases hstart with hnow | ⟨existing, hget, hsame⟩
      · exact ⟨input, by simp, rfl, hnow.symm⟩
      · obtain ⟨input', hmem, hkey, htime⟩ := hkept _ (mem_of_mapGet hget)
        exact ⟨input', hmem, hkey, htime.trans hsame.symm⟩
    · exact hkept entry hentry

theorem opened_storeAfter (limiter : RateLimiter) (checks : List CheckInput) :
    Opened checks (limiter.storeAfter checks) := by
  induction checks using List.reverseRecOn with
  | nil => exact ⟨List.nodup_nil, nofun⟩
  | append_singleton before input ih =>
      rw [storeAfter_append_singleton]
      exact ih.check limiter input

/-- Live buckets are no more than the keys of the last window. -/
theorem length_le_keysSeen (h : Opened checks store) (hlive : LiveAt input.nowMs store) :
    store.length ≤ (keysSeen input.nowMs checks).length := by
  have hsubset : store.map Prod.fst ⊆ keysSeen input.nowMs checks := by
    intro key hkey
    obtain ⟨entry, hentry, rfl⟩ := List.mem_map.mp hkey
    obtain ⟨input', hmem, hkey', htime⟩ := h.opened entry hentry
    have hwithin := hlive entry hentry
    rw [← htime] at hwithin
    rw [keysSeen, mem_setOf]
    exact List.mem_map.mpr ⟨input', by simp [hmem, hwithin], hkey'⟩
  have hlength := (List.subperm_of_subset h.nodup hsubset).length_le
  rwa [List.length_map] at hlength

theorem liveAt_check_iff (h : (store.map Prod.fst).Nodup) :
    LiveAt input.nowMs (limiter.check store input).1 ↔
      ∀ entry ∈ store, entry.1 ≠ bucketKey input.pair →
        input.nowMs - entry.2.windowStartedAtMs < rateLimitWindowMs := by
  constructor
  · intro hlive entry hentry hne
    apply hlive entry
    apply mem_of_mapGet
    rw [mapGet_check_of_ne hne]
    exact mapGet_eq_some_of_mem h hentry
  · intro hothers entry hentry
    rcases check_store_cases limiter store input with
      ⟨existing, hget, hlive, heq⟩ | ⟨bucket, heq, hlive, -⟩
    · rw [heq] at hentry
      by_cases hkey : entry.1 = bucketKey input.pair
      · have hsame := mapGet_eq_some_of_mem h hentry
        rw [hkey, hget] at hsame
        rwa [← Option.some.inj hsame]
      · exact hothers entry hentry hkey
    · rw [heq] at hentry
      by_cases hkey : entry.1 = bucketKey input.pair
      · have hnodup : ((mapSet store (bucketKey input.pair) bucket).map Prod.fst).Nodup := by
          rw [keys_mapSet]
          exact nodup_setAdd h _
        have hsame := mapGet_eq_some_of_mem hnodup hentry
        rw [hkey, mapGet_mapSet, if_pos rfl] at hsame
        rwa [← Option.some.inj hsame]
      · rcases mem_mapSet hentry with rfl | hentry
        · exact absurd rfl hkey
        · exact hothers entry hentry hkey

theorem trimmed_iff (limiter : RateLimiter) (before : List CheckInput) (input : CheckInput) :
    limiter.Trimmed before input ↔ limiter.OthersLive before input := by
  have hopened := opened_storeAfter limiter before
  have hlive := @liveAt_check_iff limiter _ input hopened.nodup
  rw [← storeAfter_append_singleton] at hlive
  rw [Trimmed, OthersLive, ← hlive]
  exact and_iff_left_of_imp (length_le_keysSeen (opened_storeAfter limiter (before ++ [input])))

def loginAt (clientKey : String) (nowMs : ℚ) : CheckInput := ⟨js clientKey, js "login", nowMs⟩

end RateLimiter

end TestIntelligence.Server
