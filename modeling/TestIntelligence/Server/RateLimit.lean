import TestIntelligence.Js.Collections
import TestIntelligence.Js.Number
import TestIntelligence.Js.Text
import TestIntelligence.Systems.Windows

/-!
# The rate limiter of the server

A bucket for each client and route counts the requests that were accepted since its
window started.  Times are milliseconds of the injected clock.
-/

namespace TestIntelligence.Server

open Js Systems

def rateLimitWindowMs : ℚ := 60000

structure RateLimitBucket where
  count : ℕ
  windowStartedAtMs : ℚ
  deriving DecidableEq

abbrev RateLimitStore := List (JsString × RateLimitBucket)

inductive RateLimitDecision
  | allowed (remaining : ℤ) (resetAtMs : ℚ)
  | denied (retryAfterSeconds : ℤ) (resetAtMs : ℚ)
  deriving DecidableEq

def RateLimitDecision.ok : RateLimitDecision → Bool
  | allowed _ _ => true
  | denied _ _ => false

structure CheckInput where
  clientKey : JsString
  routeKey : JsString
  nowMs : ℚ

def CheckInput.pair (input : CheckInput) : JsString × JsString := (input.clientKey, input.routeKey)

/-- A limiter that could be created. -/
structure RateLimiter where
  limit : ℕ
  pos : 1 ≤ limit

theorem one_le_toRat {x : JsNumber} (hx : x.isFinite = true) (h : x.lt 1 = false) :
    1 ≤ x.toRat := by
  rw [JsNumber.one_eq] at h
  cases x with
  | finite d => exact not_lt.mp (of_decide_eq_false h)
  | negZero => simp [JsNumber.lt, JsNumber.toRat] at h
  | nan => cases hx
  | infinity negative => cases hx

/-- The limiter, or nothing where the limit is not a finite number from one on. -/
def createRateLimiter (requestsPerMinute : JsNumber) : Option RateLimiter :=
  if h : requestsPerMinute.isFinite = true ∧ requestsPerMinute.lt 1 = false then
    some
      { limit := ⌊requestsPerMinute.toRat⌋.toNat
        pos := by
          have hfloor : (1 : ℤ) ≤ ⌊requestsPerMinute.toRat⌋ :=
            Int.le_floor.mpr (by exact_mod_cast one_le_toRat h.1 h.2)
          omega }
  else none

def bucketKey (pair : JsString × JsString) : JsString := pair.1 ++ 0 :: pair.2

namespace RateLimiter

variable (limiter : RateLimiter)

def check (store : RateLimitStore) (input : CheckInput) : RateLimitStore × RateLimitDecision :=
  let key := bucketKey input.pair
  let fresh := (mapSet store key ⟨1, input.nowMs⟩,
    RateLimitDecision.allowed (limiter.limit - 1) (input.nowMs + rateLimitWindowMs))
  match mapGet store key with
  | none => fresh
  | some existing =>
      if input.nowMs - existing.windowStartedAtMs ≥ rateLimitWindowMs then fresh
      else
        let resetAtMs := existing.windowStartedAtMs + rateLimitWindowMs
        if existing.count ≥ limiter.limit then
          (store, .denied (max 1 ⌈(resetAtMs - input.nowMs) / 1000⌉) resetAtMs)
        else
          (mapSet store key { existing with count := existing.count + 1 },
            .allowed (max 0 (limiter.limit - (existing.count + 1 : ℕ))) resetAtMs)

/-! ## Runs -/

def storeAfter (checks : List CheckInput) : RateLimitStore :=
  checks.foldl (fun store input ↦ (limiter.check store input).1) []

def decisionAfter (before : List CheckInput) (input : CheckInput) : RateLimitDecision :=
  (limiter.check (limiter.storeAfter before) input).2

/-- The decisions of a run that begins with a store. -/
def decisionsFrom : RateLimitStore → List CheckInput → List (CheckInput × RateLimitDecision)
  | _, [] => []
  | store, input :: inputs =>
      (input, (limiter.check store input).2) :: decisionsFrom (limiter.check store input).1 inputs

/-- The times of the accepted requests of a client on a route. -/
def acceptedTimes (checks : List CheckInput) (pair : JsString × JsString) : List ℚ :=
  ((limiter.decisionsFrom [] checks).filter fun p ↦ p.1.pair = pair ∧ p.2.ok = true).map
    (·.1.nowMs)

end RateLimiter

end TestIntelligence.Server

/-!
## The law of the rate limiter

The bucket of a client on a route holds the start and the size of the window that the
accepted requests of this pair are in, whatever else was checked in between.
-/

namespace TestIntelligence.Server

open Js Systems

def NoNul (input : CheckInput) : Prop := 0 ∉ input.clientKey ∧ 0 ∉ input.routeKey

theorem bucketKey_injective {input input' : CheckInput} (h : NoNul input) (h' : NoNul input')
    (hkey : bucketKey input.pair = bucketKey input'.pair) : input.pair = input'.pair := by
  have hsplit : ∀ {xs ys us vs : JsString}, 0 ∉ xs → 0 ∉ us → xs ++ 0 :: ys = us ++ 0 :: vs →
      xs = us ∧ ys = vs := by
    intro xs ys us vs hxs hus heq
    induction xs generalizing us with
    | nil =>
        cases us with
        | nil => exact ⟨rfl, (List.cons.inj heq).2⟩
        | cons u us => exact (hus ((List.cons.inj heq).1 ▸ List.mem_cons_self)).elim
    | cons x xs ih =>
        cases us with
        | nil => exact (hxs ((List.cons.inj heq).1 ▸ List.mem_cons_self)).elim
        | cons u us =>
            obtain ⟨rfl, htail⟩ := List.cons.inj heq
            obtain ⟨rfl, rfl⟩ := ih (fun hmem ↦ hxs (List.mem_cons_of_mem _ hmem))
              (fun hmem ↦ hus (List.mem_cons_of_mem _ hmem)) htail
            exact ⟨rfl, rfl⟩
  obtain ⟨hclient, hroute⟩ := hsplit h.1 h'.1 hkey
  exact Prod.ext hclient hroute

namespace RateLimiter

variable {limiter : RateLimiter}

theorem storeAfter_append_singleton (before : List CheckInput) (input : CheckInput) :
    limiter.storeAfter (before ++ [input]) =
      (limiter.check (limiter.storeAfter before) input).1 := by
  rw [storeAfter, List.foldl_append, List.foldl_cons, List.foldl_nil, storeAfter]

theorem decisionsFrom_append (store : RateLimitStore) (before after : List CheckInput) :
    limiter.decisionsFrom store (before ++ after) = limiter.decisionsFrom store before ++
      limiter.decisionsFrom (before.foldl (fun s c ↦ (limiter.check s c).1) store) after := by
  induction before generalizing store with
  | nil => rfl
  | cons input before ih => rw [List.cons_append, decisionsFrom, ih, List.foldl_cons,
      decisionsFrom, List.cons_append]

/-- The accepted times with one more check. -/
theorem acceptedTimes_append_singleton (before : List CheckInput) (input : CheckInput)
    (pair : JsString × JsString) :
    limiter.acceptedTimes (before ++ [input]) pair = limiter.acceptedTimes before pair ++
      if input.pair = pair ∧ (limiter.decisionAfter before input).ok = true then [input.nowMs]
      else [] := by
  rw [acceptedTimes, decisionsFrom_append, List.filter_append, List.map_append, ← acceptedTimes]
  congr 1
  change List.map _ (List.filter _ [(input, limiter.decisionAfter before input)]) = _
  rw [List.filter_singleton]
  by_cases h : input.pair = pair ∧ (limiter.decisionAfter before input).ok = true
  · rw [if_pos h, decide_eq_true h]
    rfl
  · rw [if_neg h, decide_eq_false h]
    rfl

/-! ## One check -/

/-- The bucket of a window. -/
def bucketOf (w : Window ℚ) : RateLimitBucket := ⟨w.count, w.start⟩

/-- What a check does with the bucket of a window, and what it decides. -/
structure CheckSpec (limiter : RateLimiter) (current : Option (Window ℚ)) (input : CheckInput)
    (bucket : Option RateLimitBucket) (decision : RateLimitDecision) : Prop where
  bucket : bucket = (if decision.ok then (place rateLimitWindowMs current.toList input.nowMs).head?
    else current).map bucketOf
  allowed : ∀ remaining reset, decision = .allowed remaining reset →
    ∃ w, (place rateLimitWindowMs current.toList input.nowMs).head? = some w ∧
      w.count ≤ limiter.limit ∧ remaining = limiter.limit - w.count
  denied : ∀ retry reset, decision = .denied retry reset → ∃ w, current = some w ∧
    input.nowMs < w.start + rateLimitWindowMs ∧ limiter.limit ≤ w.count ∧
      w.start + rateLimitWindowMs - input.nowMs ≤ 1000 * retry

theorem check_spec {store : RateLimitStore} {input : CheckInput} {current : Option (Window ℚ)}
    (h : mapGet store (bucketKey input.pair) = current.map bucketOf) :
    CheckSpec limiter current input
      (mapGet (limiter.check store input).1 (bucketKey input.pair))
      (limiter.check store input).2 := by
  have hpos := limiter.pos
  have hretry : ∀ x : ℚ, x ≤ 1000 * ((max 1 ⌈x / 1000⌉ : ℤ) : ℚ) := by
    intro x
    have hceil : (⌈x / 1000⌉ : ℚ) ≤ ((max 1 ⌈x / 1000⌉ : ℤ) : ℚ) := by
      exact_mod_cast le_max_right _ _
    have := Int.le_ceil (x / 1000)
    linarith
  rw [check, h]
  cases current with
  | none =>
      refine ⟨by simp [RateLimitDecision.ok, place, bucketOf, Window.count], ?_,
        fun _ _ heq ↦ by cases heq⟩
      intro remaining reset heq
      obtain ⟨rfl, -⟩ := RateLimitDecision.allowed.inj heq
      exact ⟨⟨input.nowMs, []⟩, rfl, hpos, by simp [Window.count]⟩
  | some w =>
      by_cases hexpired : input.nowMs - w.start ≥ rateLimitWindowMs
      · have hout : ¬ input.nowMs < w.start + rateLimitWindowMs := by linarith
        have hplace : place rateLimitWindowMs [w] input.nowMs = [⟨input.nowMs, []⟩, w] := by
          rw [place, if_neg hout]
        simp only [Option.map_some, bucketOf, hexpired, if_true]
        refine ⟨by simp [RateLimitDecision.ok, hplace, bucketOf, Window.count], ?_,
          fun _ _ heq ↦ by cases heq⟩
        intro remaining reset heq
        obtain ⟨rfl, -⟩ := RateLimitDecision.allowed.inj heq
        exact ⟨⟨input.nowMs, []⟩, by simp [hplace], hpos, by simp [Window.count]⟩
      · have hin : input.nowMs < w.start + rateLimitWindowMs := by linarith
        have hplace : place rateLimitWindowMs [w] input.nowMs =
            [⟨w.start, w.later ++ [input.nowMs]⟩] := by
          rw [place, if_pos hin]
        simp only [Option.map_some, bucketOf, hexpired, if_false]
        by_cases hfull : w.count ≥ limiter.limit
        · simp only [hfull, if_true]
          refine ⟨by simp [RateLimitDecision.ok, h, bucketOf], fun _ _ heq ↦ (by cases heq), ?_⟩
          intro retry reset heq
          obtain ⟨rfl, -⟩ := RateLimitDecision.denied.inj heq
          exact ⟨w, rfl, hin, hfull, hretry _⟩
        · simp only [hfull, if_false]
          have hcount : (Window.mk w.start (w.later ++ [input.nowMs])).count = w.count + 1 := by
            simp [Window.count]
          refine ⟨by simp [RateLimitDecision.ok, hplace, bucketOf, Window.count], ?_,
          fun _ _ heq ↦ by cases heq⟩
          intro remaining reset heq
          obtain ⟨rfl, -⟩ := RateLimitDecision.allowed.inj heq
          refine ⟨⟨w.start, w.later ++ [input.nowMs]⟩, by simp [hplace], ?_, ?_⟩
          · rw [hcount]
            omega
          · rw [hcount]
            omega

theorem mapGet_check_of_ne {store : RateLimitStore} {input : CheckInput} {key : JsString}
    (hkey : key ≠ bucketKey input.pair) :
    mapGet (limiter.check store input).1 key = mapGet store key := by
  rw [check]
  cases mapGet store (bucketKey input.pair) with
  | none => exact (mapGet_mapSet _ _ _ _).trans (if_neg hkey)
  | some existing =>
      dsimp only
      split
      · exact (mapGet_mapSet _ _ _ _).trans (if_neg hkey)
      · split
        · rfl
        · exact (mapGet_mapSet _ _ _ _).trans (if_neg hkey)

/-! ## All checks of a run -/

/-- The store and the accepted times agree on a pair. -/
structure Tracks (limiter : RateLimiter) (checks : List CheckInput)
    (pair : JsString × JsString) : Prop where
  bucket : mapGet (limiter.storeAfter checks) (bucketKey pair) =
    (currentWindow rateLimitWindowMs (limiter.acceptedTimes checks pair)).map bucketOf
  small : ∀ w ∈ windowsOf rateLimitWindowMs (limiter.acceptedTimes checks pair),
    w.count ≤ limiter.limit

theorem head?_place (ws : List (Window ℚ)) (t : ℚ) :
    (place rateLimitWindowMs ws t).head? =
      (place rateLimitWindowMs ws.head?.toList t).head? := by
  cases ws with
  | nil => rfl
  | cons w ws =>
      simp only [List.head?_cons, Option.toList_some, place]
      split <;> rfl

theorem mem_tail_place {ws : List (Window ℚ)} {t : ℚ} {w : Window ℚ}
    (h : w ∈ place rateLimitWindowMs ws t) :
    (place rateLimitWindowMs ws t).head? = some w ∨ w ∈ ws := by
  cases ws with
  | nil =>
      rw [List.mem_singleton.mp h]
      exact .inl rfl
  | cons w' ws =>
      rw [place] at h ⊢
      split at h
      · next hin =>
          rw [if_pos hin]
          rcases List.mem_cons.mp h with rfl | h
          · exact .inl rfl
          · exact .inr (List.mem_cons_of_mem _ h)
      · next hin =>
          rw [if_neg hin]
          rcases List.mem_cons.mp h with rfl | h
          · exact .inl rfl
          · exact .inr h

/-- What a check decides about its pair, from the accepted times before it. -/
theorem Tracks.spec {before : List CheckInput} {input : CheckInput}
    (h : Tracks limiter before input.pair) :
    CheckSpec limiter (currentWindow rateLimitWindowMs (limiter.acceptedTimes before input.pair))
      input (mapGet (limiter.storeAfter (before ++ [input])) (bucketKey input.pair))
      (limiter.decisionAfter before input) := by
  rw [storeAfter_append_singleton]
  exact check_spec h.bucket

theorem windowsOf_acceptedTimes_append {before : List CheckInput} {input : CheckInput}
    (hok : (limiter.decisionAfter before input).ok = true) :
    windowsOf rateLimitWindowMs (limiter.acceptedTimes (before ++ [input]) input.pair) =
      place rateLimitWindowMs
        (windowsOf rateLimitWindowMs (limiter.acceptedTimes before input.pair)) input.nowMs := by
  rw [acceptedTimes_append_singleton, if_pos ⟨rfl, hok⟩, windowsOf_append_singleton]

theorem tracks_append_singleton {before : List CheckInput} {input : CheckInput}
    {pair : JsString × JsString} (hkey : bucketKey pair = bucketKey input.pair → pair = input.pair)
    (h : Tracks limiter before pair) : Tracks limiter (before ++ [input]) pair := by
  by_cases hpair : pair = input.pair
  · subst hpair
    have hspec := h.spec
    cases hdecision : limiter.decisionAfter before input with
    | denied retry reset =>
        have haccepted : limiter.acceptedTimes (before ++ [input]) input.pair =
            limiter.acceptedTimes before input.pair := by
          rw [acceptedTimes_append_singleton, hdecision, if_neg (by simp [RateLimitDecision.ok]),
            List.append_nil]
        have hbucket := hspec.bucket
        rw [hdecision] at hbucket
        exact ⟨by rw [haccepted]; exact hbucket, by rw [haccepted]; exact h.small⟩
    | allowed remaining reset =>
        have hok : (limiter.decisionAfter before input).ok = true := by rw [hdecision]; rfl
        have hwindows := windowsOf_acceptedTimes_append hok
        have hbucket := hspec.bucket
        rw [if_pos hok, currentWindow, ← head?_place, ← hwindows] at hbucket
        obtain ⟨w, hw, hsmall, -⟩ := hspec.allowed remaining reset hdecision
        rw [currentWindow, ← head?_place] at hw
        refine ⟨hbucket, fun w' hw' ↦ ?_⟩
        rw [hwindows] at hw'
        rcases mem_tail_place hw' with hhead | hold
        · obtain rfl := Option.some.inj (hw.symm.trans hhead)
          exact hsmall
        · exact h.small w' hold
  · have hother : ¬ (input.pair = pair ∧ (limiter.decisionAfter before input).ok = true) :=
      fun h ↦ hpair h.1.symm
    have haccepted : limiter.acceptedTimes (before ++ [input]) pair =
        limiter.acceptedTimes before pair := by
      rw [acceptedTimes_append_singleton, if_neg hother, List.append_nil]
    refine ⟨?_, by rw [haccepted]; exact h.small⟩
    rw [storeAfter_append_singleton, mapGet_check_of_ne fun h ↦ hpair (hkey h), haccepted]
    exact h.bucket

/-- Whatever is checked, the bucket of a pair is that of its accepted requests. -/
theorem tracks {checks : List CheckInput} {pair : JsString × JsString}
    (hkeys : ∀ input ∈ checks, bucketKey pair = bucketKey input.pair → pair = input.pair) :
    Tracks limiter checks pair := by
  induction checks using List.reverseRecOn with
  | nil => exact ⟨rfl, nofun⟩
  | append_singleton before input ih =>
      apply tracks_append_singleton (hkeys input (by simp))
      exact ih fun input' hinput' ↦ hkeys input' (List.mem_append_left _ hinput')

/-! ## Other pairs -/

theorem check_congr {store store' : RateLimitStore} {input : CheckInput}
    (h : mapGet store (bucketKey input.pair) = mapGet store' (bucketKey input.pair)) :
    (limiter.check store input).2 = (limiter.check store' input).2 ∧
      mapGet (limiter.check store input).1 (bucketKey input.pair) =
        mapGet (limiter.check store' input).1 (bucketKey input.pair) := by
  rw [check, check, ← h]
  cases hbucket : mapGet store (bucketKey input.pair) with
  | none => simp
  | some existing =>
      rw [hbucket] at h
      dsimp only
      split
      · simp
      · split
        · exact ⟨rfl, hbucket.trans h⟩
        · simp

/-- The bucket of a pair is that of a run with its own checks alone. -/
theorem mapGet_storeAfter_filter {checks : List CheckInput} {pair : JsString × JsString}
    (hkeys : ∀ input ∈ checks, bucketKey pair = bucketKey input.pair → pair = input.pair) :
    mapGet (limiter.storeAfter checks) (bucketKey pair) =
      mapGet (limiter.storeAfter (checks.filter fun input ↦ input.pair = pair))
        (bucketKey pair) := by
  induction checks using List.reverseRecOn with
  | nil => rfl
  | append_singleton before input ih =>
      have ih := ih fun input' hinput' ↦ hkeys input' (List.mem_append_left _ hinput')
      have hkey := hkeys input (by simp)
      rw [List.filter_append, storeAfter_append_singleton]
      by_cases hpair : input.pair = pair
      · subst hpair
        rw [List.filter_singleton, decide_eq_true rfl, cond_true, storeAfter_append_singleton]
        exact (check_congr ih).2
      · rw [List.filter_singleton, decide_eq_false hpair, cond_false, List.append_nil, ← ih]
        exact mapGet_check_of_ne fun h ↦ hpair (hkey h).symm

theorem acceptedTimes_append_of_ne {before middle : List CheckInput} {pair : JsString × JsString}
    (h : ∀ input ∈ middle, input.pair ≠ pair) :
    limiter.acceptedTimes (before ++ middle) pair = limiter.acceptedTimes before pair := by
  induction middle using List.reverseRecOn with
  | nil => rw [List.append_nil]
  | append_singleton middle input ih =>
      have hother : ¬ (input.pair = pair ∧
          (limiter.decisionAfter (before ++ middle) input).ok = true) :=
        fun h' ↦ h input (by simp) h'.1
      rw [← List.append_assoc, acceptedTimes_append_singleton, if_neg hother, List.append_nil]
      exact ih fun input' hinput' ↦ h input' (List.mem_append_left _ hinput')

/-! ## The law -/

/-- The window of a client on a route after some checks. -/
def windowAfter (limiter : RateLimiter) (checks : List CheckInput) (pair : JsString × JsString) :
    Option (Window ℚ) :=
  currentWindow rateLimitWindowMs (limiter.acceptedTimes checks pair)

structure RateLimitLaw (limiter : RateLimiter) (limit : ℤ) (checks : List CheckInput) : Prop where
  independent : ∀ before input after, checks = before ++ input :: after →
    limiter.decisionAfter before input =
      limiter.decisionAfter (before.filter fun other ↦ other.pair = input.pair) input
  windows : ∀ pair ∈ checks.map (·.pair), ∃ windows : List (Window ℚ),
    windows.flatMap Window.times = limiter.acceptedTimes checks pair ∧
      ∀ w ∈ windows, w.count ≤ limit ∧
        ∀ t ∈ w.times, w.start ≤ t ∧ t < w.start + rateLimitWindowMs
  denied : ∀ before input after retry reset, checks = before ++ input :: after →
    limiter.decisionAfter before input = .denied retry reset →
      ∃ w, windowAfter limiter before input.pair = some w ∧
        input.nowMs < w.start + rateLimitWindowMs ∧ w.count = limit
  remaining : ∀ before input after remaining reset, checks = before ++ input :: after →
    limiter.decisionAfter before input = .allowed remaining reset →
      ∃ w, windowAfter limiter (before ++ [input]) input.pair = some w ∧
        0 ≤ remaining ∧ remaining = limit - w.count
  retried : ∀ before input middle next after retry reset,
    checks = before ++ input :: (middle ++ next :: after) → next.pair = input.pair →
    (∀ other ∈ middle, other.pair ≠ input.pair) →
    limiter.decisionAfter before input = .denied retry reset →
    input.nowMs + 1000 * retry ≤ next.nowMs →
      (limiter.decisionAfter (before ++ input :: middle) next).ok = true

theorem acceptedTimes_sublist (checks : List CheckInput) (pair : JsString × JsString) :
    (limiter.acceptedTimes checks pair).Sublist (checks.map (·.nowMs)) := by
  have hinputs : ∀ store, (limiter.decisionsFrom store checks).map (·.1) = checks := by
    induction checks with
    | nil => exact fun _ ↦ rfl
    | cons input checks ih =>
        intro store
        rw [decisionsFrom, List.map_cons, ih]
  have hsub := (List.filter_sublist (p := fun p : CheckInput × RateLimitDecision ↦
    decide (p.1.pair = pair ∧ p.2.ok = true)) (l := limiter.decisionsFrom [] checks)).map
      (·.1.nowMs)
  have hall : (limiter.decisionsFrom [] checks).map (·.1.nowMs) = checks.map (·.nowMs) := by
    conv_rhs => rw [← hinputs [], List.map_map]
    rfl
  rwa [hall] at hsub

end RateLimiter

open RateLimiter

theorem limit_of_createRateLimiter {requestsPerMinute : JsNumber} {limiter : RateLimiter}
    (h : createRateLimiter requestsPerMinute = some limiter) :
    (limiter.limit : ℤ) = ⌊requestsPerMinute.toRat⌋ := by
  rw [createRateLimiter] at h
  split at h
  · next hvalid =>
      obtain rfl := Option.some.inj h
      have hfloor : (1 : ℤ) ≤ ⌊requestsPerMinute.toRat⌋ :=
        Int.le_floor.mpr (by exact_mod_cast one_le_toRat hvalid.1 hvalid.2)
      exact Int.toNat_of_nonneg (by omega)
  · cases h

/-- The second request is denied and the third one is in the next window. -/
def threeChecks : List CheckInput :=
  [⟨js "127.0.0.1", js "/jobs", 0⟩, ⟨js "127.0.0.1", js "/jobs", 500⟩,
    ⟨js "127.0.0.1", js "/jobs", 60500⟩]

end TestIntelligence.Server
