import TestIntelligence.ModelGateway.IdempotencyCache
import TestIntelligence.Systems.Runs

/-!
# Hits of the idempotency cache

Runs of lookups and stores on one cache.  Next to the cache a run keeps the
list of its stores.  A result enters the map from a store or from a file; the
invariant says that either way it is the result of the latest store for its
key, as long as a lookup falls back to a file only while the map has room and
the latest store reached the disk.
-/

namespace TestIntelligence.ModelGateway.Idempotency

open Js Security Systems

/-! ## What a file keeps of a result -/

/-- The number that a JSON text keeps, if it keeps one. -/
def keptNumber (x : JsNumber) : Option JsNumber := if x.isFinite then some x.unsigned else none

/-- The result as it comes back from canonical JSON: members are in canonical order, and what
JSON does not print is gone. -/
def LlmGenerationSuccess.jsonCopy (result : LlmGenerationSuccess) : LlmGenerationSuccess :=
  { result with
    content := result.content.map fun v ↦ sortValue v.printed
    usage := ⟨result.usage.inputTokens.bind keptNumber, result.usage.outputTokens.bind keptNumber⟩
    attempt := result.attempt.unsigned }

theorem sortValue_printed_number (x : JsNumber) :
    sortValue (Json.num x).printed = ((keptNumber x).map Json.num).getD .null := by
  rw [Json.printed, keptNumber]
  split <;> rfl

section Reading

variable {members : List (JsString × Json)} {name : String}

theorem stringMember_of_get {s : JsString} (h : mapGet members (js name) = some (.str s)) :
    stringMember (.obj members) name = some s := by
  simp [stringMember, member, h]

/-- Reading back a number, present or not. -/
theorem numberMember_of_get {x : Option JsNumber}
    (h : mapGet members (js name) = (x.map Json.num).map fun v ↦ sortValue v.printed) :
    numberMember (.obj members) name = x.bind keptNumber := by
  rw [numberMember, member, h]
  cases x with
  | none => rfl
  | some x =>
      rw [Option.map_some, Option.map_some, sortValue_printed_number, Option.bind_some]
      cases keptNumber x with
      | none => rfl
      | some y => rfl

end Reading

theorem parseKey_members {key k : GatewayIdempotencyKey} {members : List (JsString × Json)}
    (hget : ∀ field ∈ key.fields,
      mapGet members field.1 = field.2.map fun v ↦ sortValue v.printed)
    (h : parseKey (.obj members) = some k) : k.hmac = key.hmac := by
  simp only [GatewayIdempotencyKey.fields, List.forall_mem_cons, List.not_mem_nil, false_imp_iff,
    implies_true, and_true, Option.map_some, sortValue_printed_str] at hget
  obtain ⟨-, -, -, -, -, -, -, hhmac⟩ := hget
  simp only [parseKey, stringMember_of_get hhmac, Option.bind_eq_bind, Option.bind_some,
    Option.bind_eq_some_iff, Option.pure_def, Option.some.injEq] at h
  obtain ⟨-, -, -, -, -, -, -, -, -, -, -, -, -, -, -, -, -, -, rfl⟩ := h
  rfl

theorem usage_members (usage : LlmUsage) :
    ∃ members, sortValue (Json.obj (presentMembers usage.fields)).printed = .obj members ∧
      numberMember (.obj members) "inputTokens" = usage.inputTokens.bind keptNumber ∧
      numberMember (.obj members) "outputTokens" = usage.outputTokens.bind keptNumber := by
  have hkeys : usage.fields.map Prod.fst = [js "inputTokens", js "outputTokens"] := rfl
  obtain ⟨members, heq, hget⟩ := exists_members_of_record usage.fields
    (by rw [hkeys]; decide) (by rw [hkeys]; decide)
  simp only [LlmUsage.fields, List.forall_mem_cons, List.not_mem_nil, false_imp_iff,
    implies_true, and_true] at hget
  exact ⟨members, heq, numberMember_of_get hget.1, numberMember_of_get hget.2⟩

theorem find?_finishReason (reason : LlmFinishReason) :
    allowedFinishReasons.find? (·.text = reason.text) = some reason := by
  cases reason <;> decide

theorem keys_success_fields (result : LlmGenerationSuccess) :
    result.fields.map Prod.fst = ["outcome", "content", "rawTextContent", "constrainedDecoding",
      "finishReason", "usage", "modelDeployment", "modelRevision", "gatewayRelease",
      "attempt"].map js := rfl

theorem parseSuccess_members {result r : LlmGenerationSuccess}
    (hraw : result.rawTextContent = none) (hdecoding : result.constrainedDecoding = none)
    {members : List (JsString × Json)}
    (hget : ∀ field ∈ result.fields,
      mapGet members field.1 = field.2.map fun v ↦ sortValue v.printed)
    (h : parseSuccess (.obj members) = some r) : r = result.jsonCopy := by
  obtain ⟨usage, husage, hinput, houtput⟩ := usage_members result.usage
  simp only [LlmGenerationSuccess.fields, List.forall_mem_cons, List.not_mem_nil, false_imp_iff,
    implies_true, and_true, Option.map_some, sortValue_printed_str, husage] at hget
  obtain ⟨houtcome, hcontent, -, -, hreason, husage', hdeployment, hrevision, hrelease, hattempt⟩ :=
    hget
  have hattempt' : numberMember (.obj members) "attempt" = keptNumber result.attempt :=
    numberMember_of_get (x := some result.attempt) hattempt
  simp only [parseSuccess, isObject, stringMember_of_get houtcome, stringMember_of_get hdeployment,
    stringMember_of_get hrevision, stringMember_of_get hrelease, stringMember_of_get hreason,
    member, husage', hcontent, hattempt', hinput, houtput, find?_finishReason, Option.bind_eq_bind,
    Option.bind_some, Option.bind_eq_some_iff, Option.pure_def, Option.some.injEq] at h
  obtain ⟨-, -, -, -, attempt, hkept, -, -, -, -, rfl⟩ := h
  rw [keptNumber] at hkept
  split at hkept
  · obtain rfl := Option.some.inj hkept
    cases result
    simp only at hraw hdecoding
    subst hraw hdecoding
    rfl
  · cases hkept

theorem keys_entry_fields (entry : MemoryEntry) :
    entry.fields.map Prod.fst = ["schemaVersion", "storedAtMs", "key", "result"].map js := rfl

theorem keys_key_fields (key : GatewayIdempotencyKey) :
    key.fields.map Prod.fst = ["schemaVersion", "jobId", "roleStepId", "attempt", "promptVersion",
      "schemaHash", "inputHash", "hmac"].map js := rfl

theorem ordered_entry {entry : MemoryEntry}
    (hcontent : ∀ v ∈ entry.result.content, v.Ordered)
    (hdecoding : entry.result.constrainedDecoding = none) :
    (Json.obj (presentMembers entry.fields)).Ordered := by
  apply ordered_presentMembers
  · rw [Enumerated, keys_entry_fields]
    decide
  · simp only [MemoryEntry.fields, List.forall_mem_cons, List.not_mem_nil, false_imp_iff,
      implies_true, and_true, Option.mem_def, Option.some.injEq, forall_eq']
    refine ⟨trivial, trivial, ?_, ?_⟩
    · apply ordered_presentMembers
      · rw [Enumerated, keys_key_fields]
        decide
      · simp [GatewayIdempotencyKey.fields, Json.Ordered, Json.All]
    · apply ordered_presentMembers
      · rw [Enumerated, keys_success_fields]
        decide
      · have husage : (Json.obj (presentMembers entry.result.usage.fields)).Ordered := by
          apply ordered_presentMembers
          · rw [Enumerated]
            exact (show [js "inputTokens", js "outputTokens"].Nodup ∧
              [js "inputTokens", js "outputTokens"].Pairwise (keyBefore · · = true) by
                decide)
          · simp [LlmUsage.fields, Json.Ordered, Json.All]
        simp only [LlmGenerationSuccess.fields, List.forall_mem_cons, List.not_mem_nil,
          false_imp_iff, implies_true, and_true, Option.mem_def, Option.some.injEq, forall_eq',
          hdecoding]
        refine ⟨trivial, hcontent, ?_, fun _ h ↦ (by cases h), trivial, husage, trivial, trivial,
          trivial, trivial⟩
        simp [Json.Ordered, Json.All]

/-- What `parseDiskEntry` makes of a file that `persistDiskEntry` wrote. -/
theorem parseDiskEntry_serialise {entry e : MemoryEntry} {key : GatewayIdempotencyKey}
    (hcontent : ∀ v ∈ entry.result.content, v.Ordered)
    (hraw : entry.result.rawTextContent = none)
    (hdecoding : entry.result.constrainedDecoding = none)
    (h : parseDiskEntry (serialiseDiskEntry entry) key = .ok (some e)) :
    e.result = entry.result.jsonCopy ∧ e.storedAtMs = entry.storedAtMs.unsigned ∧
      e.key.hmac = entry.key.hmac := by
  obtain ⟨members, heq, hget⟩ := exists_members_of_record entry.fields
    (by rw [keys_entry_fields]; decide) (by rw [keys_entry_fields]; decide)
  have hparse := parse_canonicalJson_of_ordered (ordered_entry hcontent hdecoding)
  obtain ⟨keyMembers, hkeyEq, hkeyGet⟩ := exists_members_of_record entry.key.fields
    (by rw [keys_key_fields]; decide)
    (by rw [keys_key_fields]; decide)
  obtain ⟨resultMembers, hresultEq, hresultGet⟩ := exists_members_of_record
    entry.result.fields (by rw [keys_success_fields]; decide)
    (by rw [keys_success_fields]; decide)
  simp only [MemoryEntry.fields, List.forall_mem_cons, List.not_mem_nil, false_imp_iff,
    implies_true, and_true, Option.map_some, sortValue_printed_str, hkeyEq, hresultEq] at hget
  obtain ⟨hversion, hstored, hkey, hresult⟩ := hget
  have hstored' : numberMember (.obj members) "storedAtMs" = keptNumber entry.storedAtMs :=
    numberMember_of_get (x := some entry.storedAtMs) hstored
  rw [parseDiskEntry, serialiseDiskEntry] at h
  split at h
  · cases h
  · next storedAtMs k result henvelope =>
      simp only [parseEnvelope, hparse, heq, isObject, stringMember_of_get hversion, hstored',
        member, hkey, hresult, Option.bind_eq_bind, Option.bind_some, Option.bind_eq_some_iff,
        Option.pure_def, Option.some.injEq, Prod.mk.injEq] at henvelope
      obtain ⟨-, -, -, -, stored, hkept, -, -, k', hk, rfl, rfl, rfl⟩ := henvelope
      split at h
      · cases h
      · cases h
      · obtain ⟨r, hr, rfl⟩ := Option.map_eq_some_iff.mp (Except.ok.inj h)
        refine ⟨parseSuccess_members hraw hdecoding hresultGet hr, ?_, parseKey_members hkeyGet hk⟩
        rw [keptNumber] at hkept
        split at hkept
        · exact (Option.some.inj hkept).symm
        · cases hkept

/-! ## Runs -/

inductive Operation where
  | lookup (inputs : GatewayIdempotencyInputs) (nowMs : JsNumber) (readable : Bool)
  | store (inputs : GatewayIdempotencyInputs) (result : LlmGenerationSuccess) (nowMs : JsNumber)
      (writable : Bool)

def Operation.inputs : Operation → GatewayIdempotencyInputs
  | .lookup inputs _ _ => inputs
  | .store inputs _ _ _ => inputs

def Operation.nowMs : Operation → JsNumber
  | .lookup _ nowMs _ => nowMs
  | .store _ _ nowMs _ => nowMs

/-- The stored content is a JavaScript value: the keys of its objects are distinct and in
enumeration order. -/
def Operation.Plain : Operation → Prop
  | .lookup _ _ _ => True
  | .store _ result _ _ => ∀ v ∈ result.content, v.Ordered

structure StoreRecord where
  inputs : GatewayIdempotencyInputs
  result : LlmGenerationSuccess
  nowMs : JsNumber
  persisted : Bool

structure Trace where
  state : CacheState
  stores : List StoreRecord

def Trace.start : Trace := ⟨⟨[], ⟨0, 0, 0, 0, 0, 0, 0, 0, 0⟩, []⟩, []⟩

/-- The latest of the listed stores that satisfies `p`. -/
def latestWhere (p : StoreRecord → Bool) (stores : List StoreRecord) : Option StoreRecord :=
  (stores.filter p).getLast?

def latestStore (inputs : GatewayIdempotencyInputs) : List StoreRecord → Option StoreRecord :=
  latestWhere (·.inputs = inputs)

/-- The entry that a lookup takes over from the disk, if it does. -/
def rehydrated (cache : LlmGatewayIdempotencyCache) (st : CacheState)
    (key : GatewayIdempotencyKey) (nowMs : JsNumber) (readable : Bool) : Option MemoryEntry :=
  if (mapGet st.memory key.hmac).any fun entry ↦ cache.isFresh entry.storedAtMs nowMs then none
  else
    match (tryDiskRead cache st key readable).2 with
    | .ok (some entry) => if cache.isFresh entry.storedAtMs nowMs then some entry else none
    | _ => none

section Model

variable (hmacSha256 : JsString → JsString → JsString) (cache : LlmGatewayIdempotencyCache)

def Trace.step (trace : Trace) : Operation → Trace
  | .lookup inputs nowMs readable =>
      { trace with state := (lookup hmacSha256 cache trace.state inputs nowMs readable).1 }
  | .store inputs result nowMs writable =>
      match computeKey hmacSha256 cache inputs with
      | .error _ => trace
      | .ok key =>
          { state := (store cache trace.state key result nowMs writable).1
            stores := trace.stores ++ [⟨inputs, result, nowMs, writable⟩] }

/-- A lookup falls back to a file only while the map has room for one more entry, and only when
the latest store for its inputs reached the disk. -/
def Trace.fallbackSafe (trace : Trace) : Operation → Bool
  | .lookup inputs nowMs readable =>
      match computeKey hmacSha256 cache inputs with
      | .error _ => true
      | .ok key =>
          (rehydrated cache trace.state key nowMs readable).isNone ||
            (!atLeast (mapDelete trace.state.memory key.hmac).length cache.maxEntries &&
              (latestStore inputs trace.stores).any (·.persisted))
  | .store _ _ _ _ => true

/-- The HMAC tells the payloads of the listed inputs apart. -/
def CollisionFree (known : List GatewayIdempotencyInputs) : Prop :=
  ∀ inputs ∈ known, ∀ inputs' ∈ known, ∀ secret, resolveSecret cache.hmacSecret = .ok secret →
    hmacSha256 secret inputs.payload = hmacSha256 secret inputs'.payload →
      inputs.payload = inputs'.payload

/-- The HMAC of acceptable inputs. -/
def hmacOf (inputs : GatewayIdempotencyInputs) : Option JsString :=
  match computeKey hmacSha256 cache inputs with
  | .ok key => some key.hmac
  | .error _ => none

end Model

/-! ## Keys tell inputs apart -/

section Keys

variable {hmacSha256 : JsString → JsString → JsString} {cache : LlmGatewayIdempotencyCache}

theorem computeKey_ok {inputs : GatewayIdempotencyInputs} {key : GatewayIdempotencyKey}
    (h : computeKey hmacSha256 cache inputs = .ok key) :
    validateInputs inputs = .ok () ∧ ∃ secret, resolveSecret cache.hmacSecret = .ok secret ∧
      key.hmac = hmacSha256 secret inputs.payload := by
  obtain ⟨_, hvalid, h⟩ := bind_eq_ok h
  obtain ⟨hmac, hhmac, h⟩ := bind_eq_ok h
  obtain ⟨secret, hsecret, hhmac⟩ := bind_eq_ok hhmac
  split at hhmac
  · cases hhmac
  · cases hhmac
    cases h
    exact ⟨hvalid, secret, hsecret, rfl⟩

theorem attempt_of_validateInputs {inputs : GatewayIdempotencyInputs}
    (h : validateInputs inputs = .ok ()) :
    inputs.attempt.isInteger = true ∧ inputs.attempt.unsigned = inputs.attempt := by
  obtain ⟨_, -, h⟩ := bind_eq_ok h
  obtain ⟨_, -, h⟩ := bind_eq_ok h
  obtain ⟨_, -, h⟩ := bind_eq_ok h
  obtain ⟨_, -, h⟩ := bind_eq_ok h
  obtain ⟨_, -, h⟩ := bind_eq_ok h
  split at h
  · cases h
  · next hattempt =>
      simp only [Bool.or_eq_true, Bool.not_eq_true', not_or, Bool.not_eq_true,
        Bool.not_eq_false] at hattempt
      refine ⟨hattempt.1, ?_⟩
      cases hx : inputs.attempt with
      | negZero =>
          rw [hx] at hattempt
          exact absurd hattempt.2 (by decide +kernel)
      | _ => rfl

/-- Acceptable inputs with one payload are the same inputs. -/
theorem inputs_eq_of_payload_eq {inputs inputs' : GatewayIdempotencyInputs}
    (h : validateInputs inputs = .ok ()) (h' : validateInputs inputs' = .ok ())
    (heq : inputs.payload = inputs'.payload) : inputs = inputs' := by
  obtain ⟨hinteger, hunsigned⟩ := attempt_of_validateInputs h
  obtain ⟨hinteger', hunsigned'⟩ := attempt_of_validateInputs h'
  have hkeys : ∀ inputs : GatewayIdempotencyInputs, inputs.fields.map Prod.fst = ["attempt",
      "inputHash", "jobId", "promptVersion", "roleStepId", "schemaHash"].map js := fun _ ↦ rfl
  have hordered : ∀ inputs : GatewayIdempotencyInputs,
      ∀ field ∈ inputs.fields, ∀ v ∈ field.2, v.Ordered := by
    simp [GatewayIdempotencyInputs.fields, Json.Ordered, Json.All]
  have hfields := fields_eq_of_canonicalJson_eq ((hkeys inputs).trans (hkeys inputs').symm)
    (by rw [Enumerated, hkeys]; decide) (by rw [hkeys]; decide) (hordered inputs)
    (hordered inputs') heq
  simp only [GatewayIdempotencyInputs.fields, List.map_cons, List.map_nil, Option.map_some,
    sortValue_printed_str, sortValue_printed_num (JsNumber.isFinite_of_isInteger hinteger),
    sortValue_printed_num (JsNumber.isFinite_of_isInteger hinteger'), hunsigned, hunsigned',
    List.cons.injEq, Option.some.injEq, Json.num.injEq, Json.str.injEq, and_true] at hfields
  obtain ⟨hattempt, hhash, hjob, hprompt, hrole, hschema⟩ := hfields
  cases inputs
  cases inputs'
  simp_all

theorem inputs_eq_of_hmacOf_eq {known : List GatewayIdempotencyInputs}
    (hfree : CollisionFree hmacSha256 cache known) {inputs inputs' : GatewayIdempotencyInputs}
    (hin : inputs ∈ known) (hin' : inputs' ∈ known) {hmac : JsString}
    (h : hmacOf hmacSha256 cache inputs = some hmac)
    (h' : hmacOf hmacSha256 cache inputs' = some hmac) : inputs = inputs' := by
  rw [hmacOf] at h h'
  split at h
  · next key hkey =>
      split at h'
      · next key' hkey' =>
          obtain ⟨hvalid, secret, hsecret, hhmac⟩ := computeKey_ok hkey
          obtain ⟨hvalid', secret', hsecret', hhmac'⟩ := computeKey_ok hkey'
          obtain rfl : secret' = secret := Except.ok.inj (hsecret'.symm.trans hsecret)
          apply inputs_eq_of_payload_eq hvalid hvalid'
          apply hfree inputs hin inputs' hin' secret' hsecret
          rw [← hhmac, ← hhmac']
          exact Option.some.inj (h.trans h'.symm)
      · cases h'
  · cases h

end Keys

/-! ## What an operation does -/

theorem hmacMatches_self (a : JsString) : hmacMatches a a = .ok true := by
  simp [hmacMatches]

theorem tryDiskRead_frame (cache : LlmGatewayIdempotencyCache) (st : CacheState)
    (key : GatewayIdempotencyKey) (readable : Bool) :
    (tryDiskRead cache st key readable).1.memory = st.memory ∧
      (tryDiskRead cache st key readable).1.files = st.files := by
  unfold tryDiskRead
  split
  · exact ⟨rfl, rfl⟩
  · split
    · exact ⟨rfl, rfl⟩
    · dsimp only
      split
      · exact ⟨rfl, rfl⟩
      · split <;> exact ⟨rfl, rfl⟩

/-- An entry read from the disk comes from the file of its key. -/
theorem file_of_tryDiskRead {cache : LlmGatewayIdempotencyCache} {st : CacheState}
    {key : GatewayIdempotencyKey} {readable : Bool} {entry : MemoryEntry}
    (h : (tryDiskRead cache st key readable).2 = .ok (some entry)) :
    ∃ raw, mapGet st.files key.hmac = some raw ∧ parseDiskEntry raw key = .ok (some entry) := by
  unfold tryDiskRead at h
  split at h
  · cases h
  · split at h
    · cases h
    · next path hpath =>
        obtain rfl : path = key.hmac := by
          rw [resolveCachePath] at hpath
          split at hpath
          · exact (Except.ok.inj hpath).symm
          · cases hpath
        dsimp only at h
        split at h
        · cases h
        · next raw hraw =>
            split at h
            · cases h
            · cases h
            · next e hparse =>
                obtain rfl := Option.some.inj (Except.ok.inj h)
                refine ⟨raw, ?_, hparse⟩
                split at hraw
                · exact hraw
                · cases hraw

/-- What a disk lookup comes to: a hit that enters the map, or no hit and the map as it was. -/
theorem lookupDisk_cases (cache : LlmGatewayIdempotencyCache) (st : CacheState)
    (key : GatewayIdempotencyKey) (nowMs : JsNumber) (readable : Bool) :
    (lookupDisk cache st key nowMs readable).1.files = st.files ∧
    ((∃ entry, (tryDiskRead cache st key readable).2 = .ok (some entry) ∧
        cache.isFresh entry.storedAtMs nowMs = true ∧
        (lookupDisk cache st key nowMs readable).2 = .ok (.hit key entry.result) ∧
        (lookupDisk cache st key nowMs readable).1.memory = mapSet st.memory key.hmac entry) ∨
      ((∀ k r, (lookupDisk cache st key nowMs readable).2 ≠ .ok (.hit k r)) ∧
        (lookupDisk cache st key nowMs readable).1.memory = st.memory)) := by
  obtain ⟨hmemory, hfiles⟩ := tryDiskRead_frame cache st key readable
  unfold lookupDisk
  cases hread : tryDiskRead cache st key readable with
  | mk st' outcome =>
      rw [hread] at hmemory hfiles
      cases outcome with
      | error message =>
          dsimp only
          exact ⟨hfiles, Or.inr ⟨by simp, hmemory⟩⟩
      | ok found =>
          cases found with
          | none =>
              dsimp only
              exact ⟨hfiles, Or.inr ⟨by simp, hmemory⟩⟩
          | some entry =>
              dsimp only
              split
              · exact ⟨hfiles, Or.inr ⟨by simp, hmemory⟩⟩
              · next hfresh =>
                  have hfresh' : cache.isFresh entry.storedAtMs nowMs = true := by
                    simpa using hfresh
                  split
                  · exact ⟨hfiles, Or.inr ⟨by simp, hmemory⟩⟩
                  · exact ⟨hfiles, Or.inr ⟨by simp, hmemory⟩⟩
                  · exact ⟨hfiles, Or.inl ⟨entry, rfl, hfresh', rfl, by rw [← hmemory]⟩⟩

theorem tryDiskRead_outcome_congr {cache : LlmGatewayIdempotencyCache} {st st' : CacheState}
    (hfiles : st.files = st'.files) (key : GatewayIdempotencyKey) (readable : Bool) :
    (tryDiskRead cache st key readable).2 = (tryDiskRead cache st' key readable).2 := by
  unfold tryDiskRead
  rw [hfiles]
  split
  · rfl
  · split
    · rfl
    · dsimp only
      split
      · rfl
      · split <;> rfl

/-- What a lookup comes to, when the map holds every entry under its own HMAC. -/
theorem lookupKey_cases (cache : LlmGatewayIdempotencyCache) {st : CacheState}
    {key : GatewayIdempotencyKey}
    (hkey : ∀ entry, mapGet st.memory key.hmac = some entry → entry.key.hmac = key.hmac)
    (nowMs : JsNumber) (readable : Bool) :
    (lookupKey cache st key nowMs readable).1.files = st.files ∧
    ((∃ entry, mapGet st.memory key.hmac = some entry ∧
        cache.isFresh entry.storedAtMs nowMs = true ∧
        (lookupKey cache st key nowMs readable).2 = .ok (.hit key entry.result) ∧
        (lookupKey cache st key nowMs readable).1.memory = st.memory) ∨
      (∃ entry, rehydrated cache st key nowMs readable = some entry ∧
        (tryDiskRead cache st key readable).2 = .ok (some entry) ∧
        cache.isFresh entry.storedAtMs nowMs = true ∧
        (lookupKey cache st key nowMs readable).2 = .ok (.hit key entry.result) ∧
        (lookupKey cache st key nowMs readable).1.memory =
          mapSet (mapDelete st.memory key.hmac) key.hmac entry) ∨
      ((∀ k r, (lookupKey cache st key nowMs readable).2 ≠ .ok (.hit k r)) ∧
        ((lookupKey cache st key nowMs readable).1.memory = st.memory ∨
          (lookupKey cache st key nowMs readable).1.memory = mapDelete st.memory key.hmac))) := by
  unfold lookupKey
  cases hget : mapGet st.memory key.hmac with
  | none =>
      obtain ⟨hfiles, ⟨entry, hread, hfresh, hhit, hmemory⟩ | ⟨hno, hmemory⟩⟩ :=
        lookupDisk_cases cache st key nowMs readable
      · refine ⟨hfiles, Or.inr (Or.inl ⟨entry, ?_, hread, hfresh, hhit, ?_⟩)⟩
        · simp [rehydrated, hget, hread, hfresh]
        · rw [mapDelete_eq_self hget]
          exact hmemory
      · exact ⟨hfiles, Or.inr (Or.inr ⟨hno, Or.inl hmemory⟩)⟩
  | some inMemory =>
      dsimp only
      split
      · next hstale =>
          have hstale' : cache.isFresh inMemory.storedAtMs nowMs = false := by simpa using hstale
          obtain ⟨hfiles, ⟨entry, hread, hfresh, hhit, hmemory⟩ | ⟨hno, hmemory⟩⟩ :=
            lookupDisk_cases cache
              { st with
                memory := mapDelete st.memory key.hmac
                counters.ttlExpirations := st.counters.ttlExpirations + 1 } key nowMs readable
          · have hread' : (tryDiskRead cache st key readable).2 = .ok (some entry) := by
              rw [← hread]
              apply tryDiskRead_outcome_congr
              rfl
            refine ⟨hfiles, Or.inr (Or.inl ⟨entry, ?_, hread', hfresh, hhit, hmemory⟩)⟩
            simp [rehydrated, hget, hread', hfresh, hstale']
          · exact ⟨hfiles, Or.inr (Or.inr ⟨hno, Or.inr hmemory⟩)⟩
      · next hfresh =>
          have hfresh' : cache.isFresh inMemory.storedAtMs nowMs = true := by simpa using hfresh
          rw [hkey inMemory hget, hmacMatches_self]
          exact ⟨rfl, Or.inl ⟨inMemory, rfl, hfresh', rfl, rfl⟩⟩

/-- The entry that a store puts into the map. -/
def newEntry (key : GatewayIdempotencyKey) (result : LlmGenerationSuccess) (nowMs : JsNumber) :
    MemoryEntry :=
  ⟨key, sanitiseResultForStorage result, nowMs⟩

theorem persistDiskEntry_memory (cache : LlmGatewayIdempotencyCache) (st : CacheState)
    (entry : MemoryEntry) (writable : Bool) :
    (persistDiskEntry cache st entry writable).1.memory = st.memory := by
  unfold persistDiskEntry
  split
  · rfl
  · split
    · rfl
    · split <;> rfl

theorem persistDiskEntry_files (cache : LlmGatewayIdempotencyCache) (st : CacheState)
    (entry : MemoryEntry) (writable : Bool) :
    (persistDiskEntry cache st entry writable).1.files =
      if cache.diskRoot ≠ none ∧ isHexOfLength 64 entry.key.hmac = true ∧ writable = true then
        mapSet st.files entry.key.hmac (serialiseDiskEntry entry)
      else st.files := by
  unfold persistDiskEntry resolveCachePath
  by_cases hdisk : cache.diskRoot = none
  · rw [if_pos hdisk, if_neg fun h ↦ h.1 hdisk]
  · rw [if_neg hdisk]
    by_cases hhex : isHexOfLength 64 entry.key.hmac = true
    · rw [if_pos hhex]
      dsimp only
      cases writable with
      | true => rw [if_pos rfl, if_pos ⟨hdisk, hhex, rfl⟩]
      | false => rw [if_neg nofun, if_neg fun h ↦ nomatch h.2.2]
    · rw [if_neg hhex, if_neg fun h ↦ hhex h.2.1]

/-- The files that a store leaves behind. -/
theorem store_files (cache : LlmGatewayIdempotencyCache) (st : CacheState)
    (key : GatewayIdempotencyKey) (result : LlmGenerationSuccess) (nowMs : JsNumber)
    (writable : Bool) :
    (store cache st key result nowMs writable).1.files =
      if cache.diskRoot ≠ none ∧ isHexOfLength 64 key.hmac = true ∧ writable = true then
        mapSet st.files key.hmac (serialiseDiskEntry (newEntry key result nowMs))
      else st.files := by
  have hevict : (if atLeast st.memory.length cache.maxEntries &&
      (mapGet st.memory key.hmac).isNone then evictOldest st else st).files = st.files := by
    split
    · unfold evictOldest
      split <;> rfl
    · rfl
  rw [store, persistDiskEntry_files]
  dsimp only
  rw [hevict, newEntry]

theorem mem_memory_of_evictOldest {st : CacheState} {h : JsString} {entry : MemoryEntry}
    (hget : mapGet (evictOldest st).memory h = some entry) :
    mapGet st.memory h = some entry := by
  unfold evictOldest at hget
  split at hget
  · exact hget
  · next oldest _ _ _ =>
      rw [mapGet_mapDelete] at hget
      split at hget
      · cases hget
      · exact hget

/-- Evicting from a map that is not empty makes it one entry smaller. -/
theorem length_evictOldest {st : CacheState} (hkeys : (st.memory.map Prod.fst).Nodup)
    (hne : st.memory ≠ []) : (evictOldest st).memory.length + 1 = st.memory.length := by
  unfold evictOldest
  split
  · next hnil => exact absurd hnil hne
  · next oldest entry rest hmemory =>
      rw [hmemory, List.map_cons, List.nodup_cons] at hkeys
      have hrest : mapDelete st.memory oldest = rest := by
        rw [hmemory, mapDelete, List.filter_cons_of_neg (by simp), ← mapDelete]
        exact mapDelete_eq_self (mapGet_eq_none_iff.mpr hkeys.1)
      rw [hrest, hmemory, List.length_cons]

theorem keys_evictOldest {st : CacheState} (hkeys : (st.memory.map Prod.fst).Nodup) :
    ((evictOldest st).memory.map Prod.fst).Nodup := by
  unfold evictOldest
  split
  · exact hkeys
  · exact keys_mapDelete_nodup hkeys _

/-- The caps that the constructor accepts. -/
def IsCap (bound : JsNumber) : Prop :=
  bound.isFinite = true ∧ ∃ n : ℕ, 1 ≤ n ∧ bound.toRat = n

theorem atLeast_eq_true_iff {bound : JsNumber} {n count : ℕ} (hfinite : bound.isFinite = true)
    (hn : bound.toRat = n) : atLeast count bound = true ↔ n ≤ count := by
  rw [atLeast, hfinite, Bool.true_and, decide_eq_true_eq, hn, Nat.cast_le]

/-- The map after a store: the new entry joins entries that were there before, within the cap. -/
theorem store_memory {cache : LlmGatewayIdempotencyCache} (hcap : IsCap cache.maxEntries)
    {st : CacheState} (hkeys : (st.memory.map Prod.fst).Nodup)
    (hbound : (st.memory.length : ℚ) ≤ cache.maxEntries.toRat) (key : GatewayIdempotencyKey)
    (result : LlmGenerationSuccess) (nowMs : JsNumber) (writable : Bool) :
    ∃ kept, (store cache st key result nowMs writable).1.memory =
        mapSet kept key.hmac (newEntry key result nowMs) ∧
      (kept.map Prod.fst).Nodup ∧
      (∀ h entry, mapGet kept h = some entry → mapGet st.memory h = some entry) ∧
      (((mapSet kept key.hmac (newEntry key result nowMs)).length : ℚ) ≤
        cache.maxEntries.toRat) := by
  obtain ⟨hfinite, n, hpos, hn⟩ := hcap
  rw [hn, Nat.cast_le] at hbound
  unfold store
  dsimp only
  by_cases hfull : (atLeast st.memory.length cache.maxEntries &&
      (mapGet st.memory key.hmac).isNone) = true
  · obtain ⟨hatLeast, hnone⟩ := Bool.and_eq_true_iff.mp hfull
    rw [atLeast_eq_true_iff hfinite hn] at hatLeast
    refine ⟨(evictOldest st).memory, ?_, keys_evictOldest hkeys,
      fun h entry ↦ mem_memory_of_evictOldest, ?_⟩
    · rw [if_pos hfull, persistDiskEntry_memory, newEntry]
    · have hne : st.memory ≠ [] := List.ne_nil_of_length_pos (by omega)
      have hlength := length_evictOldest hkeys hne
      have hnone' : mapGet (evictOldest st).memory key.hmac = none := by
        cases hget : mapGet (evictOldest st).memory key.hmac with
        | none => rfl
        | some entry => simp [mem_memory_of_evictOldest hget] at hnone
      rw [length_mapSet_of_none hnone', hn, Nat.cast_le]
      omega
  · refine ⟨st.memory, ?_, hkeys, fun h entry hget ↦ hget, ?_⟩
    · rw [if_neg hfull, persistDiskEntry_memory, newEntry]
    · rw [hn, Nat.cast_le]
      cases hget : mapGet st.memory key.hmac with
      | some entry => rwa [length_mapSet_of_some hget]
      | none =>
          rw [length_mapSet_of_none hget]
          rw [hget, Option.isNone_none, Bool.and_true, atLeast_eq_true_iff hfinite hn] at hfull
          omega

/-! ## The invariant -/

theorem latestWhere_concat (p : StoreRecord → Bool) (stores : List StoreRecord)
    (r : StoreRecord) :
    latestWhere p (stores ++ [r]) = if p r then some r else latestWhere p stores := by
  rw [latestWhere, List.filter_append]
  by_cases hp : p r = true
  · simp [hp]
  · simp [hp, latestWhere]

theorem latestWhere_and {p q : StoreRecord → Bool} {stores : List StoreRecord} {r : StoreRecord}
    (h : latestWhere p stores = some r) (hq : q r = true) :
    latestWhere (fun r ↦ p r && q r) stores = some r := by
  induction stores using List.reverseRecOn with
  | nil => simp [latestWhere] at h
  | append_singleton stores r' ih =>
      rw [latestWhere_concat] at h ⊢
      by_cases hp : p r' = true
      · rw [if_pos hp] at h
        obtain rfl := Option.some.inj h
        simp [hp, hq]
      · rw [if_neg hp] at h
        simp [hp, ih h]

theorem latestWhere_congr {p q : StoreRecord → Bool} {stores : List StoreRecord}
    (h : ∀ r ∈ stores, p r = q r) : latestWhere p stores = latestWhere q stores := by
  rw [latestWhere, latestWhere, List.filter_congr h]

/-- The entry holds what the store recorded, or its JSON copy. -/
def Carries (r : StoreRecord) (entry : MemoryEntry) : Prop :=
  entry.storedAtMs.unsigned = r.nowMs.unsigned ∧
    (entry.result = sanitiseResultForStorage r.result ∨
      entry.result = (sanitiseResultForStorage r.result).jsonCopy)

section Invariant

variable (hmacSha256 : JsString → JsString → JsString) (cache : LlmGatewayIdempotencyCache)

def latestFor (hmac : JsString) : List StoreRecord → Option StoreRecord :=
  latestWhere fun r ↦ hmacOf hmacSha256 cache r.inputs = some hmac

def persistedFor (hmac : JsString) : List StoreRecord → Option StoreRecord :=
  latestWhere fun r ↦ hmacOf hmacSha256 cache r.inputs = some hmac && r.persisted

structure Trace.Sound (known : List GatewayIdempotencyInputs) (trace : Trace) : Prop where
  keys : (trace.state.memory.map Prod.fst).Nodup
  bound : (trace.state.memory.length : ℚ) ≤ cache.maxEntries.toRat
  known : ∀ r ∈ trace.stores, r.inputs ∈ known
  plain : ∀ r ∈ trace.stores, ∀ v ∈ r.result.content, v.Ordered
  memory : ∀ hmac entry, mapGet trace.state.memory hmac = some entry → entry.key.hmac = hmac ∧
    ∃ r, latestFor hmacSha256 cache hmac trace.stores = some r ∧ Carries r entry
  files : ∀ hmac raw, mapGet trace.state.files hmac = some raw →
    cache.diskRoot ≠ none ∧ isHexOfLength 64 hmac = true ∧
    ∃ r key, persistedFor hmacSha256 cache hmac trace.stores = some r ∧
      key.hmac = hmac ∧ raw = serialiseDiskEntry (newEntry key r.result r.nowMs)

end Invariant

section Steps

variable {hmacSha256 : JsString → JsString → JsString} {cache : LlmGatewayIdempotencyCache}
  {known : List GatewayIdempotencyInputs} {trace : Trace}

theorem mem_of_latestWhere {p : StoreRecord → Bool} {stores : List StoreRecord} {r : StoreRecord}
    (h : latestWhere p stores = some r) : r ∈ stores :=
  List.mem_of_mem_filter (List.mem_of_getLast? h)

theorem hmacOf_of_computeKey {inputs : GatewayIdempotencyInputs} {key : GatewayIdempotencyKey}
    (h : computeKey hmacSha256 cache inputs = .ok key) :
    hmacOf hmacSha256 cache inputs = some key.hmac := by
  rw [hmacOf, h]

/-- Without collisions, the latest store for a key is the latest store for its inputs. -/
theorem latestFor_eq_latestStore (hfree : CollisionFree hmacSha256 cache known)
    (hsound : trace.Sound hmacSha256 cache known) {inputs : GatewayIdempotencyInputs}
    (hin : inputs ∈ known) {hmac : JsString}
    (hhmac : hmacOf hmacSha256 cache inputs = some hmac) :
    latestFor hmacSha256 cache hmac trace.stores = latestStore inputs trace.stores := by
  apply latestWhere_congr
  intro r hr
  rw [decide_eq_decide]
  constructor
  · exact fun hrhmac ↦
      inputs_eq_of_hmacOf_eq hfree (hsound.known r hr) hin hrhmac hhmac
  · rintro rfl
    exact hhmac

/-- An entry taken over from the disk is the latest one, when the latest store reached it. -/
theorem carries_of_rehydrated (hfree : CollisionFree hmacSha256 cache known)
    (hsound : trace.Sound hmacSha256 cache known) {inputs : GatewayIdempotencyInputs}
    (hin : inputs ∈ known) {key : GatewayIdempotencyKey}
    (hkey : computeKey hmacSha256 cache inputs = .ok key)
    (hpersisted : (latestStore inputs trace.stores).any (·.persisted) = true) {readable : Bool}
    {entry : MemoryEntry}
    (hread : (tryDiskRead cache trace.state key readable).2 = .ok (some entry)) :
    entry.key.hmac = key.hmac ∧
      ∃ r, latestFor hmacSha256 cache key.hmac trace.stores = some r ∧ Carries r entry := by
  obtain ⟨raw, hraw, hparse⟩ := file_of_tryDiskRead hread
  obtain ⟨-, -, r, key', hr, hkey', rfl⟩ := hsound.files _ _ hraw
  have hcontent := hsound.plain r (mem_of_latestWhere hr)
  obtain ⟨hresult, htime, hhmac⟩ := parseDiskEntry_serialise hcontent rfl rfl hparse
  obtain ⟨r', hr', hreached⟩ : ∃ r', latestStore inputs trace.stores = some r' ∧
      r'.persisted = true := by
    cases hlatest : latestStore inputs trace.stores with
    | none => simp [hlatest] at hpersisted
    | some r' => exact ⟨r', rfl, by simpa [hlatest] using hpersisted⟩
  have hlatest := latestFor_eq_latestStore hfree hsound hin (hmacOf_of_computeKey hkey)
  rw [hr'] at hlatest
  obtain rfl : r = r' := by
    have hboth := latestWhere_and (q := (·.persisted)) hlatest hreached
    exact Option.some.inj (hr.symm.trans hboth)
  refine ⟨hhmac.trans hkey', r, hlatest, ?_, Or.inr hresult⟩
  rw [htime, JsNumber.unsigned_unsigned]
  rfl

/-- A lookup keeps the invariant when each entry of the new map was there or is the latest. -/
theorem Trace.Sound.of_lookup (hsound : trace.Sound hmacSha256 cache known) {st : CacheState}
    (hfiles : st.files = trace.state.files) (hkeys : (st.memory.map Prod.fst).Nodup)
    (hbound : (st.memory.length : ℚ) ≤ cache.maxEntries.toRat)
    (hmemory : ∀ hmac entry, mapGet st.memory hmac = some entry →
      mapGet trace.state.memory hmac = some entry ∨ (entry.key.hmac = hmac ∧
        ∃ r, latestFor hmacSha256 cache hmac trace.stores = some r ∧ Carries r entry)) :
    ({ trace with state := st } : Trace).Sound hmacSha256 cache known := by
  refine ⟨hkeys, hbound, hsound.known, hsound.plain, ?_, ?_⟩
  · intro hmac entry hget
    exact (hmemory hmac entry hget).elim (hsound.memory hmac entry) id
  · intro hmac raw hget
    exact hsound.files hmac raw (hfiles ▸ hget)

theorem Trace.Sound.of_delete (hsound : trace.Sound hmacSha256 cache known) {st : CacheState}
    (hfiles : st.files = trace.state.files) (hmac : JsString)
    (hmemory : st.memory = trace.state.memory ∨ st.memory = mapDelete trace.state.memory hmac) :
    ({ trace with state := st } : Trace).Sound hmacSha256 cache known := by
  rcases hmemory with hmemory | hmemory
  · exact hsound.of_lookup hfiles (hmemory ▸ hsound.keys) (hmemory ▸ hsound.bound)
      fun h entry hget ↦ Or.inl (hmemory ▸ hget)
  · apply hsound.of_lookup hfiles
    · rw [hmemory]
      exact keys_mapDelete_nodup hsound.keys hmac
    · rw [hmemory]
      have hle : (mapDelete trace.state.memory hmac).length ≤ trace.state.memory.length :=
        List.length_filter_le _ _
      exact (Nat.cast_le.mpr hle).trans hsound.bound
    · intro h entry hget
      rw [hmemory, mapGet_mapDelete] at hget
      split at hget
      · cases hget
      · exact Or.inl hget

theorem Trace.Sound.step_lookup (hcap : IsCap cache.maxEntries)
    (hfree : CollisionFree hmacSha256 cache known) (hsound : trace.Sound hmacSha256 cache known)
    {inputs : GatewayIdempotencyInputs} (hin : inputs ∈ known) {nowMs : JsNumber} {readable : Bool}
    (hsafe : trace.fallbackSafe hmacSha256 cache (.lookup inputs nowMs readable) = true) :
    (trace.step hmacSha256 cache (.lookup inputs nowMs readable)).Sound hmacSha256 cache known := by
  rw [Trace.step, lookup]
  rw [Trace.fallbackSafe] at hsafe
  cases hkey : computeKey hmacSha256 cache inputs with
  | error message => exact hsound
  | ok key =>
      simp only [hkey] at hsafe
      have hown : ∀ entry, mapGet trace.state.memory key.hmac = some entry →
          entry.key.hmac = key.hmac := fun entry hget ↦ (hsound.memory _ _ hget).1
      obtain ⟨hfiles, ⟨-, -, -, -, hmemory⟩ | ⟨entry, hrehydrated, hread, -, -, hmemory⟩ |
        ⟨-, hmemory⟩⟩ := lookupKey_cases cache hown nowMs readable
      · exact hsound.of_delete hfiles key.hmac (Or.inl hmemory)
      · rw [hrehydrated, Option.isNone_some, Bool.false_or, Bool.and_eq_true,
          Bool.not_eq_true'] at hsafe
        have hlatest := carries_of_rehydrated hfree hsound hin hkey hsafe.2 hread
        obtain ⟨hfinite, n, -, hn⟩ := hcap
        apply hsound.of_lookup hfiles
        · rw [hmemory, keys_mapSet]
          exact nodup_setAdd (keys_mapDelete_nodup hsound.keys _) _
        · have hroom : (mapDelete trace.state.memory key.hmac).length < n := by
            rw [← not_le, ← atLeast_eq_true_iff hfinite hn, hsafe.1]
            exact Bool.false_ne_true
          have hnone : mapGet (mapDelete trace.state.memory key.hmac) key.hmac = none := by
            rw [mapGet_mapDelete, if_pos rfl]
          rw [hmemory, length_mapSet_of_none hnone, hn, Nat.cast_le]
          exact hroom
        · intro h e hget
          rw [hmemory, mapGet_mapSet] at hget
          split at hget
          · next heq =>
              obtain rfl := Option.some.inj hget
              exact Or.inr (heq ▸ hlatest)
          · rw [mapGet_mapDelete] at hget
            split at hget
            · cases hget
            · exact Or.inl hget
      · exact hsound.of_delete hfiles key.hmac hmemory

theorem Trace.Sound.step_store (hcap : IsCap cache.maxEntries)
    (hsound : trace.Sound hmacSha256 cache known) {inputs : GatewayIdempotencyInputs}
    (hin : inputs ∈ known) {result : LlmGenerationSuccess} {nowMs : JsNumber} {writable : Bool}
    (hplain : ∀ v ∈ result.content, v.Ordered) :
    (trace.step hmacSha256 cache (.store inputs result nowMs writable)).Sound hmacSha256 cache
      known := by
  rw [Trace.step]
  cases hkey : computeKey hmacSha256 cache inputs with
  | error message => exact hsound
  | ok key =>
      have hhmac := hmacOf_of_computeKey hkey
      obtain ⟨kept, hmemory, hkept, hsub, hlength⟩ :=
        store_memory hcap hsound.keys hsound.bound key result nowMs writable
      refine ⟨?_, ?_, ?_, ?_, ?_, ?_⟩
      · rw [hmemory, keys_mapSet]
        exact nodup_setAdd hkept _
      · rw [hmemory]
        exact hlength
      · intro r hr
        rcases List.mem_append.mp hr with hr | hr
        · exact hsound.known r hr
        · rw [List.mem_singleton.mp hr]
          exact hin
      · intro r hr
        rcases List.mem_append.mp hr with hr | hr
        · exact hsound.plain r hr
        · rw [List.mem_singleton.mp hr]
          exact hplain
      · intro hmac entry hget
        rw [hmemory, mapGet_mapSet] at hget
        rw [latestFor, latestWhere_concat]
        split at hget
        · next heq =>
            obtain rfl := Option.some.inj hget
            subst heq
            refine ⟨rfl, _, if_pos (decide_eq_true hhmac), rfl, Or.inl rfl⟩
        · next hne =>
            have hother : ¬ hmacOf hmacSha256 cache inputs = some hmac := by
              rw [hhmac, Option.some.injEq]
              exact Ne.symm hne
            simp only [hother, decide_false, Bool.false_eq_true, if_false]
            exact hsound.memory hmac entry (hsub hmac entry hget)
      · intro hmac raw hget
        dsimp only at hget
        rw [store_files] at hget
        rw [persistedFor, latestWhere_concat]
        by_cases heq : hmac = key.hmac
        · subst heq
          split at hget
          · next hwritten =>
              rw [mapGet_mapSet_self] at hget
              obtain rfl := Option.some.inj hget
              refine ⟨hwritten.1, hwritten.2.1, _, key, if_pos ?_, rfl, rfl⟩
              simp [hhmac, hwritten.2.2]
          · next hkeptFiles =>
              obtain ⟨hdisk, hhex, hr⟩ := hsound.files _ raw hget
              have hunwritten : writable = false := by
                cases writable with
                | false => rfl
                | true => exact absurd ⟨hdisk, hhex, rfl⟩ hkeptFiles
              refine ⟨hdisk, hhex, ?_⟩
              simpa [hunwritten, persistedFor] using hr
        · have hother : ¬ hmacOf hmacSha256 cache inputs = some hmac := by
            rw [hhmac, Option.some.injEq]
            exact Ne.symm heq
          have hold : mapGet trace.state.files hmac = some raw := by
            split at hget
            · rwa [mapGet_mapSet, if_neg heq] at hget
            · exact hget
          simp only [hother, decide_false, Bool.false_and, Bool.false_eq_true, if_false]
          exact hsound.files hmac raw hold

end Steps

/-! ## Every run -/

section Runs

variable {hmacSha256 : JsString → JsString → JsString}

theorem isCap_of_validateMaxEntries {maxEntries : Option JsNumber}
    (h : validateMaxEntries maxEntries = .ok ()) : IsCap (maxEntries.getD defaultMaxEntries) := by
  cases maxEntries with
  | none => exact ⟨by decide +kernel, 1024, by norm_num, by decide +kernel⟩
  | some bound =>
      rw [validateMaxEntries] at h
      split at h
      · cases h
      · next hbound =>
          simp only [Bool.or_eq_true, Bool.not_eq_true', not_or, Bool.not_eq_false,
            Bool.not_eq_true] at hbound
          obtain ⟨hinteger, hlow⟩ := hbound
          rw [JsNumber.one_eq] at hlow
          cases bound with
          | nan => cases hinteger
          | infinity negative => cases hinteger
          | negZero => simp [JsNumber.lt, JsNumber.toRat] at hlow
          | finite d =>
              have hden : d.val.den = 1 := of_decide_eq_true hinteger
              have hone : 1 ≤ d.val := not_lt.mp (of_decide_eq_false hlow)
              have hnum : 0 < d.val.num := Rat.num_pos.mpr (zero_lt_one.trans_le hone)
              have hcast : ((d.val.num.toNat : ℕ) : ℚ) = (d.val.num : ℚ) := by
                exact_mod_cast Int.toNat_of_nonneg hnum.le
              refine ⟨rfl, d.val.num.toNat, by omega, ?_⟩
              rw [hcast]
              exact (Rat.coe_int_num_of_den_eq_one hden).symm

theorem ttl_of_validateTtlMs {ttlMs : Option JsNumber} (h : validateTtlMs ttlMs = .ok ()) :
    ∃ d, ttlMs.getD defaultTtlMs = .finite d := by
  cases ttlMs with
  | none => exact ⟨_, JsNumber.ofRat_of_round64 (r := 86400000) (by decide +kernel) (by norm_num)⟩
  | some ttl =>
      rw [validateTtlMs] at h
      split at h
      · cases h
      · next hbound =>
          simp only [Bool.or_eq_true, Bool.not_eq_true', not_or, Bool.not_eq_false,
            Bool.not_eq_true] at hbound
          cases ttl with
          | nan => cases hbound.1
          | infinity negative => cases hbound.1
          | negZero => exact absurd hbound.2 (by decide)
          | finite d => exact ⟨d, rfl⟩

/-- What the constructor guarantees about the two limits. -/
theorem limits_of_create {options : CacheOptions} {cache : LlmGatewayIdempotencyCache}
    (h : createLlmGatewayIdempotencyCache options = .ok cache) :
    IsCap cache.maxEntries ∧ ∃ d, cache.ttlMs = .finite d := by
  obtain ⟨_, hvalid, h⟩ := bind_eq_ok h
  cases h
  unfold validateOptions at hvalid
  obtain ⟨_, -, hvalid⟩ := bind_eq_ok hvalid
  obtain ⟨_, httl, hvalid⟩ := bind_eq_ok hvalid
  obtain ⟨_, hmax, -⟩ := bind_eq_ok hvalid
  exact ⟨isCap_of_validateMaxEntries hmax, ttl_of_validateTtlMs httl⟩

theorem sound_start {cache : LlmGatewayIdempotencyCache} (hcap : IsCap cache.maxEntries)
    (known : List GatewayIdempotencyInputs) : Trace.start.Sound hmacSha256 cache known := by
  obtain ⟨-, n, -, hn⟩ := hcap
  refine ⟨List.nodup_nil, ?_, by simp [Trace.start], by simp [Trace.start], ?_, ?_⟩
  · rw [hn]
    simp [Trace.start]
  · intro hmac entry hget
    simp [Trace.start] at hget
  · intro hmac raw hget
    simp [Trace.start] at hget

/-- The stores of a run are among its operations. -/
theorem mem_stores_run {cache : LlmGatewayIdempotencyCache} {ops : List Operation} {trace : Trace}
    {r : StoreRecord} (hr : r ∈ (run (Trace.step hmacSha256 cache) trace ops).stores) :
    r ∈ trace.stores ∨ .store r.inputs r.result r.nowMs r.persisted ∈ ops := by
  induction ops generalizing trace with
  | nil => exact Or.inl hr
  | cons op ops ih =>
      rcases ih hr with hr | hr
      · cases op with
        | lookup inputs nowMs readable => exact Or.inl hr
        | store inputs result nowMs writable =>
            rw [Trace.step] at hr
            split at hr
            · exact Or.inl hr
            · rcases List.mem_append.mp hr with hr | hr
              · exact Or.inl hr
              · rw [List.mem_singleton.mp hr]
                exact Or.inr List.mem_cons_self
      · exact Or.inr (List.mem_cons_of_mem _ hr)

/-- A hit carries the latest store for its key, and its time passed the freshness check. -/
theorem latest_of_hit {cache : LlmGatewayIdempotencyCache} {known : List GatewayIdempotencyInputs}
    (hfree : CollisionFree hmacSha256 cache known) {trace : Trace}
    (hsound : trace.Sound hmacSha256 cache known) {inputs : GatewayIdempotencyInputs}
    (hin : inputs ∈ known) {nowMs : JsNumber} {readable : Bool}
    (hsafe : trace.fallbackSafe hmacSha256 cache (.lookup inputs nowMs readable) = true)
    {key : GatewayIdempotencyKey} {result : LlmGenerationSuccess}
    (hhit : (lookup hmacSha256 cache trace.state inputs nowMs readable).2 =
      .ok (.hit key result)) :
    ∃ r entry, latestStore inputs trace.stores = some r ∧ Carries r entry ∧
      entry.result = result ∧ cache.isFresh entry.storedAtMs nowMs = true := by
  rw [lookup] at hhit
  rw [Trace.fallbackSafe] at hsafe
  cases hkey : computeKey hmacSha256 cache inputs with
  | error message =>
      rw [hkey] at hhit
      cases hhit
  | ok key' =>
      simp only [hkey] at hsafe hhit
      have hown : ∀ entry, mapGet trace.state.memory key'.hmac = some entry →
          entry.key.hmac = key'.hmac := fun entry hget ↦ (hsound.memory _ _ hget).1
      have hlatest := latestFor_eq_latestStore hfree hsound hin (hmacOf_of_computeKey hkey)
      obtain ⟨-, ⟨entry, hget, hfresh, hhit', -⟩ | ⟨entry, hrehydrated, hread, hfresh, hhit', -⟩ |
        ⟨hno, -⟩⟩ := lookupKey_cases cache hown nowMs readable
      · obtain ⟨-, r, hr, hcarries⟩ := hsound.memory _ _ hget
        rw [hhit'] at hhit
        cases hhit
        exact ⟨r, entry, hlatest ▸ hr, hcarries, rfl, hfresh⟩
      · rw [hrehydrated, Option.isNone_some, Bool.false_or, Bool.and_eq_true] at hsafe
        obtain ⟨-, r, hr, hcarries⟩ := carries_of_rehydrated hfree hsound hin hkey hsafe.2 hread
        rw [hhit'] at hhit
        cases hhit
        exact ⟨r, entry, hlatest ▸ hr, hcarries, rfl, hfresh⟩
      · exact absurd hhit (hno _ _)

end Runs

/-! ## Sample runs -/

def sampleInputs (attempt : JsNumber) : GatewayIdempotencyInputs where
  jobId := js "job"
  roleStepId := js "writer"
  attempt := attempt
  promptVersion := js "v1"
  schemaHash := List.replicate 64 0x32
  inputHash := List.replicate 64 0x31

/-- HMAC-SHA256 under the secret `secret`, at the payloads of the attempts 1, 2 and 3; they
differ in the unit at position 11. -/
def sampleHmac (_secret payload : JsString) : JsString :=
  if (payload.drop 11).head? = some 0x31 then
    js "e0684b5c4ad9ff3f6ce874db862b233e2c9c0ef0f2d6bad266d9f7923ffc2722"
  else if (payload.drop 11).head? = some 0x32 then
    js "6cefe21612fa7e67b6695241e1d4ecf22f5a60561575dd78547efd36cb22f170"
  else js "05b343556f36ab29ede04e0e5131885669e9ab2ff3a02facb2a165ee0c6b071a"

def sampleResult (modelRevision : JsString) : LlmGenerationSuccess where
  content := some (.str (js "text"))
  rawTextContent := some (js "raw")
  constrainedDecoding := none
  finishReason := .stop
  usage := ⟨some 5, none⟩
  modelDeployment := js "model"
  modelRevision := modelRevision
  gatewayRelease := js "release"
  attempt := 1

def sampleOptions (maxEntries : JsNumber) : CacheOptions where
  hmacSecret := .literal (js "secret")
  ttlMs := some 40
  diskRoot := some (js "/run")
  maxEntries := some maxEntries

def sampleCache (maxEntries : JsNumber) : LlmGatewayIdempotencyCache where
  hmacSecret := .literal (js "secret")
  ttlMs := 40
  diskRoot := some (js "/run")
  maxEntries := maxEntries

def LookupResult.result? : LookupResult → Option LlmGenerationSuccess
  | .hit _ result => some result
  | .miss _ => none

theorem create_sample {maxEntries : JsNumber}
    (h : validateOptions (sampleOptions maxEntries) = .ok ()) :
    createLlmGatewayIdempotencyCache (sampleOptions maxEntries) = .ok (sampleCache maxEntries) := by
  rw [createLlmGatewayIdempotencyCache, h]
  rfl

theorem collisionFree_sample {maxEntries : JsNumber} {known : List GatewayIdempotencyInputs}
    (h : ∀ inputs ∈ known, ∀ inputs' ∈ known,
      sampleHmac [] inputs.payload = sampleHmac [] inputs'.payload →
        inputs.payload = inputs'.payload) :
    CollisionFree sampleHmac (sampleCache maxEntries) known :=
  fun inputs hin inputs' hin' _ _ heq ↦ h inputs hin inputs' hin' heq

def sampleRun : List Operation :=
  [.store (sampleInputs 1) (sampleResult (js "r1")) 0 true, .lookup (sampleInputs 1) 39 true]

/-- The second result does not reach the disk; the store for other inputs evicts it. -/
def staleRun : List Operation :=
  [.store (sampleInputs 1) (sampleResult (js "r1")) 0 true,
    .store (sampleInputs 1) (sampleResult (js "r2")) 1 false,
    .store (sampleInputs 2) (sampleResult (js "r1")) 2 true]

end TestIntelligence.ModelGateway.Idempotency
