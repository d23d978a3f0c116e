import TestIntelligence.CoreEngine.GeneratedTestCaseValidator
import TestIntelligence.CoreEngine.StoredTestCases
import TestIntelligence.Files.Volume
import TestIntelligence.Files.Publishing
import TestIntelligence.Js.JsonText
import TestIntelligence.Js.Utf8
import TestIntelligence.Security.ContentHash
import TestIntelligence.Security.Digests
import TestIntelligence.Systems.Answers

/-!
# Replay caches

Two caches of generated test case lists.  The first one keeps entries in a map, the second
one writes each entry to a file that is named by the digest of its key; file names are
relative to the root directory of the cache.
-/

namespace TestIntelligence.ModelGateway

open Js Security CoreEngine Files

structure ReplayCacheEntry where
  key : JsString
  storedAt : JsString
  testCases : Json

inductive ReplayCacheLookupResult
  | hit (entry : ReplayCacheEntry)
  | miss (key : JsString)

structure ReplayCacheValidationError where
  message : JsString
  errors : ValidationErrors
  deriving DecidableEq

/-- How the promise of a call settles. -/
inductive ReplayCacheAnswer
  | stored
  | found (result : ReplayCacheLookupResult)
  | invalid (error : ReplayCacheValidationError)
  | notFound (operation : JsString)

inductive ReplayCacheCall
  | store (key testCases : Json)
  | lookup (key : Json)

def ReplayCacheCall.key : ReplayCacheCall → Json
  | .store key _ => key
  | .lookup key => key

/-- `structuredClone`, on plain data -/
def cloneEntry (entry : ReplayCacheEntry) : ReplayCacheEntry := entry

/-- `new Date(0).toISOString()` -/
def storedAtText : JsString := js "1970-01-01T00:00:00.000Z"

/-- The error of `store`, if any. -/
def refusal (testCases : Json) : Option ReplayCacheValidationError :=
  let validation := validateGeneratedTestCaseList testCases
  if !validation.valid then
    some ⟨js "refusing to store invalid GeneratedTestCaseList", validation.errors⟩
  else none

def isObjectValue : Json → Bool
  | .obj _ => true
  | .arr _ => true
  | _ => false

def decodeEntry (digest : JsString) (parsed : Json) :
    Except ReplayCacheValidationError ReplayCacheEntry :=
  let fail := fun problem path message ↦
    .error ⟨js "replay cache entry " ++ digest ++ js problem, [⟨js path, message⟩]⟩
  match parsed with
  | .obj candidate =>
      if !isTextWith (· == digest) (mapGet candidate (js "key")) then
        fail " key mismatch" "$.key" (js "expected \"" ++ digest ++ js "\"")
      else
        match mapGet candidate (js "storedAt") with
        | some (.str storedAt) =>
            match mapGet candidate (js "testCases") with
            | some testCases =>
                if isObjectValue testCases then .ok ⟨digest, storedAt, testCases⟩
                else fail " missing testCases" "$.testCases" (js "expected object")
            | none => fail " missing testCases" "$.testCases" (js "expected object")
        | _ => fail " missing storedAt" "$.storedAt" (js "expected ISO string")
  | _ => fail " is not an object" "$" (js "expected object")

/-- The lookup after its file was read. -/
def readEntry (digest : JsString) : Option Bytes → ReplayCacheAnswer
  | none => .found (.miss digest)
  | some raw =>
      match Json.parse (utf8Decode raw) with
      | none => .invalid ⟨js "replay cache entry " ++ digest ++ js " is not valid JSON",
          [⟨js "$", js "invalid JSON"⟩]⟩
      | some parsed =>
          match decodeEntry digest parsed with
          | .error error => .invalid error
          | .ok entry =>
              let validation := validateGeneratedTestCaseList entry.testCases
              if !validation.valid then
                .invalid ⟨js "replay cache entry " ++ digest ++ js " failed schema validation",
                  validation.errors⟩
              else .found (.hit entry)

def ReplayCacheEntry.toJson (entry : ReplayCacheEntry) : Json :=
  .obj [(js "key", .str entry.key), (js "storedAt", .str entry.storedAt),
    (js "testCases", entry.testCases)]

def fileFor (digest : JsString) : JsString := digest ++ js ".json"

def tmpPath (digest : JsString) : JsString :=
  fileFor digest ++ js "." ++ digest.take 12 ++ js ".tmp"

section

variable (sha256 : Bytes → JsString)

def computeReplayCacheKeyDigest (key : Json) : JsString := sha256 (utf8Encode (canonicalJson key))

def newEntry (key testCases : Json) : ReplayCacheEntry :=
  ⟨computeReplayCacheKeyDigest sha256 key, storedAtText, testCases⟩

/-! ## In memory -/

abbrev MemoryReplayCache := List (JsString × ReplayCacheEntry)

/-- The calls on the cache of `createMemoryReplayCache` -/
def memoryReplayCache (store : MemoryReplayCache) :
    ReplayCacheCall → MemoryReplayCache × ReplayCacheAnswer
  | .lookup key =>
      let digest := computeReplayCacheKeyDigest sha256 key
      match mapGet store digest with
      | none => (store, .found (.miss digest))
      | some found => (store, .found (.hit (cloneEntry found)))
  | .store key testCases =>
      match refusal testCases with
      | some error => (store, .invalid error)
      | none =>
          let entry := newEntry sha256 key testCases
          (mapSet store entry.key (cloneEntry entry), .stored)

/-! ## In a directory -/

abbrev ReplayCacheProgram := Program JsString UInt8 ReplayCacheAnswer

abbrev ReplayCacheVolume := Volume JsString UInt8

/-- The text of an entry file -/
def entryFile (entry : ReplayCacheEntry) : Bytes := utf8Encode (canonicalJson entry.toJson)

/-- What a call on the cache of `createFileSystemReplayCache` does -/
def fileSystemProgram : ReplayCacheCall → ReplayCacheProgram
  | .lookup key =>
      let digest := computeReplayCacheKeyDigest sha256 key
      .readFile (fileFor digest) fun content ↦ .done (readEntry digest content)
  | .store key testCases =>
      match refusal testCases with
      | some error => .done (.invalid error)
      | none =>
          let entry := newEntry sha256 key testCases
          .makeDirectory
            (.writeFile (tmpPath entry.key) (entryFile entry)
              (.rename (tmpPath entry.key) (fileFor entry.key) (.done .stored)
                (.done (.notFound (js "rename")))))

def fileSystemReplayCache (directory : ReplayCacheVolume) (call : ReplayCacheCall) :
    ReplayCacheVolume × ReplayCacheAnswer :=
  (fileSystemProgram sha256 call).exec directory

end

end TestIntelligence.ModelGateway

/-!
## Runs of the two replay caches

Both caches answer a lookup by the latest store under its key that was not refused.  The one
in memory returns that list itself, the one in a directory what is left of it in a file.
-/

namespace TestIntelligence.ModelGateway

open Js Security CoreEngine Files Systems

/-! ## Entry files -/

theorem isObjectValue_stored {v : Json} (h : isObjectValue v = true) :
    isObjectValue (stored v) = true := by
  cases v with
  | arr items => rw [stored_arr]; rfl
  | obj members => rw [stored_obj]; rfl
  | _ => cases h

theorem isObjectValue_of_valid {testCases : Json}
    (h : (validateGeneratedTestCaseList testCases).valid = true) : isObjectValue testCases = true := by
  cases testCases with
  | obj members => rfl
  | arr items => rfl
  | _ => cases h

theorem ordered_entry_json {entry : ReplayCacheEntry} (h : entry.testCases.Ordered) :
    entry.toJson.Ordered := by
  rw [ReplayCacheEntry.toJson, Json.ordered_obj]
  refine ⟨?_, by simpa using h⟩
  change (List.map js ["key", "storedAt", "testCases"]).Nodup ∧
    (List.map js ["key", "storedAt", "testCases"]).Pairwise _
  decide

/-- Decoding what the file of an entry holds. -/
theorem decodeEntry_stored {entry : ReplayCacheEntry} (hordered : entry.testCases.Ordered)
    (hobject : isObjectValue entry.testCases = true) :
    decodeEntry entry.key (stored entry.toJson) =
      .ok { entry with testCases := stored entry.testCases } := by
  have hnodup := (Json.ordered_obj.mp (ordered_entry_json hordered)).1.1
  have hkey : mapGet (storedMembers [(js "key", .str entry.key), (js "storedAt", .str entry.storedAt),
      (js "testCases", entry.testCases)]) (js "key") = some (.str entry.key) := by
    rw [mapGet_storedMembers hnodup (by decide), mapGet_cons, if_pos rfl, Option.map_some, stored_str]
  have hstoredAt : mapGet (storedMembers [(js "key", .str entry.key),
      (js "storedAt", .str entry.storedAt), (js "testCases", entry.testCases)]) (js "storedAt") =
        some (.str entry.storedAt) := by
    rw [mapGet_storedMembers hnodup (by decide), mapGet_cons, if_neg (by decide), mapGet_cons,
      if_pos rfl, Option.map_some, stored_str]
  have htestCases : mapGet (storedMembers [(js "key", .str entry.key),
      (js "storedAt", .str entry.storedAt), (js "testCases", entry.testCases)]) (js "testCases") =
        some (stored entry.testCases) := by
    rw [mapGet_storedMembers hnodup (by decide), mapGet_cons, if_neg (by decide), mapGet_cons,
      if_neg (by decide), mapGet_cons, if_pos rfl, Option.map_some]
  rw [ReplayCacheEntry.toJson, stored_obj, decodeEntry, hkey, hstoredAt, htestCases]
  simp [isTextWith, isObjectValue_stored hobject]

/-- A valid list without special numbers comes back from its entry file. -/
theorem readEntry_entryFile {entry : ReplayCacheEntry} (hordered : entry.testCases.Ordered)
    (hplain : entry.testCases.PlainNumbers)
    (hvalid : (validateGeneratedTestCaseList entry.testCases).valid = true) :
    readEntry entry.key (some (entryFile entry)) =
      .found (.hit { entry with testCases := stored entry.testCases }) := by
  have hstored := (valid_stored hordered hplain hvalid).2
  have hread : utf8Decode (utf8Encode (canonicalJson entry.toJson)) = canonicalJson entry.toJson :=
    utf8Decode_utf8Encode (isWellFormed_stringify _)
  rw [entryFile, readEntry, hread, parse_canonicalJson_stored (ordered_entry_json hordered)]
  simp only [decodeEntry_stored hordered (isObjectValue_of_valid hvalid), hstored]
  rfl

theorem fileFor_injective : Function.Injective fileFor :=
  fun _ _ h ↦ List.append_cancel_right h

theorem fileFor_ne_tmpPath (digest digest' : JsString) : fileFor digest ≠ tmpPath digest' := by
  intro h
  have hlast := congrArg List.getLast? h
  have hjson : (js ".json").getLast? = some 0x6E := by decide
  have htmp : (js ".tmp").getLast? = some 0x70 := by decide
  rw [fileFor, tmpPath, List.getLast?_append, List.getLast?_append, hjson, htmp] at hlast
  simp at hlast

/-! ## The latest store -/

/-- The list that a call leaves under the key. -/
def storesUnder (key : Json) : ReplayCacheCall → Option Json
  | .store key' testCases =>
      if (validateGeneratedTestCaseList testCases).valid ∧ canonicalJson key' = canonicalJson key then
        some testCases
      else none
  | .lookup _ => none

def latest (key : Json) (calls : List ReplayCacheCall) : Option Json :=
  calls.foldl (fun found call ↦ (storesUnder key call).or found) none

theorem latest_concat (key : Json) (calls : List ReplayCacheCall) (call : ReplayCacheCall) :
    latest key (calls ++ [call]) = (storesUnder key call).or (latest key calls) := by
  rw [latest, List.foldl_append]
  rfl

/-- The latest list was stored by one of the calls, and is valid. -/
theorem mem_of_latest {key testCases : Json} {calls : List ReplayCacheCall}
    (h : latest key calls = some testCases) :
    (validateGeneratedTestCaseList testCases).valid = true ∧
      ∃ key', .store key' testCases ∈ calls := by
  induction calls using List.reverseRecOn with
  | nil => cases h
  | append_singleton calls call ih =>
      rw [latest_concat] at h
      rcases Option.or_eq_some_iff.mp h with hcall | ⟨-, hlatest⟩
      · cases call with
        | lookup key' => cases hcall
        | store key' testCases' =>
            rw [storesUnder, Option.ite_none_right_eq_some] at hcall
            obtain ⟨⟨hvalid, -⟩, hfound⟩ := hcall
            obtain rfl := Option.some.inj hfound
            exact ⟨hvalid, key', by simp⟩
      · obtain ⟨hvalid, key', hmem⟩ := ih hlatest
        exact ⟨hvalid, key', List.mem_append_left _ hmem⟩

/-! ## What the caches have to answer -/

section

variable (sha256 : Bytes → JsString)

/-- SHA-256 does not confuse the keys of the calls. -/
def CollisionFree (calls : List ReplayCacheCall) : Prop :=
  ∀ call ∈ calls, ∀ call' ∈ calls,
    computeReplayCacheKeyDigest sha256 call.key = computeReplayCacheKeyDigest sha256 call'.key →
      canonicalJson call.key = canonicalJson call'.key

def refusedWith (testCases : Json) : ReplayCacheAnswer :=
  .invalid ⟨js "refusing to store invalid GeneratedTestCaseList",
    (validateGeneratedTestCaseList testCases).errors⟩

/-- The answer to a call after the calls before it. -/
def Expected (before : List ReplayCacheCall) : ReplayCacheCall → ReplayCacheAnswer → Prop
  | .store _ testCases, answer =>
      if (validateGeneratedTestCaseList testCases).valid then answer = .stored
      else answer = refusedWith testCases
  | .lookup key, answer =>
      match latest key before with
      | none => answer = .found (.miss (computeReplayCacheKeyDigest sha256 key))
      | some testCases => ∃ found, found.Same testCases ∧
          answer = .found (.hit ⟨computeReplayCacheKeyDigest sha256 key, storedAtText, found⟩)

/-- The answers differ at most in the order of object members. -/
def SameAnswer : ReplayCacheAnswer → ReplayCacheAnswer → Prop
  | .found (.hit entry), .found (.hit entry') =>
      entry'.key = entry.key ∧ entry'.storedAt = entry.storedAt ∧
        entry'.testCases.Same entry.testCases
  | answer, answer' => answer = answer'

structure Interchangeable (calls : List ReplayCacheCall) : Prop where
  same : List.Forall₂ SameAnswer (answers (memoryReplayCache sha256) [] calls)
    (answers (fileSystemReplayCache sha256) .blank calls)
  memory : ∀ before call, before ++ [call] <+: calls → Expected sha256 before call
    (memoryReplayCache sha256 (stateAfter (memoryReplayCache sha256) [] before) call).2
  fileSystem : ∀ before call, before ++ [call] <+: calls → Expected sha256 before call
    (fileSystemReplayCache sha256 (stateAfter (fileSystemReplayCache sha256) .blank before) call).2
  refused : ∀ before key testCases after, calls = before ++ .store key testCases :: after →
    (validateGeneratedTestCaseList testCases).valid = false →
      answers (memoryReplayCache sha256)
          (stateAfter (memoryReplayCache sha256) [] (before ++ [.store key testCases])) after =
        answers (memoryReplayCache sha256) (stateAfter (memoryReplayCache sha256) [] before) after ∧
      answers (fileSystemReplayCache sha256)
          (stateAfter (fileSystemReplayCache sha256) .blank (before ++ [.store key testCases])) after =
        answers (fileSystemReplayCache sha256)
          (stateAfter (fileSystemReplayCache sha256) .blank before) after

end

/-! ## Single calls -/

theorem refusal_of_valid {testCases : Json}
    (h : (validateGeneratedTestCaseList testCases).valid = true) : refusal testCases = none := by
  simp [refusal, h]

theorem refusal_of_invalid {testCases : Json}
    (h : (validateGeneratedTestCaseList testCases).valid = false) : refusal testCases =
      some ⟨js "refusing to store invalid GeneratedTestCaseList",
        (validateGeneratedTestCaseList testCases).errors⟩ := by
  simp [refusal, h]

section

variable {sha256 : Bytes → JsString} {calls : List ReplayCacheCall}

theorem memory_lookup_state (store : MemoryReplayCache) (key : Json) :
    (memoryReplayCache sha256 store (.lookup key)).1 = store := by
  rw [memoryReplayCache]
  split <;> rfl

theorem memory_store_of_valid (store : MemoryReplayCache) (key : Json) {testCases : Json}
    (h : (validateGeneratedTestCaseList testCases).valid = true) :
    memoryReplayCache sha256 store (.store key testCases) =
      (mapSet store (computeReplayCacheKeyDigest sha256 key) (newEntry sha256 key testCases),
        .stored) := by
  rw [memoryReplayCache, refusal_of_valid h]
  rfl

theorem memory_store_of_invalid (store : MemoryReplayCache) (key : Json) {testCases : Json}
    (h : (validateGeneratedTestCaseList testCases).valid = false) :
    memoryReplayCache sha256 store (.store key testCases) = (store, refusedWith testCases) := by
  rw [memoryReplayCache, refusal_of_invalid h]
  rfl

theorem fileSystem_lookup (directory : ReplayCacheVolume) (key : Json) :
    fileSystemReplayCache sha256 directory (.lookup key) =
      (directory, readEntry (computeReplayCacheKeyDigest sha256 key)
        (directory.read (fileFor (computeReplayCacheKeyDigest sha256 key)))) := rfl

theorem fileSystem_store_of_invalid (directory : ReplayCacheVolume) (key : Json)
    {testCases : Json} (h : (validateGeneratedTestCaseList testCases).valid = false) :
    fileSystemReplayCache sha256 directory (.store key testCases) =
      (directory, refusedWith testCases) := by
  rw [fileSystemReplayCache, fileSystemProgram, refusal_of_invalid h]
  rfl

/-- The publication of an entry file -/
def entryPublication (entry : ReplayCacheEntry) :
    Publication JsString UInt8 ReplayCacheAnswer where
  temporary := tmpPath entry.key
  target := fileFor entry.key
  content := entryFile entry
  success := .stored
  failure := .notFound (js "rename")

theorem fileSystemProgram_store (key : Json) {testCases : Json}
    (h : (validateGeneratedTestCaseList testCases).valid = true) :
    fileSystemProgram sha256 (.store key testCases) =
      (entryPublication (newEntry sha256 key testCases)).program := by
  rw [fileSystemProgram, refusal_of_valid h]
  rfl

theorem fileSystem_store_of_valid (directory : ReplayCacheVolume) (key : Json) {testCases : Json}
    (h : (validateGeneratedTestCaseList testCases).valid = true) :
    ∃ directory', fileSystemReplayCache sha256 directory (.store key testCases) =
        (directory', .stored) ∧
      ∀ digest, directory'.read (fileFor digest) =
        if digest = computeReplayCacheKeyDigest sha256 key then
          some (entryFile (newEntry sha256 key testCases))
        else directory.read (fileFor digest) := by
  obtain ⟨directory', hexec, hread⟩ :=
    (entryPublication (newEntry sha256 key testCases)).exec_program directory
  refine ⟨directory', ?_, fun digest ↦ ?_⟩
  · rw [fileSystemReplayCache, fileSystemProgram_store key h, hexec]
    rfl
  · rw [hread]
    simp only [entryPublication, newEntry, fileFor_injective.eq_iff, fileFor_ne_tmpPath, if_false]

/-! ## Whole runs -/

/-- The map holds the latest list under each key. -/
def HoldsLatest (sha256 : Bytes → JsString) (calls before : List ReplayCacheCall)
    (store : MemoryReplayCache) : Prop :=
  ∀ call ∈ calls, mapGet store (computeReplayCacheKeyDigest sha256 call.key) =
    (latest call.key before).map (newEntry sha256 call.key)

/-- The files hold the latest list under each key. -/
def FilesLatest (sha256 : Bytes → JsString) (calls before : List ReplayCacheCall)
    (directory : ReplayCacheVolume) : Prop :=
  ∀ call ∈ calls, directory.read (fileFor (computeReplayCacheKeyDigest sha256 call.key)) =
    (latest call.key before).map fun testCases ↦ entryFile (newEntry sha256 call.key testCases)

theorem latest_concat_lookup (key key' : Json) (before : List ReplayCacheCall) :
    latest key (before ++ [.lookup key']) = latest key before := by
  rw [latest_concat, storesUnder, Option.none_or]

theorem latest_concat_invalid (key key' : Json) {testCases : Json} (before : List ReplayCacheCall)
    (h : (validateGeneratedTestCaseList testCases).valid = false) :
    latest key (before ++ [.store key' testCases]) = latest key before := by
  rw [latest_concat, storesUnder, if_neg (by simp [h]), Option.none_or]

theorem latest_concat_valid (key key' : Json) {testCases : Json} (before : List ReplayCacheCall)
    (h : (validateGeneratedTestCaseList testCases).valid = true) :
    latest key (before ++ [.store key' testCases]) =
      if canonicalJson key' = canonicalJson key then some testCases else latest key before := by
  rw [latest_concat, storesUnder]
  by_cases hkey : canonicalJson key' = canonicalJson key <;> simp [h, hkey]

theorem CollisionFree.digest_eq_iff (hfree : CollisionFree sha256 calls) {call call' : ReplayCacheCall}
    (h : call ∈ calls) (h' : call' ∈ calls) :
    computeReplayCacheKeyDigest sha256 call.key = computeReplayCacheKeyDigest sha256 call'.key ↔
      canonicalJson call.key = canonicalJson call'.key := by
  refine ⟨hfree call h call' h', fun heq ↦ ?_⟩
  rw [computeReplayCacheKeyDigest, computeReplayCacheKeyDigest, heq]

theorem HoldsLatest.step (hfree : CollisionFree sha256 calls) {before : List ReplayCacheCall}
    {store : MemoryReplayCache} {call : ReplayCacheCall} (hcall : call ∈ calls)
    (h : HoldsLatest sha256 calls before store) :
    HoldsLatest sha256 calls (before ++ [call]) (memoryReplayCache sha256 store call).1 := by
  intro other hother
  cases call with
  | lookup key => rw [memory_lookup_state, latest_concat_lookup, h other hother]
  | store key testCases =>
      cases hvalid : (validateGeneratedTestCaseList testCases).valid with
      | false =>
          rw [memory_store_of_invalid store key hvalid, latest_concat_invalid _ _ _ hvalid,
            h other hother]
      | true =>
          have hdigest : computeReplayCacheKeyDigest sha256 other.key =
              computeReplayCacheKeyDigest sha256 key ↔ canonicalJson other.key = canonicalJson key :=
            hfree.digest_eq_iff hother hcall
          rw [memory_store_of_valid store key hvalid, latest_concat_valid _ _ _ hvalid,
            mapGet_mapSet, h other hother]
          by_cases hkey : canonicalJson key = canonicalJson other.key
          · have hsame := hdigest.mpr hkey.symm
            rw [if_pos hsame, if_pos hkey, Option.map_some, newEntry, newEntry, hsame]
          · rw [if_neg (fun heq ↦ hkey (hdigest.mp heq).symm), if_neg hkey]

theorem FilesLatest.step (hfree : CollisionFree sha256 calls) {before : List ReplayCacheCall}
    {directory : ReplayCacheVolume} {call : ReplayCacheCall} (hcall : call ∈ calls)
    (h : FilesLatest sha256 calls before directory) :
    FilesLatest sha256 calls (before ++ [call]) (fileSystemReplayCache sha256 directory call).1 := by
  intro other hother
  cases call with
  | lookup key => rw [fileSystem_lookup, latest_concat_lookup, h other hother]
  | store key testCases =>
      cases hvalid : (validateGeneratedTestCaseList testCases).valid with
      | false =>
          rw [fileSystem_store_of_invalid directory key hvalid, latest_concat_invalid _ _ _ hvalid,
            h other hother]
      | true =>
          have hdigest : computeReplayCacheKeyDigest sha256 other.key =
              computeReplayCacheKeyDigest sha256 key ↔ canonicalJson other.key = canonicalJson key :=
            hfree.digest_eq_iff hother hcall
          obtain ⟨directory', hstep, hread⟩ := fileSystem_store_of_valid directory key hvalid
          rw [hstep, latest_concat_valid _ _ _ hvalid, hread, h other hother]
          by_cases hkey : canonicalJson key = canonicalJson other.key
          · have hsame := hdigest.mpr hkey.symm
            rw [if_pos hsame, if_pos hkey, Option.map_some, newEntry, newEntry, hsame]
          · rw [if_neg (fun heq ↦ hkey (hdigest.mp heq).symm), if_neg hkey]

/-- The lists are values of the language, with distinct keys in enumeration order. -/
def OrderedLists (calls : List ReplayCacheCall) : Prop :=
  ∀ key testCases, .store key testCases ∈ calls → testCases.Ordered

/-- The numbers of every valid list are finite, and none of them is negative zero. -/
def PlainLists (calls : List ReplayCacheCall) : Prop :=
  ∀ key testCases, .store key testCases ∈ calls →
    (validateGeneratedTestCaseList testCases).valid = true → testCases.PlainNumbers

theorem HoldsLatest.expected (hordered : OrderedLists calls) {before : List ReplayCacheCall}
    {store : MemoryReplayCache} {call : ReplayCacheCall} (hstart : before ++ [call] <+: calls)
    (h : HoldsLatest sha256 calls before store) :
    Expected sha256 before call (memoryReplayCache sha256 store call).2 := by
  have hbefore : ∀ c ∈ before ++ [call], c ∈ calls := fun c hc ↦ hstart.subset hc
  cases call with
  | store key testCases =>
      cases hvalid : (validateGeneratedTestCaseList testCases).valid with
      | false => simp [Expected, hvalid, memory_store_of_invalid store key hvalid]
      | true => simp [Expected, hvalid, memory_store_of_valid store key hvalid]
  | lookup key =>
      have hget : mapGet store (computeReplayCacheKeyDigest sha256 key) =
          (latest key before).map (newEntry sha256 key) := h (.lookup key) (hbefore _ (by simp))
      cases hlatest : latest key before with
      | none =>
          rw [hlatest] at hget
          simp [Expected, hlatest, memoryReplayCache, hget]
      | some testCases =>
          obtain ⟨-, key', hmem⟩ := mem_of_latest hlatest
          have hlist := hordered key' testCases (hbefore _ (by simp [hmem]))
          rw [hlatest] at hget
          simp only [Expected, hlatest, memoryReplayCache, hget]
          exact ⟨testCases, same_refl hlist, rfl⟩

theorem FilesLatest.expected (hordered : OrderedLists calls) (hplain : PlainLists calls)
    {before : List ReplayCacheCall} {directory : ReplayCacheVolume} {call : ReplayCacheCall}
    (hstart : before ++ [call] <+: calls) (h : FilesLatest sha256 calls before directory) :
    Expected sha256 before call (fileSystemReplayCache sha256 directory call).2 := by
  have hbefore : ∀ c ∈ before ++ [call], c ∈ calls := fun c hc ↦ hstart.subset hc
  cases call with
  | store key testCases =>
      cases hvalid : (validateGeneratedTestCaseList testCases).valid with
      | false => simp [Expected, hvalid, fileSystem_store_of_invalid directory key hvalid]
      | true =>
          obtain ⟨directory', hstep, -⟩ :=
            @fileSystem_store_of_valid sha256 directory key testCases hvalid
          simp [Expected, hvalid, hstep]
  | lookup key =>
      have hread : directory.read (fileFor (computeReplayCacheKeyDigest sha256 key)) =
          (latest key before).map fun testCases ↦ entryFile (newEntry sha256 key testCases) :=
        h (.lookup key) (hbefore _ (by simp))
      cases hlatest : latest key before with
      | none =>
          rw [hlatest] at hread
          simp [Expected, hlatest, fileSystem_lookup, hread, readEntry]
      | some testCases =>
          obtain ⟨hvalid, key', hmem⟩ := mem_of_latest hlatest
          have hlist := hordered key' testCases (hbefore _ (by simp [hmem]))
          have hnumbers := hplain key' testCases (hbefore _ (by simp [hmem])) hvalid
          have hentry : readEntry (computeReplayCacheKeyDigest sha256 key)
              (some (entryFile (newEntry sha256 key testCases))) = _ :=
            @readEntry_entryFile (newEntry sha256 key testCases) hlist hnumbers hvalid
          rw [hlatest] at hread
          simp only [Expected, hlatest, fileSystem_lookup, hread, Option.map_some, hentry]
          exact ⟨stored testCases, stored_same hlist hnumbers
            (valid_stored hlist hnumbers hvalid).1, rfl⟩

/-- The map and the files hold the latest lists after every prefix of the calls. -/
theorem holdsLatest_stateAfter (hfree : CollisionFree sha256 calls) :
    ∀ before, before <+: calls →
      HoldsLatest sha256 calls before (stateAfter (memoryReplayCache sha256) [] before) :=
  stateAfter_induction (fun _ _ ↦ rfl) fun _ _ _ hstart h ↦
    h.step hfree (hstart.subset (by simp))

theorem filesLatest_stateAfter (hfree : CollisionFree sha256 calls) :
    ∀ before, before <+: calls →
      FilesLatest sha256 calls before (stateAfter (fileSystemReplayCache sha256) .blank before) :=
  stateAfter_induction (fun _ _ ↦ rfl) fun _ _ _ hstart h ↦
    h.step hfree (hstart.subset (by simp))

theorem sameAnswer_of_eq {answer answer' : ReplayCacheAnswer} (h : answer = answer')
    (hhit : ∀ entry, answer ≠ .found (.hit entry)) : SameAnswer answer answer' := by
  subst h
  cases answer with
  | found result =>
      cases result with
      | hit entry => exact absurd rfl (hhit entry)
      | miss key => rfl
  | _ => rfl

theorem HoldsLatest.sameAnswer {before : List ReplayCacheCall} {store : MemoryReplayCache}
    {call : ReplayCacheCall} {answer : ReplayCacheAnswer} (hcall : call ∈ calls)
    (h : HoldsLatest sha256 calls before store)
    (hmemory : Expected sha256 before call (memoryReplayCache sha256 store call).2)
    (hanswer : Expected sha256 before call answer) :
    SameAnswer (memoryReplayCache sha256 store call).2 answer := by
  cases call with
  | store key testCases =>
      rw [Expected] at hmemory hanswer
      split at hmemory
      · next hvalid =>
          rw [if_pos hvalid] at hanswer
          apply sameAnswer_of_eq (hmemory.trans hanswer.symm)
          simp [hmemory]
      · next hvalid =>
          rw [if_neg hvalid] at hanswer
          apply sameAnswer_of_eq (hmemory.trans hanswer.symm)
          simp [hmemory, refusedWith]
  | lookup key =>
      have hget : mapGet store (computeReplayCacheKeyDigest sha256 key) =
          (latest key before).map (newEntry sha256 key) := h (.lookup key) hcall
      cases hlatest : latest key before with
      | none =>
          simp only [Expected, hlatest] at hmemory hanswer
          apply sameAnswer_of_eq (hmemory.trans hanswer.symm)
          simp [hmemory]
      | some testCases =>
          simp only [Expected, hlatest] at hanswer
          obtain ⟨found, hsame, rfl⟩ := hanswer
          rw [hlatest] at hget
          simp only [memoryReplayCache, hget]
          exact ⟨rfl, rfl, hsame⟩

/-- The two caches are interchangeable on every sequence of calls that stores no `NaN` and no
negative zero. -/
theorem replayCaches_interchangeable (hfree : CollisionFree sha256 calls)
    (hordered : OrderedLists calls) (hplain : PlainLists calls) : Interchangeable sha256 calls := by
  have hpart : ∀ {before call}, before ++ [call] <+: calls → before <+: calls :=
    fun h ↦ (List.prefix_append _ _).trans h
  have hmemory : ∀ before call, before ++ [call] <+: calls → Expected sha256 before call
      (memoryReplayCache sha256 (stateAfter (memoryReplayCache sha256) [] before) call).2 :=
    fun before _ hstart ↦
      (holdsLatest_stateAfter hfree before (hpart hstart)).expected hordered hstart
  have hfiles : ∀ before call, before ++ [call] <+: calls → Expected sha256 before call
      (fileSystemReplayCache sha256
        (stateAfter (fileSystemReplayCache sha256) .blank before) call).2 :=
    fun before _ hstart ↦
      (filesLatest_stateAfter hfree before (hpart hstart)).expected hordered hplain hstart
  refine ⟨?_, hmemory, hfiles, ?_⟩
  · apply forall₂_answers
    intro before call hstart
    exact (holdsLatest_stateAfter hfree before (hpart hstart)).sameAnswer
      (hstart.subset (by simp)) (hmemory before call hstart) (hfiles before call hstart)
  · intro before key testCases after _ hinvalid
    rw [stateAfter_concat, stateAfter_concat, memory_store_of_invalid _ _ hinvalid,
      fileSystem_store_of_invalid _ _ hinvalid]
    exact ⟨rfl, rfl⟩

end

/-! ## Two calls on one key -/

def sampleKey : Json :=
  objectJson [
    ("inputHash", hashJson),
    ("promptHash", hashJson),
    ("schemaHash", hashJson),
    ("routingPolicyDigest", hashJson),
    ("modelRevision", textJson "m-1"),
    ("gatewayRelease", textJson "g-1"),
    ("policyBundleVersion", textJson "p-1"),
    ("redactionPolicyVersion", textJson "1.0.0"),
    ("visualSidecarSchemaVersion", textJson "1.1.0"),
    ("visualSelectedDeployment", textJson "mock"),
    ("visualFallbackReason", textJson "none"),
    ("promptTemplateVersion", textJson "1.7.3"),
    ("cacheablePrefixHash", hashJson)]

/-- The digest of the sample key. -/
def sampleSha256 : Bytes → JsString :=
  tabled [(utf8Encode (canonicalJson sampleKey),
    js "8a7171819efef86cf92cafabccaec68f054effd1d65a10212dc029cb9b00dc2a")]
    fun _ ↦ List.replicate 64 0x30

def storeAndLookup (confidence : JsNumber) : List ReplayCacheCall :=
  [.store sampleKey (sampleList (js "x") confidence), .lookup sampleKey]

/-- The names are distinct keys in enumeration order. -/
def EnumeratedNames (names : List String) : Prop :=
  (names.map js).Nodup ∧ (names.map js).Pairwise fun k k' ↦ keyBefore k k' = true

instance (names : List String) : Decidable (EnumeratedNames names) :=
  inferInstanceAs (Decidable (_ ∧ _))

theorem ordered_objectJson {members : List (String × Json)} {names : List String}
    (hnames : EnumeratedNames names) (hkeys : members.map Prod.fst = names)
    (hvalues : ∀ member ∈ members, member.2.Ordered) : (objectJson members).Ordered := by
  have hmembers : (members.map fun member ↦ (js member.1, member.2)).map Prod.fst = names.map js := by
    rw [← hkeys, List.map_map, List.map_map]
    rfl
  rw [objectJson, Json.ordered_obj, Enumerated, hmembers]
  refine ⟨hnames, fun p hp ↦ ?_⟩
  obtain ⟨member, hmember, rfl⟩ := List.mem_map.mp hp
  exact hvalues member hmember

theorem ordered_textsJson (texts : List String) : (textsJson texts).Ordered := by
  rw [textsJson, Json.ordered_arr]
  intro v hv
  obtain ⟨text, -, rfl⟩ := List.mem_map.mp hv
  trivial

theorem ordered_sampleAudit : sampleAudit.Ordered := by
  have hnames : EnumeratedNames ["jobId", "generatedAt", "contractVersion", "schemaVersion",
      "promptTemplateVersion", "redactionPolicyVersion", "visualSidecarSchemaVersion", "cacheHit",
      "cacheKey", "inputHash", "promptHash", "schemaHash"] := by decide
  apply ordered_objectJson hnames rfl
  simp [textJson, hashJson]

theorem ordered_sampleList (data : JsString) (confidence : JsNumber) :
    (sampleList data confidence).Ordered := by
  have hstep : (objectJson [("index", .num 1), ("action", .str (js "Submit")),
      ("data", .str data)]).Ordered := by
    have hnames : EnumeratedNames ["index", "action", "data"] := by decide
    apply ordered_objectJson hnames rfl
    simp
  have hmapping : (objectJson [("exportable", .bool true)]).Ordered := by
    have hnames : EnumeratedNames ["exportable"] := by decide
    apply ordered_objectJson hnames rfl
    simp
  have hsignals : (objectJson [("coveredFieldIds", textsJson []),
      ("coveredActionIds", textsJson []), ("coveredValidationIds", textsJson []),
      ("coveredNavigationIds", textsJson []), ("confidence", .num confidence)]).Ordered := by
    have hnames : EnumeratedNames ["coveredFieldIds", "coveredActionIds", "coveredValidationIds",
        "coveredNavigationIds", "confidence"] := by decide
    apply ordered_objectJson hnames rfl
    simp [ordered_textsJson]
  have hroot : EnumeratedNames ["schemaVersion", "jobId", "testCases"] := by decide
  have hcase : EnumeratedNames ["id", "sourceJobId", "contractVersion", "schemaVersion",
      "promptTemplateVersion", "title", "objective", "level", "type", "priority", "riskCategory",
      "technique", "preconditions", "testData", "steps", "expectedResults", "figmaTraceRefs",
      "assumptions", "openQuestions", "qcMappingPreview", "qualitySignals", "reviewState",
      "audit"] := by decide
  apply ordered_objectJson hroot rfl
  simp only [List.forall_mem_cons, Json.ordered_arr]
  refine ⟨trivial, trivial, ⟨?_, by simp⟩, by simp⟩
  apply ordered_objectJson hcase rfl
  simp only [List.forall_mem_cons, Json.ordered_arr, ordered_sampleAudit, hstep, hmapping,
    hsignals, ordered_textsJson, textJson, Json.ordered_str, true_and]
  simp

theorem collisionFree_storeAndLookup (sha256 : Bytes → JsString) (confidence : JsNumber) :
    CollisionFree sha256 (storeAndLookup confidence) := by
  have hkey : ∀ call ∈ storeAndLookup confidence, call.key = sampleKey := by
    simp [storeAndLookup, ReplayCacheCall.key]
  intro call hcall call' hcall' _
  rw [hkey call hcall, hkey call' hcall']

theorem orderedLists_storeAndLookup (confidence : JsNumber) :
    OrderedLists (storeAndLookup confidence) := by
  intro key testCases h
  obtain ⟨-, rfl⟩ : key = sampleKey ∧ testCases = sampleList (js "x") confidence := by
    simpa [storeAndLookup] using h
  exact ordered_sampleList _ _

theorem plainNumbers_objectJson {members : List (String × Json)}
    (h : ∀ member ∈ members, member.2.PlainNumbers) : (objectJson members).PlainNumbers := by
  rw [objectJson, Json.plainNumbers_obj]
  intro p hp
  obtain ⟨member, hmember, rfl⟩ := List.mem_map.mp hp
  exact h member hmember

theorem plainNumbers_str (s : JsString) : (Json.str s).PlainNumbers := trivial

theorem plainNumbers_bool (b : Bool) : (Json.bool b).PlainNumbers := trivial

theorem plainNumbers_one : (Json.num 1).PlainNumbers :=
  ⟨_, JsNumber.ofRat_of_round64 JsNumber.round64_one (by decide)⟩

theorem plainNumbers_sampleList (data : JsString) : (sampleList data 1).PlainNumbers := by
  have haudit : sampleAudit.PlainNumbers := by
    apply plainNumbers_objectJson
    simp [textJson, hashJson, plainNumbers_str, plainNumbers_bool]
  apply plainNumbers_objectJson
  simp only [List.forall_mem_cons, Json.plainNumbers_arr]
  refine ⟨trivial, trivial, ⟨plainNumbers_objectJson ?_, by simp⟩, by simp⟩
  simp [haudit, textJson, textsJson, plainNumbers_str, plainNumbers_bool, plainNumbers_one,
    plainNumbers_objectJson]

theorem plainLists_storeAndLookup : PlainLists (storeAndLookup 1) := by
  intro key testCases h _
  obtain ⟨-, rfl⟩ : key = sampleKey ∧ testCases = sampleList (js "x") 1 := by
    simpa [storeAndLookup] using h
  exact plainNumbers_sampleList _

theorem replayCaches_interchangeable_sample : Interchangeable sampleSha256 (storeAndLookup 1) :=
  replayCaches_interchangeable (collisionFree_storeAndLookup _ _) (orderedLists_storeAndLookup _)
    plainLists_storeAndLookup

/-- The file of a list with a `NaN` fails the second validation. -/
theorem readEntry_of_invalid_stored {entry : ReplayCacheEntry} (hordered : entry.testCases.Ordered)
    (hobject : isObjectValue entry.testCases = true)
    (hinvalid : (validateGeneratedTestCaseList (stored entry.testCases)).valid = false) :
    ∃ error, readEntry entry.key (some (entryFile entry)) = .invalid error := by
  have hread : utf8Decode (utf8Encode (canonicalJson entry.toJson)) = canonicalJson entry.toJson :=
    utf8Decode_utf8Encode (isWellFormed_stringify _)
  rw [entryFile, readEntry, hread, parse_canonicalJson_stored (ordered_entry_json hordered)]
  simp [decodeEntry_stored hordered hobject, hinvalid]

/-- The caches differ on a valid list that is not valid any more when its file is read. -/
theorem not_interchangeable_of_stored_invalid {sha256 : Bytes → JsString} {key testCases : Json}
    (hordered : testCases.Ordered)
    (hvalid : (validateGeneratedTestCaseList testCases).valid = true)
    (hinvalid : (validateGeneratedTestCaseList (stored testCases)).valid = false) :
    ¬Interchangeable sha256 [.store key testCases, .lookup key] := by
  intro h
  obtain ⟨directory, hstore, hread⟩ := @fileSystem_store_of_valid sha256 .blank key _ hvalid
  have hexpected := h.fileSystem [.store key testCases] (.lookup key) (List.prefix_refl _)
  obtain ⟨error, herror⟩ : ∃ error, readEntry (computeReplayCacheKeyDigest sha256 key)
      (some (entryFile (newEntry sha256 key testCases))) = .invalid error :=
    @readEntry_of_invalid_stored (newEntry sha256 key testCases) hordered
      (isObjectValue_of_valid hvalid) hinvalid
  have hlatest : latest key [.store key testCases] = some testCases := by
    simp [latest, storesUnder, hvalid]
  have hstate : stateAfter (fileSystemReplayCache sha256) .blank [.store key testCases] =
      directory := congrArg Prod.fst hstore
  simp only [Expected, hlatest, hstate, fileSystem_lookup, hread, if_pos, herror] at hexpected
  obtain ⟨found, -, hfound⟩ := hexpected
  cases hfound

/-- A confidence of `NaN` passes the validator, but its file fails it. -/
theorem sampleList_nan_verdicts :
    (validateGeneratedTestCaseList (sampleList (js "x") .nan)).valid = true ∧
      (validateGeneratedTestCaseList (stored (sampleList (js "x") .nan))).valid = false :=
  ⟨sampleList_verdicts.1 .nan (by simp), by decide +kernel⟩

theorem nan_confidence_not_interchangeable :
    ¬ ∀ (sha256 : Bytes → JsString) (calls : List ReplayCacheCall), CollisionFree sha256 calls →
      OrderedLists calls → Interchangeable sha256 calls := by
  intro h
  have hrun := h sampleSha256 _ (collisionFree_storeAndLookup _ .nan)
    (orderedLists_storeAndLookup .nan)
  exact not_interchangeable_of_stored_invalid (ordered_sampleList _ _)
    sampleList_nan_verdicts.1 sampleList_nan_verdicts.2 hrun

end TestIntelligence.ModelGateway
