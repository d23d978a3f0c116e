import TestIntelligence.ModelGateway.ReplayCache

/-!
# Concurrent calls on a replay cache directory

The temporary file of a store is named by its key alone.  Where a store opens it only while
no other store of that key is between its own opening and its rename, no lookup sees a half
written entry.
-/

namespace TestIntelligence.ModelGateway

open Js Security CoreEngine Files Systems

abbrev ReplayCacheSystem (ι : Type*) := System ι JsString UInt8 ReplayCacheAnswer

variable {ι : Type*}

/-- Calls that were made and have performed no step. -/
def startCalls (sha256 : Bytes → JsString) (calls : ι → ReplayCacheCall) : ReplayCacheSystem ι :=
  .start fun i ↦ fileSystemProgram sha256 (calls i)

/-- A call as a publication, a reader or neither. -/
def callOf (sha256 : Bytes → JsString) : ReplayCacheCall → Files.Call JsString UInt8 ReplayCacheAnswer
  | .lookup key =>
      .observe (fileFor (computeReplayCacheKeyDigest sha256 key))
        (readEntry (computeReplayCacheKeyDigest sha256 key))
  | .store key testCases =>
      match refusal testCases with
      | some error => .return (.invalid error)
      | none => .publish (entryPublication (newEntry sha256 key testCases))

theorem program_callOf (sha256 : Bytes → JsString) (call : ReplayCacheCall) :
    (callOf sha256 call).program = fileSystemProgram sha256 call := by
  cases call with
  | lookup key => rfl
  | store key testCases =>
      rw [callOf, fileSystemProgram]
      cases refusal testCases <;> rfl

theorem callOf_store {sha256 : Bytes → JsString} (key : Json) {testCases : Json}
    (h : (validateGeneratedTestCaseList testCases).valid = true) :
    callOf sha256 (.store key testCases) =
      .publish (entryPublication (newEntry sha256 key testCases)) := by
  rw [callOf, refusal_of_valid h]

/-- Only a valid store publishes. -/
theorem store_of_callOf_publish {sha256 : Bytes → JsString} {call : ReplayCacheCall}
    {p : Publication JsString UInt8 ReplayCacheAnswer} (h : callOf sha256 call = .publish p) :
    ∃ testCases, call = .store call.key testCases ∧
      (validateGeneratedTestCaseList testCases).valid = true ∧
      p = entryPublication (newEntry sha256 call.key testCases) := by
  cases call with
  | lookup key => cases h
  | store key testCases =>
      cases hvalid : (validateGeneratedTestCaseList testCases).valid with
      | false =>
          rw [callOf, refusal_of_invalid hvalid] at h
          cases h
      | true =>
          rw [callOf_store key hvalid] at h
          cases h
          exact ⟨testCases, rfl, hvalid, rfl⟩

/-! ## What the calls must not do -/

/-- A store of the list under the key that was carried out. -/
def WasStored (calls : ι → ReplayCacheCall) (s : ReplayCacheSystem ι) (key testCases : Json) : Prop :=
  ∃ j key', calls j = .store key' testCases ∧ canonicalJson key' = canonicalJson key ∧
    (validateGeneratedTestCaseList testCases).valid = true ∧ s.threads j = .ready (.done .stored)

/-- No store of a valid list fails, and no lookup returns anything but a miss or a list that was
stored under its key. -/
structure NothingHalfWritten (sha256 : Bytes → JsString) (calls : ι → ReplayCacheCall)
    (s : ReplayCacheSystem ι) : Prop where
  stores : ∀ {i key testCases answer}, calls i = .store key testCases →
    (validateGeneratedTestCaseList testCases).valid = true →
    s.threads i = .ready (.done answer) → answer = .stored
  lookups : ∀ {i key answer}, calls i = .lookup key → s.threads i = .ready (.done answer) →
    answer = .found (.miss (computeReplayCacheKeyDigest sha256 key)) ∨
      ∃ testCases found, WasStored calls s key testCases ∧ found.Same testCases ∧
        answer = .found (.hit ⟨computeReplayCacheKeyDigest sha256 key, storedAtText, found⟩)

/-- The call opens its temporary file while no other call on its key has it open. -/
def OpensKeyAlone (calls : ι → ReplayCacheCall) (s : ReplayCacheSystem ι) (action : ι × ℕ) : Prop :=
  ∀ j, j ≠ action.1 → canonicalJson (calls j).key = canonicalJson (calls action.1).key →
    ∀ name content next, s.threads action.1 = .ready (.writeFile name content next) →
      ¬(s.threads j).IsOpen

/-- SHA-256 does not confuse the keys of the calls, and its digests have 64 digits. -/
structure DigestsKeys (sha256 : Bytes → JsString) (calls : ι → ReplayCacheCall) : Prop where
  length : ∀ bytes, (sha256 bytes).length = 64
  injective : ∀ i j, computeReplayCacheKeyDigest sha256 (calls i).key =
    computeReplayCacheKeyDigest sha256 (calls j).key →
      canonicalJson (calls i).key = canonicalJson (calls j).key

/-- The stored valid lists are values of the language whose numbers are finite and not negative
zero. -/
def PlainStores (calls : ι → ReplayCacheCall) : Prop :=
  ∀ i key testCases, calls i = .store key testCases →
    (validateGeneratedTestCaseList testCases).valid = true →
    testCases.Ordered ∧ testCases.PlainNumbers

section

variable {sha256 : Bytes → JsString} {calls : ι → ReplayCacheCall}

theorem tmpPath_injOn {digest digest' : JsString} (h : digest.length = digest'.length)
    (heq : tmpPath digest = tmpPath digest') : digest = digest' := by
  rw [tmpPath, tmpPath, fileFor, fileFor, List.append_assoc, List.append_assoc, List.append_assoc,
    List.append_assoc, List.append_assoc, List.append_assoc] at heq
  exact (List.append_inj heq h).1

theorem separate_callOf : Separate fun i ↦ callOf sha256 (calls i) where
  target := by
    intro i j p q hp hq heq
    obtain ⟨_, -, -, rfl⟩ := store_of_callOf_publish hp
    obtain ⟨_, -, -, rfl⟩ := store_of_callOf_publish hq
    exact fileFor_ne_tmpPath _ _ heq.symm
  observed := by
    intro i j p name answer hp hname heq
    obtain ⟨_, -, -, rfl⟩ := store_of_callOf_publish hp
    cases hcall : calls j with
    | lookup key =>
        rw [hcall] at hname
        cases hname
        exact fileFor_ne_tmpPath _ _ heq.symm
    | store key testCases =>
        rw [hcall, callOf] at hname
        split at hname <;> cases hname

theorem startCalls_eq : startCalls sha256 calls =
    .start fun i ↦ (callOf sha256 (calls i)).program := by
  simp only [startCalls, program_callOf]

theorem OpensKeyAlone.opensAlone (hkeys : DigestsKeys sha256 calls) {s : ReplayCacheSystem ι}
    {action : ι × ℕ} (h : OpensKeyAlone calls s action) :
    OpensAlone (fun i ↦ callOf sha256 (calls i)) s action := by
  intro p q j hp hq hji htemporary hthread
  obtain ⟨list, -, -, rfl⟩ := store_of_callOf_publish hp
  obtain ⟨list', -, -, rfl⟩ := store_of_callOf_publish hq
  have hdigest := tmpPath_injOn ((hkeys.length _).trans (hkeys.length _).symm) htemporary
  exact h j hji (hkeys.injective _ _ hdigest) _ _ _ hthread

theorem nothingHalfWritten_of_inv (hkeys : DigestsKeys sha256 calls) (hplain : PlainStores calls)
    {s : ReplayCacheSystem ι} (h : PublishingInv (fun i ↦ callOf sha256 (calls i)) s) :
    NothingHalfWritten sha256 calls s := by
  constructor
  · intro i key testCases answer hcall hvalid hthread
    have hpublish : callOf sha256 (calls i) =
        .publish (entryPublication (newEntry sha256 key testCases)) := by
      rw [hcall, callOf_store key hvalid]
    have hstanding := h.standing hpublish
    rw [hthread] at hstanding
    cases hstanding
    rfl
  · intro i key answer hcall hthread
    have hobserve : callOf sha256 (calls i) = .observe
        (fileFor (computeReplayCacheKeyDigest sha256 key))
        (readEntry (computeReplayCacheKeyDigest sha256 key)) := by
      rw [hcall, callOf]
    rcases h.observing hobserve with hwaiting | hnone | ⟨content, hfile, hsome⟩
    · rw [hthread] at hwaiting
      cases hwaiting
    · rw [hthread] at hnone
      cases hnone
      exact .inl rfl
    · rw [hthread] at hsome
      cases hsome
      obtain ⟨j, q, hj, hdone, htarget, rfl⟩ := hfile
      obtain ⟨testCases, hstore, hvalid, rfl⟩ := store_of_callOf_publish hj
      obtain ⟨hordered, hnumbers⟩ := hplain j _ testCases hstore hvalid
      have hdigest : computeReplayCacheKeyDigest sha256 (calls j).key =
          computeReplayCacheKeyDigest sha256 key := fileFor_injective htarget
      have hread : readEntry (computeReplayCacheKeyDigest sha256 (calls j).key)
          (some (entryFile (newEntry sha256 (calls j).key testCases))) = _ :=
        @readEntry_entryFile (newEntry sha256 (calls j).key testCases) hordered hnumbers hvalid
      have hkey : canonicalJson (calls j).key = canonicalJson key := by
        have hinjective := hkeys.injective j i
        rw [hcall] at hinjective
        exact hinjective hdigest
      refine .inr ⟨testCases, stored testCases, ⟨j, _, hstore, hkey, hvalid, hdone⟩,
        stored_same hordered hnumbers (valid_stored hordered hnumbers hvalid).1, ?_⟩
      have hcontent : (entryPublication (newEntry sha256 (calls j).key testCases)).content =
          entryFile (newEntry sha256 (calls j).key testCases) := by
        unfold entryPublication
        dsimp only
      rw [← hdigest, hcontent]
      exact hread

variable [DecidableEq ι]

/-- In every run whose stores open their temporary files alone, no lookup sees a half written
entry, and a store that takes enough steps succeeds. -/
theorem noHalfWrittenEntries (hkeys : DigestsKeys sha256 calls) (hplain : PlainStores calls)
    {actions : List (ι × ℕ)}
    (hmeets : MeetsAlong System.step (OpensKeyAlone calls) (startCalls sha256 calls) actions) :
    Always System.step (NothingHalfWritten sha256 calls) (startCalls sha256 calls) actions ∧
      ∀ i key testCases, calls i = .store key testCases →
        (validateGeneratedTestCaseList testCases).valid = true →
        (entryFile (newEntry sha256 key testCases)).length + 4 ≤ actions.countP (·.1 = i) →
        (run System.step (startCalls sha256 calls) actions).threads i = .ready (.done .stored) := by
  have halone := hmeets.mono fun s action ↦ OpensKeyAlone.opensAlone hkeys
  rw [startCalls_eq] at halone ⊢
  have hinv := always_publishingInv separate_callOf halone
  refine ⟨fun done hdone ↦ nothingHalfWritten_of_inv hkeys hplain (hinv done hdone), ?_⟩
  intro i key testCases hcall hvalid hcount
  have hpublish : callOf sha256 (calls i) =
      .publish (entryPublication (newEntry sha256 key testCases)) := by
    rw [hcall, callOf_store key hvalid]
  have hleft := stepsLeft_run separate_callOf hpublish (publishingInv_start _) halone
  have hfirst : stepsLeft ((System.start fun i ↦ (callOf sha256 (calls i)).program).threads i) =
      (entryFile (newEntry sha256 key testCases)).length + 4 := by
    simp only [System.start, hpublish]
    rfl
  rw [hfirst] at hleft
  have hstanding := (hinv actions (List.prefix_refl _)).standing hpublish
  exact hstanding.published_of_stepsLeft (by omega)

/-! ## A store by itself -/

theorem threads_run_of_ne {s : ReplayCacheSystem ι} {i j : ι} (hij : j ≠ i)
    {actions : List (ι × ℕ)} (hactions : ∀ action ∈ actions, action.1 = i) :
    (run System.step s actions).threads j = s.threads j := by
  induction actions generalizing s with
  | nil => rfl
  | cons action actions ih =>
      obtain ⟨hhead, htail⟩ := List.forall_mem_cons.mp hactions
      obtain ⟨k, n⟩ := action
      obtain rfl : k = i := hhead
      rw [run_cons, ih htail, System.threads_step_of_ne s hij]

/-- The steps of one call meet the condition where nothing else is open. -/
theorem opensKeyAlone_by_one {s : ReplayCacheSystem ι} {i : ι}
    (hopen : ∀ j, j ≠ i → ¬(s.threads j).IsOpen) {actions : List (ι × ℕ)}
    (hactions : ∀ action ∈ actions, action.1 = i) :
    MeetsAlong System.step (OpensKeyAlone calls) s actions := by
  induction actions generalizing s with
  | nil => trivial
  | cons action actions ih =>
      obtain ⟨hhead, htail⟩ := List.forall_mem_cons.mp hactions
      obtain ⟨k, n⟩ := action
      obtain rfl : k = i := hhead
      refine ⟨fun j hji _ _ _ _ _ ↦ hopen j hji, ih (fun j hji ↦ ?_) htail⟩
      rw [System.threads_step_of_ne s hji]
      exact hopen j hji

end

theorem entryFile_ne_nil (entry : ReplayCacheEntry) : entryFile entry ≠ [] := by
  intro h
  have hread := congrArg utf8Decode h
  have hentry : utf8Decode (entryFile entry) = canonicalJson entry.toJson :=
    utf8Decode_utf8Encode (isWellFormed_stringify _)
  rw [hentry, ReplayCacheEntry.toJson, canonicalJson, sortValue_obj, Json.stringify] at hread
  cases hread

/-- Two valid stores of one key: where both write before they rename, the second one fails. -/
theorem overlapping_stores_fail {ι : Type*} [DecidableEq ι] {sha256 : Bytes → JsString}
    {calls : ι → ReplayCacheCall} {i j : ι} (hij : i ≠ j) {key testCases testCases' : Json}
    (hi : calls i = .store key testCases) (hj : calls j = .store key testCases')
    (hvalid : (validateGeneratedTestCaseList testCases).valid = true)
    (hvalid' : (validateGeneratedTestCaseList testCases').valid = true) :
    ∃ actions, (run System.step (startCalls sha256 calls) actions).threads j =
      .ready (.done (.notFound (js "rename"))) := by
  have hpublish : callOf sha256 (calls i) =
      .publish (entryPublication (newEntry sha256 key testCases)) := by
    rw [hi, callOf_store key hvalid]
  have hpublish' : callOf sha256 (calls j) =
      .publish (entryPublication (newEntry sha256 key testCases')) := by
    rw [hj, callOf_store key hvalid']
  rw [startCalls_eq]
  exact ⟨_, @overlap_fails ι _ _ _ _ (fun i ↦ callOf sha256 (calls i)) i _ _ _ _ j hpublish hpublish' hij rfl (fileFor_ne_tmpPath _ _).symm
    (entryFile_ne_nil _) (entryFile_ne_nil _)⟩

/-! ## A store and a lookup, and two stores -/

theorem length_sampleSha256 (bytes : Bytes) : (sampleSha256 bytes).length = 64 := by
  apply @tabled_of_forall _ _ (fun digest ↦ digest.length = 64)
  · rw [List.forall_mem_singleton, js_ofList]
    rfl
  · exact fun _ ↦ List.length_replicate

def storeThenLookup : Fin 2 → ReplayCacheCall
  | 0 => .store sampleKey (sampleList (js "x") 1)
  | 1 => .lookup sampleKey

def storeTwice : Fin 2 → ReplayCacheCall := fun _ ↦ .store sampleKey (sampleList (js "x") 1)

theorem key_storeThenLookup : ∀ i, (storeThenLookup i).key = sampleKey
  | 0 => rfl
  | 1 => rfl

theorem digestsKeys_of_sampleKey {calls : Fin 2 → ReplayCacheCall}
    (h : ∀ i, (calls i).key = sampleKey) : DigestsKeys sampleSha256 calls where
  length := length_sampleSha256
  injective := fun i j _ ↦ by rw [h i, h j]

theorem plainStores_of_sampleList {calls : Fin 2 → ReplayCacheCall}
    (h : ∀ i key testCases, calls i = .store key testCases → testCases = sampleList (js "x") 1) :
    PlainStores calls := by
  intro i key testCases hcall _
  obtain rfl := h i key testCases hcall
  exact ⟨ordered_sampleList _ _, plainNumbers_sampleList _⟩

theorem storeThenLookup_store (i : Fin 2) (key testCases : Json)
    (h : storeThenLookup i = .store key testCases) : testCases = sampleList (js "x") 1 := by
  match i with
  | 0 =>
      injection h with _ hlist
      exact hlist.symm
  | 1 => cases h

theorem noHalfWrittenEntries_sample :
    let actions := writeAll 0 (entryPublication (newEntry sampleSha256 sampleKey
      (sampleList (js "x") 1))) ++ [(0, 0)] ++ [(1, 0)]
    Always System.step (NothingHalfWritten sampleSha256 storeThenLookup)
      (startCalls sampleSha256 storeThenLookup) actions := by
  intro actions
  have hstore : ∀ action ∈ writeAll (0 : Fin 2) (entryPublication (newEntry sampleSha256 sampleKey
      (sampleList (js "x") 1))) ++ [(0, 0)], action.1 = 0 := by
    simp [writeAll]
  have hlookup : (startCalls sampleSha256 storeThenLookup).threads 1 =
      .ready (fileSystemProgram sampleSha256 (.lookup sampleKey)) := rfl
  refine (noHalfWrittenEntries (digestsKeys_of_sampleKey key_storeThenLookup)
    (plainStores_of_sampleList storeThenLookup_store) (meetsAlong_append.mpr ⟨?_, ?_⟩)).1
  · apply opensKeyAlone_by_one _ hstore
    intro j hj
    obtain rfl : j = 1 := by omega
    rw [hlookup]
    exact id
  · refine ⟨fun j _ _ name content next hthread ↦ ?_, trivial⟩
    rw [threads_run_of_ne (by decide) hstore, hlookup] at hthread
    cases hthread

/-- The stores of one key share a temporary file, so that one of them may find it gone. -/
theorem second_store_fails :
    ¬ ∀ (sha256 : Bytes → JsString) (calls : Fin 2 → ReplayCacheCall) (actions : List (Fin 2 × ℕ)),
      DigestsKeys sha256 calls → PlainStores calls →
      Always System.step (NothingHalfWritten sha256 calls) (startCalls sha256 calls) actions := by
  intro h
  have hvalid := sampleList_verdicts.1 1 (by simp)
  have hplain : PlainStores storeTwice := by
    apply plainStores_of_sampleList
    intro i key testCases hcall
    injection hcall with _ hlist
    exact hlist.symm
  obtain ⟨actions, hfails⟩ : ∃ actions, (run System.step (startCalls sampleSha256 storeTwice)
      actions).threads 1 = .ready (.done (.notFound (js "rename"))) :=
    @overlapping_stores_fail _ _ _ _ 0 1 (by decide) _ _ _ rfl rfl hvalid hvalid
  have hnothing := h sampleSha256 storeTwice actions (digestsKeys_of_sampleKey fun _ ↦ rfl) hplain
    actions (List.prefix_refl _)
  have hstored := @hnothing.stores 1 _ _ _ rfl hvalid hfails
  cases hstored

end TestIntelligence.ModelGateway
