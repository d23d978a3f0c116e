import TestIntelligence.Integrations.ExecutionEvidence
import TestIntelligence.Js.JsonText
import TestIntelligence.Security.Digests

/-!
# What the corpus of execution evidence holds

The corpus is the fold of the writes of the accepted entries.  Its paths are functions of the
signed bodies, so that a record is found for each accepted body and no body has two records.
The rest of a record comes from the entry that was written last: where entries have signed
members only, and a body is accepted under one key, the records hold what was signed and the
summary of the dossier does not depend on the order of the calls.
-/

namespace TestIntelligence.Integrations

open Js Security

/-! ## The shape of an entry -/

theorem ite_some_eq_none_iff {α : Type*} {c : Prop} [Decidable c] {a : α} {b : Option α} :
    (if c then some a else b) = none ↔ ¬ c ∧ b = none := by
  by_cases hc : c
  · simp [hc]
  · simp [hc]

/-- What the loop relies on in an entry that passed `validateEvidenceShape`. -/
structure HasEvidenceShape (evidence : Json) : Prop where
  signedTexts : ∀ key ∈ signedKeys, ∀ value, property evidence key = some value →
    ∃ s, value = .str s
  verdict : allowedVerdict (property evidence (js "executionVerdict")) ≠ none
  executedAt : isUtcTimestamp (text evidence "executedAt") = true
  signature : ∃ s, property evidence (js "attestationSignatureHex") = some (.str s)

theorem exists_str_of_isTextWith {check : JsString → Bool} {member : Option Json} {value : Json}
    (h : isTextWith check member = true) (hvalue : member = some value) : ∃ s, value = .str s := by
  obtain ⟨s, hs, -⟩ := isTextWith_eq_true h
  rw [hvalue] at hs
  exact ⟨s, Option.some.inj hs⟩

theorem exists_str_of_allowedVerdict {member : Option Json} {value : Json}
    (h : allowedVerdict member ≠ none) (hvalue : member = some value) : ∃ s, value = .str s := by
  obtain ⟨verdict, hverdict⟩ := Option.ne_none_iff_exists'.mp h
  unfold allowedVerdict at hverdict
  have hcheck := List.find?_some hverdict
  exact exists_str_of_isTextWith hcheck hvalue

theorem hasEvidenceShape_of_validate {evidence : Json}
    (h : validateEvidenceShape evidence = none) : HasEvidenceShape evidence := by
  unfold validateEvidenceShape at h
  simp only [ite_some_eq_none_iff, Bool.not_eq_true', Bool.not_eq_false, Bool.and_eq_true,
    not_and] at h
  obtain ⟨-, htestCaseId, htenantId, hadapterId, hcaseId, hverdict, hreviewer, hrationale,
    hexecutedAt, hsignature, -⟩ := h
  refine ⟨?_, hverdict, ?_, ?_⟩
  · intro key hkey value hvalue
    simp only [signedKeys, List.mem_cons, List.not_mem_nil, or_false] at hkey
    rcases hkey with rfl | rfl | rfl | rfl | rfl | rfl | rfl | rfl
    · exact exists_str_of_isTextWith htestCaseId hvalue
    · exact exists_str_of_isTextWith htenantId hvalue
    · exact exists_str_of_isTextWith hadapterId hvalue
    · exact exists_str_of_isTextWith hcaseId hvalue
    · exact exists_str_of_allowedVerdict hverdict hvalue
    · exact exists_str_of_isTextWith hexecutedAt hvalue
    · exact exists_str_of_isTextWith (hreviewer (Option.isSome_of_eq_some hvalue)) hvalue
    · exact exists_str_of_isTextWith (hrationale (Option.isSome_of_eq_some hvalue)) hvalue
  · obtain ⟨s, hs, htimestamp⟩ := isTextWith_eq_true hexecutedAt
    rw [text, hs]
    exact htimestamp
  · obtain ⟨s, hs, -⟩ := isTextWith_eq_true hsignature
    exact ⟨s, hs⟩

theorem HasEvidenceShape.exists_obj {evidence : Json} (h : HasEvidenceShape evidence) :
    ∃ members, evidence = .obj members := by
  obtain ⟨s, hs⟩ := h.signature
  cases evidence with
  | obj members => exact ⟨members, rfl⟩
  | _ => cases hs

/-! ## Signed bodies -/

def signedFields (evidence : Json) : List (JsString × Option Json) :=
  signedKeys.map fun key ↦ (key, property evidence key)

theorem keys_signedFields (evidence : Json) : (signedFields evidence).map Prod.fst =
    ["testCaseId", "tenantId", "tmsAdapterId", "tmsCaseId", "executionVerdict", "executedAt",
      "reviewerVerdict", "reviewerRationale"].map js := rfl

theorem enumerated_signedFields (evidence : Json) : Enumerated (signedFields evidence) :=
  enumerated_of_names (keys_signedFields evidence) (by decide) (by decide)

theorem proto_notMem_signedFields (evidence : Json) :
    protoKey ∉ (signedFields evidence).map Prod.fst := by
  rw [keys_signedFields, protoKey, List.mem_map_of_injective js_injective]
  decide

theorem ne_proto_of_mem_signedKeys {key : JsString} (h : key ∈ signedKeys) : key ≠ protoKey := by
  rintro rfl
  exact proto_notMem_signedFields .null (by simpa [signedFields] using h)

theorem property_stripSignature {key : JsString} (hkey : key ∈ signedKeys) (evidence : Json) :
    property (stripSignature evidence) key = property evidence key := by
  have hfields := (enumerated_signedFields evidence).1
  have hmem : (key, property evidence key) ∈ signedFields evidence :=
    List.mem_map.mpr ⟨key, hkey, rfl⟩
  change mapGet (presentMembers (signedFields evidence)) key = _
  rw [mapGet_presentMembers hfields, mapGet_eq_some_of_mem hfields hmem, Option.join_some]

theorem property_stored {evidence : Json} (hordered : evidence.Ordered) {key : JsString}
    (hkey : key ≠ protoKey) : property (stored evidence) key = (property evidence key).map stored := by
  cases evidence with
  | obj members => exact property_stored_obj (Json.ordered_obj.mp hordered).1.1 hkey
  | arr items => rw [stored_arr]; rfl
  | num x =>
      cases x <;> rfl
  | _ => rfl

theorem HasEvidenceShape.property_stored {evidence : Json} (h : HasEvidenceShape evidence)
    (hordered : evidence.Ordered) {key : JsString} (hkey : key ∈ signedKeys) :
    property (stored evidence) key = property evidence key := by
  rw [Integrations.property_stored hordered (ne_proto_of_mem_signedKeys hkey)]
  cases hvalue : property evidence key with
  | none => rfl
  | some value =>
      obtain ⟨s, rfl⟩ := h.signedTexts key hkey value hvalue
      rfl

/-- Writing and reading an entry leaves its signed part alone. -/
theorem HasEvidenceShape.stripSignature_stored {evidence : Json} (h : HasEvidenceShape evidence)
    (hordered : evidence.Ordered) : stripSignature (stored evidence) = stripSignature evidence := by
  have hfields : signedFields (stored evidence) = signedFields evidence := by
    apply List.map_congr_left
    intro key hkey
    rw [h.property_stored hordered hkey]
  exact congrArg (fun fields ↦ Json.obj (presentMembers fields)) hfields

theorem HasEvidenceShape.ordered_of_mem_signedFields {evidence : Json}
    (h : HasEvidenceShape evidence) :
    ∀ field ∈ signedFields evidence, ∀ value ∈ field.2, value.Ordered := by
  intro field hfield value hvalue
  obtain ⟨key, hkey, rfl⟩ := List.mem_map.mp hfield
  obtain ⟨s, rfl⟩ := h.signedTexts key hkey value hvalue
  trivial

/-- The signed bytes determine the signed part. -/
theorem HasEvidenceShape.stripSignature_eq {evidence evidence' : Json}
    (h : HasEvidenceShape evidence) (h' : HasEvidenceShape evidence')
    (heq : canonicalJson (stripSignature evidence) = canonicalJson (stripSignature evidence')) :
    stripSignature evidence = stripSignature evidence' := by
  have hfields := fields_eq_of_canonicalJson_eq
    ((keys_signedFields evidence).trans (keys_signedFields evidence').symm)
    (enumerated_signedFields evidence) (proto_notMem_signedFields evidence)
    h.ordered_of_mem_signedFields h'.ordered_of_mem_signedFields heq
  simp only [signedFields, List.map_map] at hfields
  have hsame : signedFields evidence = signedFields evidence' := by
    apply List.map_congr_left
    intro key hkey
    have hvalue := List.map_inj_left.mp hfields key hkey
    cases hp : property evidence key with
    | none =>
        rw [Function.comp_apply, Function.comp_apply, hp, Option.map_none] at hvalue
        have hp' : property evidence' key = none := Option.map_eq_none_iff.mp hvalue.symm
        rw [hp']
    | some value =>
        obtain ⟨s, rfl⟩ := h.signedTexts key hkey value hp
        rw [Function.comp_apply, Function.comp_apply, hp, Option.map_some] at hvalue
        obtain ⟨value', hp', hstored⟩ := Option.map_eq_some_iff.mp hvalue.symm
        change property evidence' key = some value' at hp'
        obtain ⟨s', rfl⟩ := h'.signedTexts key hkey value' hp'
        rw [hp']
        exact congrArg (fun value ↦ (key, some value)) hstored.symm
  exact congrArg (fun fields ↦ Json.obj (presentMembers fields)) hsame

/-! ## Paths -/

/-- The characters of the names of the corpus. -/
def isNameUnit (u : CodeUnit) : Bool :=
  isDigit u || (0x61 ≤ u && u ≤ 0x7A) || u == 0x2D || u == 0x2E

section

variable {Key : Type} (platform : EvidencePlatform Key)

/-- What the platform functions are documented to do. -/
structure EvidencePlatform.Lawful (platform : EvidencePlatform Key) : Prop where
  sha256_injective : Function.Injective platform.sha256
  sha256_hex : ∀ bytes, (platform.sha256 bytes).all isLowerHex = true
  localeCompare_consistent : Consistent platform.localeCompare
  localeCompare_antisymm : ∀ a b, a.all isNameUnit = true → b.all isNameUnit = true →
    platform.localeCompare a b ≤ 0 → platform.localeCompare b a ≤ 0 → a = b
  readdir_perm : ∀ names, (platform.readdir names).Perm names

/-- The path of an entry, from its signed part. -/
def bodyPath (body : Json) : EvidencePath where
  monthPartition := monthPartition (text body "executedAt")
  file := platform.sha256Hex (.str (canonicalJson body)) ++ js ".json"

theorem evidencePath_eq_bodyPath (evidence : Json) :
    evidencePath platform evidence = bodyPath platform (stripSignature evidence) := by
  have hexecutedAt : text (stripSignature evidence) "executedAt" = text evidence "executedAt" := by
    rw [text, property_stripSignature (by decide)]
    rfl
  rw [evidencePath, bodyPath, hexecutedAt]

theorem canonicalJson_str_inj {s t : JsString}
    (h : canonicalJson (.str s) = canonicalJson (.str t)) : s = t := by
  have hparse := parse_canonicalJson_of_ordered (v := .str s) trivial
  rw [h, parse_canonicalJson_of_ordered (v := .str t) trivial] at hparse
  exact (Json.str.inj (Option.some.inj hparse)).symm

variable {platform}

theorem EvidencePlatform.Lawful.sha256Hex_inj (hplatform : platform.Lawful) {v w : Json}
    (h : platform.sha256Hex v = platform.sha256Hex w) : canonicalJson v = canonicalJson w :=
  (utf8Encode_inj (isWellFormed_stringify _) (isWellFormed_stringify _)).mp
    (hplatform.sha256_injective h)

/-- Entries under one path have one signed part. -/
theorem stripSignature_eq_of_evidencePath_eq (hplatform : platform.Lawful)
    {evidence evidence' : Json} (h : HasEvidenceShape evidence) (h' : HasEvidenceShape evidence')
    (hpath : evidencePath platform evidence = evidencePath platform evidence') :
    stripSignature evidence = stripSignature evidence' := by
  have hfile := congrArg EvidencePath.file hpath
  have hdigest := List.append_cancel_right hfile
  exact h.stripSignature_eq h' (canonicalJson_str_inj (hplatform.sha256Hex_inj hdigest))

theorem endsWith_evidencePath (evidence : Json) :
    endsWith (evidencePath platform evidence).file (js ".json") = true :=
  List.isSuffixOf_iff_suffix.mpr (List.suffix_append _ _)

theorem all_take_of_matchesClasses {classes : List (CodeUnit → Bool)} {s : JsString}
    {p : CodeUnit → Bool} {n : ℕ} (h : matchesClasses classes s = true)
    (hp : ∀ class' ∈ classes.take n, ∀ u, class' u = true → p u = true) :
    (s.take n).all p = true := by
  induction classes generalizing s n with
  | nil =>
      cases s with
      | nil => simp
      | cons u s => cases h
  | cons class' classes ih =>
      cases s with
      | nil => simp
      | cons u s =>
          cases n with
          | zero => rfl
          | succ n =>
              rw [matchesClasses, Bool.and_eq_true] at h
              rw [List.take_succ_cons, List.forall_mem_cons] at hp
              rw [List.take_succ_cons, List.all_cons, hp.1 u h.1, ih h.2 hp.2]
              rfl

theorem isNameUnit_of_isLowerHex {u : CodeUnit} (h : isLowerHex u = true) :
    isNameUnit u = true := by
  rw [isLowerHex, Bool.or_eq_true, Bool.and_eq_true, decide_eq_true_eq, decide_eq_true_eq] at h
  rw [isNameUnit, Bool.or_eq_true, Bool.or_eq_true, Bool.or_eq_true, Bool.and_eq_true,
    decide_eq_true_eq, decide_eq_true_eq]
  rcases h with h | ⟨hlow, hhigh⟩
  · exact .inl (.inl (.inl h))
  · exact .inl (.inl (.inr ⟨hlow, UInt16.le_trans hhigh (by decide)⟩))

theorem all_isNameUnit_file (hplatform : platform.Lawful) (evidence : Json) :
    (evidencePath platform evidence).file.all isNameUnit = true := by
  have hdigest := hplatform.sha256_hex
    (utf8Encode (canonicalJson (.str (canonicalJson (stripSignature evidence)))))
  rw [List.all_eq_true] at hdigest
  rw [evidencePath, List.all_append, Bool.and_eq_true, List.all_eq_true]
  exact ⟨fun u hu ↦ isNameUnit_of_isLowerHex (hdigest u hu), by decide⟩

theorem all_isNameUnit_monthPartition {evidence : Json} (h : HasEvidenceShape evidence) :
    (evidencePath platform evidence).monthPartition.all isNameUnit = true := by
  have htimestamp := h.executedAt
  rw [isUtcTimestamp, Bool.and_eq_true] at htimestamp
  have hmonth := all_take_of_matchesClasses (p := isNameUnit) (n := 7) htimestamp.1
  rw [List.take_take] at hmonth
  apply hmonth
  intro class' hclass u hu
  have hclass : class' = isDigit ∨ class' = literal 0x2D := by
    simp only [dateTimeClasses, List.take_succ_cons, List.take_zero, List.mem_cons,
      List.not_mem_nil, or_false] at hclass
    rcases hclass with h | h | h | h | h | h | h
    all_goals simp [h]
  rcases hclass with rfl | rfl
  · rw [isNameUnit, hu]
    rfl
  · have hdash : u = 0x2D := beq_iff_eq.mp hu
    rw [hdash]
    decide

end

/-! ## Accepted entries -/

section

variable {Key : Type} (platform : EvidencePlatform Key)

/-- The checks of the loop pass. -/
def IsAccepted (input : IngestExecutionEvidenceInput) (key : Key) (entry : Json) : Prop :=
  validateEvidenceShape entry = none ∧ text entry "tenantId" = input.tenantId ∧
    ¬ text entry "executedAt" < EXECUTION_EVIDENCE_MIN_EXECUTED_AT ∧
      verifyEvidenceSignature platform entry key = none

instance (input : IngestExecutionEvidenceInput) (key : Key) (entry : Json) :
    Decidable (IsAccepted platform input key entry) :=
  inferInstanceAs (Decidable (_ ∧ _ ∧ _ ∧ _))

variable {platform} {input : IngestExecutionEvidenceInput} {key : Key} {fingerprint : JsString}

theorem ingestEntry_of_isAccepted {entry : Json} (h : IsAccepted platform input key entry)
    (state : IngestState) :
    ingestEntry platform input key fingerprint state entry =
      .ok (state.accept platform input fingerprint entry) := by
  obtain ⟨hshape, htenant, hfloor, hsignature⟩ := h
  unfold ingestEntry
  rw [hshape]
  dsimp only
  rw [if_neg (not_not.mpr htenant), if_neg hfloor, hsignature]

/-- An entry that is not accepted leaves a rejection only. -/
theorem ingestEntry_of_not_isAccepted (fingerprint : JsString) {entry : Json} (h : ¬ IsAccepted platform input key entry)
    (hnull : entry ≠ .null) (state : IngestState) :
    ∃ testCaseId tmsCaseId code detail,
      ingestEntry platform input key fingerprint state entry =
        .ok (state.reject entry testCaseId tmsCaseId code detail) := by
  unfold ingestEntry
  cases hshape : validateEvidenceShape entry with
  | some detail =>
      cases entry with
      | null => exact absurd rfl hnull
      | _ => exact ⟨_, _, _, _, rfl⟩
  | none =>
      dsimp only
      split
      · exact ⟨_, _, _, _, rfl⟩
      · next htenant =>
          split
          · exact ⟨_, _, _, _, rfl⟩
          · next hfloor =>
              cases hsignature : verifyEvidenceSignature platform entry key with
              | some detail => exact ⟨_, _, _, _, rfl⟩
              | none => exact absurd ⟨hshape, not_not.mp htenant, hfloor, hsignature⟩ h

end

theorem VerdictCounts.total_add {counts : VerdictCounts} {verdict : Option ExecutionVerdict}
    (h : verdict ≠ none) : (counts.add verdict).total = counts.total + 1 := by
  obtain ⟨verdict, rfl⟩ := Option.ne_none_iff_exists'.mp h
  cases verdict <;> simp only [VerdictCounts.add, VerdictCounts.total] <;> omega

structure Acceptance where
  entry : EvidenceEntry
  fingerprint : JsString
  ingestedAt : JsString

/-- The signed part of the entry. -/
def Acceptance.body (acceptance : Acceptance) : Json := stripSignature acceptance.entry.value

def Acceptance.record (acceptance : Acceptance) : PersistedExecutionEvidenceRecord :=
  persistedRecord acceptance.fingerprint acceptance.ingestedAt acceptance.entry.value

section

variable {Key : Type} (platform : EvidencePlatform Key)

def Acceptance.path (acceptance : Acceptance) : EvidencePath :=
  evidencePath platform acceptance.entry.value

def Acceptance.write (corpus : EvidenceCorpus) (acceptance : Acceptance) : EvidenceCorpus :=
  writeAtomicJson corpus (acceptance.path platform) acceptance.record.toJson

/-- The accepted entries of a batch, from a number of readings of the clock on. -/
def acceptancesFrom (input : IngestExecutionEvidenceInput) (key : Key) (fingerprint : JsString) :
    ℕ → List EvidenceEntry → List Acceptance
  | _, [] => []
  | readings, entry :: rest =>
      if IsAccepted platform input key entry.value then
        ⟨entry, fingerprint, input.now readings⟩ ::
          acceptancesFrom input key fingerprint (readings + 1) rest
      else acceptancesFrom input key fingerprint readings rest

def acceptancesOf (input : IngestExecutionEvidenceInput) : List Acceptance :=
  match verifyingKeyOf platform input with
  | .error _ => []
  | .ok key => acceptancesFrom platform input key (computeVerifyingKeyFingerprint platform key) 0
      input.evidence

/-- The accepted entries of a sequence of calls. -/
def acceptances (inputs : List IngestExecutionEvidenceInput) : List Acceptance :=
  inputs.flatMap (acceptancesOf platform)

/-- The corpus after a sequence of calls. -/
def ingestAll (corpus : EvidenceCorpus) (inputs : List IngestExecutionEvidenceInput) :
    EvidenceCorpus :=
  inputs.foldl (fun corpus input ↦ (ingestExecutionEvidence platform corpus input).1) corpus

/-- No call whose key can be used gets a `null` entry. -/
def NoNullEntries (inputs : List IngestExecutionEvidenceInput) : Prop :=
  ∀ input ∈ inputs, ∀ key, verifyingKeyOf platform input = .ok key →
    ∀ entry ∈ input.evidence, entry.value ≠ .null

variable {platform} {input : IngestExecutionEvidenceInput} {key : Key} {fingerprint : JsString}

theorem isAccepted_of_mem_acceptancesFrom {readings : ℕ} {entries : List EvidenceEntry}
    {acceptance : Acceptance}
    (h : acceptance ∈ acceptancesFrom platform input key fingerprint readings entries) :
    IsAccepted platform input key acceptance.entry.value ∧
      acceptance.fingerprint = fingerprint := by
  induction entries generalizing readings with
  | nil => cases h
  | cons entry rest ih =>
      rw [acceptancesFrom] at h
      split at h
      · next haccepted =>
          rcases List.mem_cons.mp h with rfl | h
          · exact ⟨haccepted, rfl⟩
          · exact ih h
      · exact ih h

theorem mem_of_mem_acceptancesFrom {readings : ℕ} {entries : List EvidenceEntry}
    {acceptance : Acceptance}
    (h : acceptance ∈ acceptancesFrom platform input key fingerprint readings entries) :
    acceptance.entry ∈ entries := by
  induction entries generalizing readings with
  | nil => cases h
  | cons entry rest ih =>
      rw [acceptancesFrom] at h
      split at h
      · rcases List.mem_cons.mp h with rfl | h
        · exact List.mem_cons_self
        · exact List.mem_cons_of_mem _ (ih h)
      · exact List.mem_cons_of_mem _ (ih h)

theorem exists_acceptance_of_isAccepted (fingerprint : JsString) {entry : EvidenceEntry} {entries : List EvidenceEntry}
    (hentry : entry ∈ entries) (h : IsAccepted platform input key entry.value) (readings : ℕ) :
    ∃ acceptance ∈ acceptancesFrom platform input key fingerprint readings entries,
      acceptance.entry = entry := by
  induction entries generalizing readings with
  | nil => cases hentry
  | cons entry' rest ih =>
      rw [acceptancesFrom]
      rcases List.mem_cons.mp hentry with rfl | hentry
      · rw [if_pos h]
        exact ⟨_, List.mem_cons_self, rfl⟩
      · split
        · obtain ⟨acceptance, hmem, heq⟩ := ih hentry (readings + 1)
          exact ⟨acceptance, List.mem_cons_of_mem _ hmem, heq⟩
        · exact ih hentry readings

theorem exists_key_of_mem_acceptances {inputs : List IngestExecutionEvidenceInput}
    {acceptance : Acceptance} (h : acceptance ∈ acceptances platform inputs) :
    ∃ input ∈ inputs, ∃ key, verifyingKeyOf platform input = .ok key ∧
      IsAccepted platform input key acceptance.entry.value ∧
      acceptance.fingerprint = computeVerifyingKeyFingerprint platform key := by
  obtain ⟨input, hinput, h⟩ := List.mem_flatMap.mp h
  unfold acceptancesOf at h
  cases hkey : verifyingKeyOf platform input with
  | error error =>
      rw [hkey] at h
      cases h
  | ok key =>
      rw [hkey] at h
      exact ⟨input, hinput, key, hkey, isAccepted_of_mem_acceptancesFrom h⟩

/-- The loop, on a batch without `null`. -/
theorem ingestEntries_of_notNull (fingerprint : JsString) {entries : List EvidenceEntry}
    (hnull : ∀ entry ∈ entries, entry.value ≠ .null) (state : IngestState) :
    ∃ next, ingestEntries platform input key fingerprint state entries = (next, none) ∧
      next.corpus = (acceptancesFrom platform input key fingerprint state.clockReadings
        entries).foldl (Acceptance.write platform) state.corpus ∧
      next.acceptedPaths.length + next.rejections.length =
        state.acceptedPaths.length + state.rejections.length + entries.length ∧
      (state.verdictCounts.total = state.acceptedPaths.length →
        next.verdictCounts.total = next.acceptedPaths.length) := by
  induction entries generalizing state with
  | nil => exact ⟨state, rfl, rfl, rfl, id⟩
  | cons entry rest ih =>
      obtain ⟨hentry, hrest⟩ := List.forall_mem_cons.mp hnull
      by_cases haccepted : IsAccepted platform input key entry.value
      · obtain ⟨next, hnext, hcorpus, hlength, hcounts⟩ :=
          ih hrest (state.accept platform input fingerprint entry.value)
        have hpaths : (state.accept platform input fingerprint
            entry.value).acceptedPaths.length = state.acceptedPaths.length + 1 :=
          List.length_append
        refine ⟨next, ?_, ?_, ?_, ?_⟩
        · rw [ingestEntries, ingestEntry_of_isAccepted haccepted]
          exact hnext
        · rw [hcorpus, acceptancesFrom, if_pos haccepted]
          rfl
        · rw [hlength, hpaths, List.length_cons]
          change _ + state.rejections.length + _ = _
          omega
        · intro htotal
          apply hcounts
          rw [hpaths, ← htotal]
          exact VerdictCounts.total_add (hasEvidenceShape_of_validate haccepted.1).verdict
      · obtain ⟨testCaseId, tmsCaseId, code, detail, hreject⟩ :=
          ingestEntry_of_not_isAccepted fingerprint haccepted hentry state
        obtain ⟨next, hnext, hcorpus, hlength, hcounts⟩ := ih hrest
          (state.reject entry.value testCaseId tmsCaseId code detail)
        have hrejections : (state.reject entry.value testCaseId tmsCaseId code
            detail).rejections.length = state.rejections.length + 1 := List.length_append
        refine ⟨next, ?_, ?_, ?_, hcounts⟩
        · rw [ingestEntries, hreject]
          exact hnext
        · rw [hcorpus, acceptancesFrom, if_neg haccepted]
          rfl
        · rw [hlength, hrejections, List.length_cons]
          change state.acceptedPaths.length + _ + _ = _
          omega

end

/-! ## The files of the corpus -/

section

variable {Key : Type} {platform : EvidencePlatform Key}

/-- The files of the corpus are those of the accepted entries. -/
structure HoldsAccepted (platform : EvidencePlatform Key) (accepted : List Acceptance)
    (corpus : EvidenceCorpus) : Prop where
  nodup : (corpus.map Prod.fst).Nodup
  mem_paths : ∀ path, path ∈ corpus.map Prod.fst ↔
    ∃ acceptance ∈ accepted, acceptance.path platform = path
  written : ∀ path raw, mapGet corpus path = some raw →
    ∃ acceptance ∈ accepted, acceptance.path platform = path ∧
      raw = canonicalJson acceptance.record.toJson ++ [0x0A]

theorem HoldsAccepted.write {accepted : List Acceptance} {corpus : EvidenceCorpus}
    (h : HoldsAccepted platform accepted corpus) (acceptance : Acceptance) :
    HoldsAccepted platform (accepted ++ [acceptance]) (acceptance.write platform corpus) := by
  refine ⟨?_, fun path ↦ ?_, fun path raw hraw ↦ ?_⟩
  · rw [Acceptance.write, writeAtomicJson, keys_mapSet]
    exact nodup_setAdd h.nodup _
  · rw [Acceptance.write, writeAtomicJson, keys_mapSet, mem_setAdd, h.mem_paths]
    simp [or_and_right, exists_or, eq_comm]
  · rw [Acceptance.write, writeAtomicJson, mapGet_mapSet] at hraw
    split at hraw
    · next hpath =>
        obtain rfl := Option.some.inj hraw
        exact ⟨acceptance, by simp, hpath.symm, rfl⟩
    · obtain ⟨before, hbefore, hpath, hraw⟩ := h.written path raw hraw
      exact ⟨before, List.mem_append_left _ hbefore, hpath, hraw⟩

variable (platform) in
theorem holdsAccepted_foldl (accepted : List Acceptance) :
    HoldsAccepted platform accepted (accepted.foldl (Acceptance.write platform) []) := by
  induction accepted using List.reverseRecOn with
  | nil => exact ⟨List.nodup_nil, fun path ↦ by simp, fun path raw hraw ↦ by cases hraw⟩
  | append_singleton accepted acceptance ih =>
      rw [List.foldl_concat]
      exact ih.write acceptance

theorem mem_partitions {corpus : EvidenceCorpus} {partition : JsString} :
    partition ∈ corpus.partitions ↔
      ∃ path ∈ corpus.map Prod.fst, path.monthPartition = partition := by
  simp [EvidenceCorpus.partitions]

theorem mem_files {corpus : EvidenceCorpus} {partition file : JsString} :
    file ∈ corpus.files partition ↔ ⟨partition, file⟩ ∈ corpus.map Prod.fst := by
  simp only [EvidenceCorpus.files, List.mem_map, List.mem_filter, decide_eq_true_eq]
  constructor
  · rintro ⟨entry, ⟨hentry, rfl⟩, rfl⟩
    exact ⟨entry, hentry, rfl⟩
  · rintro ⟨entry, hentry, hpath⟩
    exact ⟨entry, ⟨hentry, by rw [hpath]⟩, by rw [hpath]⟩

theorem nodup_partitions (corpus : EvidenceCorpus) : corpus.partitions.Nodup :=
  nodup_foldl_setAdd List.nodup_nil

theorem nodup_files {corpus : EvidenceCorpus} (h : (corpus.map Prod.fst).Nodup)
    (partition : JsString) : (corpus.files partition).Nodup := by
  unfold EvidenceCorpus.files
  apply List.Nodup.of_map (fun file ↦ (⟨partition, file⟩ : EvidencePath))
  rw [List.map_map]
  have hpaths : (corpus.filter (·.1.monthPartition = partition)).map
      ((fun file ↦ (⟨partition, file⟩ : EvidencePath)) ∘ fun entry ↦ entry.1.file) =
      (corpus.filter (·.1.monthPartition = partition)).map Prod.fst := by
    apply List.map_congr_left
    intro entry hentry
    have hpartition := of_decide_eq_true (List.mem_filter.mp hentry).2
    rw [Function.comp_apply, ← hpartition]
  rw [hpaths]
  exact h.sublist (List.filter_sublist.map _)

theorem mem_sorted_readdir (hplatform : platform.Lawful) {names : List JsString}
    {name : JsString} :
    name ∈ sortBy platform.localeCompare (platform.readdir names) ↔ name ∈ names := by
  rw [mem_sortBy, (hplatform.readdir_perm names).mem_iff]

theorem nodup_sorted_readdir (hplatform : platform.Lawful) {names : List JsString}
    (h : names.Nodup) : (sortBy platform.localeCompare (platform.readdir names)).Nodup :=
  ((sortBy_perm _ _).trans (hplatform.readdir_perm names)).nodup_iff.mpr h

/-- The loader sees the names of a directory in one order. -/
theorem sorted_readdir_congr (hplatform : platform.Lawful) {names names' : List JsString}
    (h : names.Nodup) (h' : names'.Nodup) (hmem : ∀ name, name ∈ names ↔ name ∈ names')
    (hunits : ∀ name ∈ names, name.all isNameUnit = true) :
    sortBy platform.localeCompare (platform.readdir names) =
      sortBy platform.localeCompare (platform.readdir names') := by
  apply hplatform.localeCompare_consistent.sortBy_eq_of_perm
  · intro a ha b hb
    rw [(hplatform.readdir_perm names).mem_iff] at ha hb
    exact hplatform.localeCompare_antisymm a b (hunits a ha) (hunits b hb)
  · exact (hplatform.readdir_perm names).trans
      (((List.perm_ext_iff_of_nodup h h').mpr hmem).trans (hplatform.readdir_perm names').symm)

/-- Every file of the corpus is one that the loader reads. -/
def AllJson (corpus : EvidenceCorpus) : Prop :=
  ∀ path ∈ corpus.map Prod.fst, endsWith path.file (js ".json") = true

theorem mem_evidencePaths (hplatform : platform.Lawful) {corpus : EvidenceCorpus}
    (hjson : AllJson corpus) {path : EvidencePath} :
    path ∈ evidencePaths platform corpus ↔ path ∈ corpus.map Prod.fst := by
  simp only [evidencePaths, List.mem_flatMap, List.mem_map, List.mem_filter,
    mem_sorted_readdir hplatform]
  constructor
  · rintro ⟨partition, -, file, ⟨hfile, -⟩, rfl⟩
    exact List.mem_map.mp (mem_files.mp hfile)
  · intro hpath
    have hpath := List.mem_map.mpr hpath
    exact ⟨path.monthPartition, mem_partitions.mpr ⟨path, hpath, rfl⟩, path.file,
      ⟨mem_files.mpr hpath, hjson path hpath⟩, rfl⟩

theorem nodup_evidencePaths (hplatform : platform.Lawful) {corpus : EvidenceCorpus}
    (h : (corpus.map Prod.fst).Nodup) : (evidencePaths platform corpus).Nodup := by
  rw [evidencePaths, List.nodup_flatMap]
  constructor
  · intro partition _
    apply List.Nodup.map
    · intro file file' heq
      exact congrArg EvidencePath.file heq
    · exact (nodup_sorted_readdir hplatform (nodup_files h partition)).filter _
  · apply (nodup_sorted_readdir hplatform (nodup_partitions corpus)).imp
    intro partition partition' hne path hpath hpath'
    obtain ⟨file, -, rfl⟩ := List.mem_map.mp hpath
    obtain ⟨file', -, heq⟩ := List.mem_map.mp hpath'
    exact hne (congrArg EvidencePath.monthPartition heq).symm

/-- The loader visits corpora with the same paths in the same order. -/
theorem evidencePaths_congr (hplatform : platform.Lawful) {corpus corpus' : EvidenceCorpus}
    (h : (corpus.map Prod.fst).Nodup) (h' : (corpus'.map Prod.fst).Nodup)
    (hmem : ∀ path, path ∈ corpus.map Prod.fst ↔ path ∈ corpus'.map Prod.fst)
    (hunits : ∀ path ∈ corpus.map Prod.fst,
      path.monthPartition.all isNameUnit = true ∧ path.file.all isNameUnit = true) :
    evidencePaths platform corpus = evidencePaths platform corpus' := by
  have hpartitions : ∀ partition, partition ∈ corpus.partitions ↔
      partition ∈ corpus'.partitions := by
    intro partition
    rw [mem_partitions, mem_partitions]
    simp only [hmem]
  have hsorted := sorted_readdir_congr hplatform (nodup_partitions corpus)
    (nodup_partitions corpus') hpartitions fun partition hpartition ↦ by
      obtain ⟨path, hpath, rfl⟩ := mem_partitions.mp hpartition
      exact (hunits path hpath).1
  rw [evidencePaths, evidencePaths, hsorted]
  apply List.flatMap_congr
  intro partition _
  rw [sorted_readdir_congr hplatform (nodup_files h partition) (nodup_files h' partition)]
  · intro file
    rw [mem_files, mem_files, hmem]
  · intro file hfile
    exact (hunits _ (mem_files.mp hfile)).2

end

end TestIntelligence.Integrations
