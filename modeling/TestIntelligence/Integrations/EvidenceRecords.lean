import TestIntelligence.Integrations.EvidenceCorpus

/-!
# The records of execution evidence

What the loader returns after a sequence of calls, and what the summary of the dossier makes
of it.
-/

namespace TestIntelligence.Integrations

open Js Security

/-! ## Reading a record -/

namespace PersistedExecutionEvidenceRecord

variable (record : PersistedExecutionEvidenceRecord)

theorem keys_fields : record.fields.map Prod.fst =
    ["schemaVersion", "ingestedAt", "signingKeyFingerprintSha256", "evidence"].map js := rfl

theorem enumerated_fields : Enumerated record.fields :=
  enumerated_of_names record.keys_fields (by decide) (by decide)

theorem ordered_toJson (h : record.evidence.Ordered) : record.toJson.Ordered := by
  apply ordered_presentMembers record.enumerated_fields
  intro field hfield v hv
  simp only [fields, List.mem_cons, List.not_mem_nil, or_false] at hfield
  rcases hfield with rfl | rfl | rfl | rfl
  all_goals obtain rfl := Option.some.inj hv
  · trivial
  · trivial
  · trivial
  · exact h

theorem property_stored_toJson {record : PersistedExecutionEvidenceRecord}
    (h : record.evidence.Ordered) {field : JsString × Option Json}
    (hfield : field ∈ record.fields) :
    property (stored record.toJson) field.1 = field.2.map stored := by
  have hkey : field.1 ≠ protoKey := by
    have hproto : protoKey ∉ record.fields.map Prod.fst := by
      rw [keys_fields, protoKey, List.mem_map_of_injective js_injective]
      decide
    rintro heq
    exact hproto (heq ▸ List.mem_map_of_mem hfield)
  rw [property_stored (record.ordered_toJson h) hkey]
  change (mapGet (presentMembers record.fields) field.1).map stored = _
  rw [mapGet_presentMembers record.enumerated_fields.1,
    mapGet_eq_some_of_mem record.enumerated_fields.1 hfield, Option.join_some]

theorem evidenceOf_stored {record : PersistedExecutionEvidenceRecord}
    (h : record.evidence.Ordered) :
    evidenceOf (stored record.toJson) = stored record.evidence := by
  have hfield : (js "evidence", some record.evidence) ∈ record.fields := by simp [fields]
  rw [evidenceOf, property_stored_toJson h hfield]
  rfl

theorem fingerprint_stored {record : PersistedExecutionEvidenceRecord}
    (h : record.evidence.Ordered) :
    text (stored record.toJson) "signingKeyFingerprintSha256" =
      record.signingKeyFingerprintSha256 := by
  have hfield : (js "signingKeyFingerprintSha256",
      some (.str record.signingKeyFingerprintSha256)) ∈ record.fields := by simp [fields]
  rw [text, property_stored_toJson h hfield]
  rfl

end PersistedExecutionEvidenceRecord

section

variable {Key : Type} {platform : EvidencePlatform Key}

theorem readEvidenceFile_of_written {corpus : EvidenceCorpus} {path : EvidencePath}
    {acceptance : Acceptance}
    (h : mapGet corpus path = some (canonicalJson acceptance.record.toJson ++ [0x0A])) :
    readEvidenceFile corpus path = .ok (stored acceptance.record.toJson) := by
  have hparse := parse_canonicalJson_line
    (acceptance.record.ordered_toJson acceptance.entry.ordered)
  unfold readEvidenceFile
  rw [h]
  dsimp only
  rw [hparse]
  rfl

/-- The record was written for an entry with this path. -/
def IsRecordAt (platform : EvidencePlatform Key) (accepted : List Acceptance)
    (path : EvidencePath) (record : Json) : Prop :=
  ∃ acceptance ∈ accepted, acceptance.path platform = path ∧
    record = stored acceptance.record.toJson

theorem HoldsAccepted.allJson {accepted : List Acceptance} {corpus : EvidenceCorpus}
    (h : HoldsAccepted platform accepted corpus) : AllJson corpus := by
  intro path hpath
  obtain ⟨acceptance, -, rfl⟩ := (h.mem_paths path).mp hpath
  exact endsWith_evidencePath acceptance.entry.value

theorem HoldsAccepted.exists_records (hplatform : platform.Lawful) {accepted : List Acceptance}
    {corpus : EvidenceCorpus} (h : HoldsAccepted platform accepted corpus) :
    ∃ records, loadPersistedExecutionEvidence platform corpus = .ok records ∧
      List.Forall₂ (IsRecordAt platform accepted) (evidencePaths platform corpus) records := by
  have hread : ∀ path ∈ evidencePaths platform corpus, ∃ record,
      readEvidenceFile corpus path = .ok record ∧ IsRecordAt platform accepted path record := by
    intro path hpath
    rw [mem_evidencePaths hplatform h.allJson] at hpath
    obtain ⟨⟨path, raw⟩, hmem, rfl⟩ := List.mem_map.mp hpath
    have hget := mapGet_eq_some_of_mem h.nodup hmem
    obtain ⟨acceptance, haccepted, hat, rfl⟩ := h.written path raw hget
    exact ⟨_, readEvidenceFile_of_written hget, acceptance, haccepted, hat, rfl⟩
  obtain ⟨records, hload, hforall⟩ := exists_mapM_eq_ok fun path hpath ↦
    (hread path hpath).imp fun _ h ↦ h.1
  refine ⟨records, hload, ?_⟩
  clear hload
  generalize evidencePaths platform corpus = paths at hread hforall
  induction hforall with
  | nil => exact .nil
  | cons hok _ ih =>
      obtain ⟨hfirst, hrest⟩ := List.forall_mem_cons.mp hread
      obtain ⟨record, hrecord, hat⟩ := hfirst
      obtain rfl := Except.ok.inj (hrecord.symm.trans hok)
      exact .cons hat (ih hrest)

/-- The signed part of a record. -/
def recordBody (record : Json) : Json := stripSignature (evidenceOf record)

/-- All entries have the shape of evidence. -/
def AllShaped (accepted : List Acceptance) : Prop :=
  ∀ acceptance ∈ accepted, HasEvidenceShape acceptance.entry.value

theorem recordBody_of_isRecordAt {accepted : List Acceptance} (hshape : AllShaped accepted)
    {path : EvidencePath} {record : Json} (h : IsRecordAt platform accepted path record) :
    ∃ acceptance ∈ accepted, recordBody record = acceptance.body ∧
      bodyPath platform (recordBody record) = path := by
  obtain ⟨acceptance, haccepted, rfl, rfl⟩ := h
  have hbody : recordBody (stored acceptance.record.toJson) = acceptance.body := by
    rw [recordBody, PersistedExecutionEvidenceRecord.evidenceOf_stored acceptance.entry.ordered]
    exact (hshape acceptance haccepted).stripSignature_stored acceptance.entry.ordered
  refine ⟨acceptance, haccepted, hbody, ?_⟩
  rw [hbody]
  exact (evidencePath_eq_bodyPath platform acceptance.entry.value).symm

/-- No two records have one signed part. -/
theorem nodup_recordBody {accepted : List Acceptance} (hshape : AllShaped accepted)
    {paths : List EvidencePath} {records : List Json} (hpaths : paths.Nodup)
    (h : List.Forall₂ (IsRecordAt platform accepted) paths records) :
    (records.map recordBody).Nodup := by
  have heq : (records.map recordBody).map (bodyPath platform) = paths := by
    clear hpaths
    induction h with
    | nil => rfl
    | cons hfirst _ ih =>
        obtain ⟨acceptance, -, -, hpath⟩ := recordBody_of_isRecordAt hshape hfirst
        rw [List.map_cons, List.map_cons, ih, hpath]
  exact List.Nodup.of_map _ (heq ▸ hpaths)

theorem mem_recordBody_iff (hplatform : platform.Lawful) {accepted : List Acceptance}
    (hshape : AllShaped accepted) {corpus : EvidenceCorpus}
    (hcorpus : HoldsAccepted platform accepted corpus) {records : List Json}
    (h : List.Forall₂ (IsRecordAt platform accepted) (evidencePaths platform corpus) records)
    (body : Json) :
    body ∈ records.map recordBody ↔ ∃ acceptance ∈ accepted, acceptance.body = body := by
  constructor
  · intro hbody
    obtain ⟨record, hrecord, rfl⟩ := List.mem_map.mp hbody
    obtain ⟨path, -, hat⟩ := exists_of_forall₂_of_mem h.flip hrecord
    obtain ⟨acceptance, haccepted, heq, -⟩ := recordBody_of_isRecordAt hshape hat
    exact ⟨acceptance, haccepted, heq.symm⟩
  · rintro ⟨acceptance, haccepted, rfl⟩
    have hpath : acceptance.path platform ∈ evidencePaths platform corpus := by
      rw [mem_evidencePaths hplatform hcorpus.allJson, hcorpus.mem_paths]
      exact ⟨acceptance, haccepted, rfl⟩
    obtain ⟨record, hrecord, hat⟩ := exists_of_forall₂_of_mem h hpath
    obtain ⟨acceptance', haccepted', hpath', rfl⟩ := hat
    refine List.mem_map.mpr ⟨_, hrecord, ?_⟩
    rw [recordBody, PersistedExecutionEvidenceRecord.evidenceOf_stored acceptance'.entry.ordered]
    exact ((hshape acceptance' haccepted').stripSignature_stored acceptance'.entry.ordered).trans
      (stripSignature_eq_of_evidencePath_eq hplatform (hshape acceptance' haccepted')
        (hshape acceptance haccepted) hpath')

/-! ## Summaries -/

theorem foldl_eq_of_forall₂ {α β γ : Type*} {R : α → β → Prop} {f : γ → α → γ} {g : γ → β → γ}
    (hR : ∀ c x y, R x y → f c x = g c y) {xs : List α} {ys : List β}
    (h : List.Forall₂ R xs ys) (c : γ) : xs.foldl f c = ys.foldl g c := by
  induction h generalizing c with
  | nil => rfl
  | cons hxy _ ih => rw [List.foldl_cons, List.foldl_cons, hR c _ _ hxy, ih]

/-- The summary reads signed members and the fingerprint only. -/
theorem summarizeRecord_congr {record record' : Json}
    (hbody : recordBody record = recordBody record')
    (hfingerprint : text record "signingKeyFingerprintSha256" =
      text record' "signingKeyFingerprintSha256") (summary : ExecutionEvidenceDossierSummary) :
    summarizeRecord platform summary record = summarizeRecord platform summary record' := by
  have hproperty : ∀ key ∈ signedKeys,
      property (evidenceOf record) key = property (evidenceOf record') key := by
    intro key hkey
    rw [← property_stripSignature hkey (evidenceOf record),
      ← property_stripSignature hkey (evidenceOf record')]
    exact congrArg (property · key) hbody
  have hverdict := hproperty (js "executionVerdict") (by decide)
  have hreviewer := hproperty (js "reviewerVerdict") (by decide)
  have hexecutedAt : text (evidenceOf record) "executedAt" =
      text (evidenceOf record') "executedAt" :=
    congrArg textOf (hproperty (js "executedAt") (by decide))
  have hadapter : text (evidenceOf record) "tmsAdapterId" =
      text (evidenceOf record') "tmsAdapterId" :=
    congrArg textOf (hproperty (js "tmsAdapterId") (by decide))
  have hconflict : detectConflict (evidenceOf record) = detectConflict (evidenceOf record') := by
    unfold detectConflict text
    rw [hverdict, hreviewer]
  unfold summarizeRecord
  dsimp only
  rw [hconflict, hfingerprint, hverdict, hexecutedAt, hadapter]

/-- A body is accepted under one key only. -/
def OneFingerprint (accepted : List Acceptance) : Prop :=
  ∀ acceptance ∈ accepted, ∀ acceptance' ∈ accepted, acceptance.body = acceptance'.body →
    acceptance.fingerprint = acceptance'.fingerprint

/-- Records of the same entries, accepted in any order, have the same summary. -/
theorem summarize_congr (hplatform : platform.Lawful) {accepted accepted' : List Acceptance}
    (hmem : ∀ acceptance, acceptance ∈ accepted ↔ acceptance ∈ accepted')
    (hshape : AllShaped accepted) (hone : OneFingerprint accepted)
    {corpus corpus' : EvidenceCorpus} (hcorpus : HoldsAccepted platform accepted corpus)
    (hcorpus' : HoldsAccepted platform accepted' corpus') {records records' : List Json}
    (h : List.Forall₂ (IsRecordAt platform accepted) (evidencePaths platform corpus) records)
    (h' : List.Forall₂ (IsRecordAt platform accepted') (evidencePaths platform corpus') records') :
    summarizeExecutionEvidenceForDossier platform records =
      summarizeExecutionEvidenceForDossier platform records' := by
  have hpaths : evidencePaths platform corpus = evidencePaths platform corpus' := by
    apply evidencePaths_congr hplatform hcorpus.nodup hcorpus'.nodup
    · intro path
      rw [hcorpus.mem_paths, hcorpus'.mem_paths]
      simp only [hmem]
    · intro path hpath
      obtain ⟨acceptance, haccepted, rfl⟩ := (hcorpus.mem_paths path).mp hpath
      exact ⟨all_isNameUnit_monthPartition (hshape acceptance haccepted),
        all_isNameUnit_file hplatform acceptance.entry.value⟩
  rw [← hpaths] at h'
  have hsame := forall₂_trans (T := fun record record' ↦ recordBody record = recordBody record' ∧
    text record "signingKeyFingerprintSha256" = text record' "signingKeyFingerprintSha256")
    (fun record _ path record' hat hat' ↦ by
      obtain ⟨acceptance, haccepted, hpath, rfl⟩ := hat
      obtain ⟨acceptance', haccepted', hpath', rfl⟩ := hat'
      rw [← hmem] at haccepted'
      have hbody : acceptance.body = acceptance'.body :=
        stripSignature_eq_of_evidencePath_eq hplatform (hshape acceptance haccepted)
          (hshape acceptance' haccepted') (hpath.trans hpath'.symm)
      refine ⟨?_, ?_⟩
      · rw [recordBody, recordBody,
          PersistedExecutionEvidenceRecord.evidenceOf_stored acceptance.entry.ordered,
          PersistedExecutionEvidenceRecord.evidenceOf_stored acceptance'.entry.ordered]
        exact ((hshape acceptance haccepted).stripSignature_stored
          acceptance.entry.ordered).trans (hbody.trans ((hshape acceptance'
            haccepted').stripSignature_stored acceptance'.entry.ordered).symm)
      · rw [PersistedExecutionEvidenceRecord.fingerprint_stored acceptance.entry.ordered,
          PersistedExecutionEvidenceRecord.fingerprint_stored acceptance'.entry.ordered]
        exact hone acceptance haccepted acceptance' haccepted' hbody)
    h.flip h'
  unfold summarizeExecutionEvidenceForDossier
  rw [foldl_eq_of_forall₂ (fun summary _ _ hsame ↦ summarizeRecord_congr hsame.1 hsame.2 summary)
    hsame]

/-! ## Sequences of calls -/

theorem ingestExecutionEvidence_corpus {input : IngestExecutionEvidenceInput}
    (hnull : ∀ key, verifyingKeyOf platform input = .ok key →
      ∀ entry ∈ input.evidence, entry.value ≠ .null) (corpus : EvidenceCorpus) :
    (ingestExecutionEvidence platform corpus input).1 =
      (acceptancesOf platform input).foldl (Acceptance.write platform) corpus := by
  unfold ingestExecutionEvidence acceptancesOf
  cases hkey : verifyingKeyOf platform input with
  | error error => rfl
  | ok key =>
      obtain ⟨next, hnext, hcorpus, -, -⟩ := ingestEntries_of_notNull
        (computeVerifyingKeyFingerprint platform key) (hnull key hkey) (IngestState.start corpus)
      dsimp only
      rw [hnext]
      exact hcorpus

/-- The calls write the accepted entries, one after the other. -/
theorem ingestAll_eq {inputs : List IngestExecutionEvidenceInput}
    (hnull : NoNullEntries platform inputs) (corpus : EvidenceCorpus) :
    ingestAll platform corpus inputs =
      (acceptances platform inputs).foldl (Acceptance.write platform) corpus := by
  induction inputs generalizing corpus with
  | nil => rfl
  | cons input inputs ih =>
      obtain ⟨hinput, hinputs⟩ := List.forall_mem_cons.mp hnull
      have hsplit : acceptances platform (input :: inputs) =
          acceptancesOf platform input ++ acceptances platform inputs := List.flatMap_cons
      rw [ingestAll, List.foldl_cons, ← ingestAll, ih hinputs,
        ingestExecutionEvidence_corpus hinput, hsplit, List.foldl_append]

variable (platform) in
theorem allShaped_acceptances (inputs : List IngestExecutionEvidenceInput) :
    AllShaped (acceptances platform inputs) := by
  intro acceptance hacceptance
  obtain ⟨input, -, key, -, haccepted, -⟩ := exists_key_of_mem_acceptances hacceptance
  exact hasEvidenceShape_of_validate haccepted.1

/-- The signed part of an entry that a call with a usable key accepts. -/
def IsAcceptedBody (platform : EvidencePlatform Key) (inputs : List IngestExecutionEvidenceInput)
    (body : Json) : Prop :=
  ∃ input ∈ inputs, ∃ key, verifyingKeyOf platform input = .ok key ∧
    ∃ entry ∈ input.evidence, IsAccepted platform input key entry.value ∧
      stripSignature entry.value = body

theorem isAcceptedBody_iff {inputs : List IngestExecutionEvidenceInput} {body : Json} :
    IsAcceptedBody platform inputs body ↔
      ∃ acceptance ∈ acceptances platform inputs, acceptance.body = body := by
  constructor
  · rintro ⟨input, hinput, key, hkey, entry, hentry, haccepted, rfl⟩
    obtain ⟨acceptance, hmem, rfl⟩ := exists_acceptance_of_isAccepted
      (computeVerifyingKeyFingerprint platform key) hentry haccepted 0
    refine ⟨acceptance, List.mem_flatMap.mpr ⟨input, hinput, ?_⟩, rfl⟩
    unfold acceptancesOf
    rw [hkey]
    exact hmem
  · rintro ⟨acceptance, hmem, rfl⟩
    obtain ⟨input, hinput, hmem⟩ := List.mem_flatMap.mp hmem
    unfold acceptancesOf at hmem
    cases hkey : verifyingKeyOf platform input with
    | error error =>
        rw [hkey] at hmem
        cases hmem
    | ok key =>
        rw [hkey] at hmem
        exact ⟨input, hinput, key, hkey, acceptance.entry, mem_of_mem_acceptancesFrom hmem,
          (isAccepted_of_mem_acceptancesFrom hmem).1, rfl⟩

/-- A record has no members but the signed ones and the signature, and a key verifies it whose
holder signed its body. -/
structure HoldsSignedFields (platform : EvidencePlatform Key) (signedBy : Key → Bytes → Prop)
    (record : Json) : Prop where
  members : ∃ members, evidenceOf record = .obj members ∧ ∀ p ∈ members,
    p.1 ∈ signedKeys ∨ p.1 = js "attestationSignatureHex"
  signed : ∃ key, verifyEvidenceSignature platform (evidenceOf record) key = none ∧
    signedBy key (buildExecutionEvidenceSigningBytes (evidenceOf record)) ∧
    text record "signingKeyFingerprintSha256" = computeVerifyingKeyFingerprint platform key

/-- After a sequence of calls on an empty corpus. -/
structure HoldsWhatWasSigned (platform : EvidencePlatform Key) (signedBy : Key → Bytes → Prop)
    (inputs : List IngestExecutionEvidenceInput) : Prop where
  records : ∃ records,
    loadPersistedExecutionEvidence platform (ingestAll platform [] inputs) = .ok records ∧
    (records.map recordBody).Nodup ∧
    (∀ body, body ∈ records.map recordBody ↔ IsAcceptedBody platform inputs body) ∧
    ∀ record ∈ records, HoldsSignedFields platform signedBy record
  rejected : ∀ input ∈ inputs, ∀ key, verifyingKeyOf platform input = .ok key →
    ∀ entry ∈ input.evidence, ¬ IsAccepted platform input key entry.value →
      ∀ fingerprint state, ∃ next,
        ingestEntry platform input key fingerprint state entry.value = .ok next ∧
        next.corpus = state.corpus
  reports : ∀ input ∈ inputs, ∀ key, verifyingKeyOf platform input = .ok key → ∀ corpus,
    ∃ result, (ingestExecutionEvidence platform corpus input).2 = .ok result ∧
      result.accepted + result.rejected = input.evidence.length ∧
      result.report.acceptedCount = result.accepted ∧
      result.report.rejectedCount = result.rejected ∧
      result.report.verdictCounts.total = result.report.acceptedCount
  summary : ∀ other, other.Perm inputs → ∃ records records',
    loadPersistedExecutionEvidence platform (ingestAll platform [] inputs) = .ok records ∧
    loadPersistedExecutionEvidence platform (ingestAll platform [] other) = .ok records' ∧
    summarizeExecutionEvidenceForDossier platform records =
      summarizeExecutionEvidenceForDossier platform records'

/-- No `null` entries, no unsigned members in an accepted entry, and no body accepted under two
keys.  A member `__proto__` is not written. -/
structure SignedOnly (platform : EvidencePlatform Key)
    (inputs : List IngestExecutionEvidenceInput) : Prop where
  notNull : NoNullEntries platform inputs
  members : ∀ acceptance ∈ acceptances platform inputs, ∀ members,
    acceptance.entry.value = .obj members → ∀ p ∈ members,
      p.1 ∈ signedKeys ∨ p.1 = js "attestationSignatureHex" ∨ p.1 = protoKey
  oneFingerprint : OneFingerprint (acceptances platform inputs)

theorem mem_keys_of_mem_storedMembers {members : List (JsString × Json)}
    (h : (members.map Prod.fst).Nodup) {p : JsString × Json} (hp : p ∈ storedMembers members) :
    p.1 ∈ members.map Prod.fst ∧ p.1 ≠ protoKey := by
  have hget := mapGet_eq_some_of_mem nodup_keys_storedMembers hp
  have hne : p.1 ≠ protoKey := by
    intro heq
    rw [heq, mapGet_storedMembers_proto h] at hget
    cases hget
  refine ⟨?_, hne⟩
  by_contra hnot
  rw [mapGet_storedMembers h hne, mapGet_eq_none_iff.mpr hnot] at hget
  cases hget

theorem verifyEvidenceSignature_stored {evidence : Json} (h : HasEvidenceShape evidence)
    (hordered : evidence.Ordered) (key : Key) :
    verifyEvidenceSignature platform (stored evidence) key =
      verifyEvidenceSignature platform evidence key := by
  obtain ⟨s, hs⟩ := h.signature
  have hsignature : text (stored evidence) "attestationSignatureHex" =
      text evidence "attestationSignatureHex" := by
    rw [text, text, property_stored hordered (by decide), hs]
    rfl
  unfold verifyEvidenceSignature buildExecutionEvidenceSigningBytes
  rw [hsignature, h.stripSignature_stored hordered]

theorem holdsSignedFields_of_isRecordAt {signedBy : Key → Bytes → Prop}
    (hsigned : ∀ key data signature, platform.verify key data signature = true →
      signedBy key data)
    {inputs : List IngestExecutionEvidenceInput} (h : SignedOnly platform inputs)
    {path : EvidencePath} {record : Json}
    (hat : IsRecordAt platform (acceptances platform inputs) path record) :
    HoldsSignedFields platform signedBy record := by
  obtain ⟨acceptance, hmem, -, rfl⟩ := hat
  have hordered := acceptance.entry.ordered
  have hevidence : evidenceOf (stored acceptance.record.toJson) =
      stored acceptance.entry.value :=
    PersistedExecutionEvidenceRecord.evidenceOf_stored hordered
  obtain ⟨input, -, key, -, haccepted, hfingerprint⟩ := exists_key_of_mem_acceptances hmem
  have hshape := hasEvidenceShape_of_validate haccepted.1
  constructor
  · obtain ⟨members, hmembers⟩ := hshape.exists_obj
    refine ⟨storedMembers members, ?_, fun p hp ↦ ?_⟩
    · rw [hevidence, ← stored_obj, ← hmembers]
    · rw [hmembers] at hordered
      obtain ⟨hkey, hne⟩ := mem_keys_of_mem_storedMembers (Json.ordered_obj.mp hordered).1.1 hp
      obtain ⟨q, hq, hqp⟩ := List.mem_map.mp hkey
      rcases h.members acceptance hmem members hmembers q hq with hkey | hkey | hkey
      · exact .inl (hqp ▸ hkey)
      · exact .inr (hqp ▸ hkey)
      · exact absurd (hqp.symm.trans hkey) hne
  · have hverify := haccepted.2.2.2
    refine ⟨key, ?_, ?_, ?_⟩
    · rw [hevidence]
      exact (verifyEvidenceSignature_stored hshape hordered key).trans hverify
    · rw [hevidence, buildExecutionEvidenceSigningBytes, hshape.stripSignature_stored hordered]
      unfold verifyEvidenceSignature at hverify
      simp only [ite_some_eq_none_iff, Bool.not_eq_true', Bool.not_eq_false] at hverify
      exact hsigned _ _ _ hverify.2.2.2.1
    · rw [PersistedExecutionEvidenceRecord.fingerprint_stored hordered]
      exact hfingerprint

theorem holdsWhatWasSigned_of_signedOnly (hplatform : platform.Lawful)
    {signedBy : Key → Bytes → Prop}
    (hsigned : ∀ key data signature, platform.verify key data signature = true →
      signedBy key data)
    {inputs : List IngestExecutionEvidenceInput} (h : SignedOnly platform inputs) :
    HoldsWhatWasSigned platform signedBy inputs := by
  have hshape := allShaped_acceptances platform inputs
  have hcorpus := holdsAccepted_foldl platform (acceptances platform inputs)
  rw [← ingestAll_eq h.notNull] at hcorpus
  obtain ⟨records, hload, hforall⟩ := hcorpus.exists_records hplatform
  constructor
  · refine ⟨records, hload, ?_, fun body ↦ ?_, fun record hrecord ↦ ?_⟩
    · exact nodup_recordBody hshape (nodup_evidencePaths hplatform hcorpus.nodup) hforall
    · rw [mem_recordBody_iff hplatform hshape hcorpus hforall, isAcceptedBody_iff]
    · obtain ⟨path, -, hat⟩ := exists_of_forall₂_of_mem hforall.flip hrecord
      exact holdsSignedFields_of_isRecordAt hsigned h hat
  · intro input hinput key hkey entry hentry hnot fingerprint state
    obtain ⟨testCaseId, tmsCaseId, code, detail, hreject⟩ := ingestEntry_of_not_isAccepted
      fingerprint hnot (h.notNull input hinput key hkey entry hentry) state
    exact ⟨_, hreject, rfl⟩
  · intro input hinput key hkey corpus
    obtain ⟨next, hnext, -, hlength, htotal⟩ := ingestEntries_of_notNull
      (computeVerifyingKeyFingerprint platform key) (h.notNull input hinput key hkey)
      (IngestState.start corpus)
    refine ⟨_, by rw [ingestExecutionEvidence, hkey]; dsimp only; rw [hnext], ?_, rfl, rfl, ?_⟩
    · exact hlength.trans (Nat.zero_add _)
    · exact htotal rfl
  · intro other hperm
    have hnull : NoNullEntries platform other := fun input hinput ↦
      h.notNull input (hperm.mem_iff.mp hinput)
    have hcorpus' := holdsAccepted_foldl platform (acceptances platform other)
    rw [← ingestAll_eq hnull] at hcorpus'
    obtain ⟨records', hload', hforall'⟩ := hcorpus'.exists_records hplatform
    have hmem : ∀ acceptance, acceptance ∈ acceptances platform inputs ↔
        acceptance ∈ acceptances platform other := fun acceptance ↦
      (hperm.flatMap_right _).mem_iff.symm
    exact ⟨records, records', hload, hload',
      summarize_congr hplatform hmem hshape h.oneFingerprint hcorpus hcorpus' hforall hforall'⟩

end

/-! ## A signed pull -/

def sampleSignature : JsString :=
  js "eacb6e2a852bb12f21a46908996ea3536b5581ed0a7819d2dcc16733e03551f7" ++
    js "f25151ff3e5526d683252f33e31f4930cdb1c813630b935f7e8e255317521a0b"

/-- The members of a signed entry, and further ones. -/
def sampleMembers (further : List (JsString × Json)) : List (JsString × Json) := [
  (js "testCaseId", .str (js "tc-1")),
  (js "tenantId", .str (js "acme")),
  (js "tmsAdapterId", .str (js "xray")),
  (js "tmsCaseId", .str (js "X-1")),
  (js "executionVerdict", .str (js "pass")),
  (js "executedAt", .str (js "2026-01-02T03:04:05Z")),
  (js "attestationSignatureHex", .str sampleSignature)] ++ further

def signedEntry : EvidenceEntry where
  value := .obj (sampleMembers [])
  ordered := by
    have hkeys : (sampleMembers []).map Prod.fst = ["testCaseId", "tenantId", "tmsAdapterId",
      "tmsCaseId", "executionVerdict", "executedAt", "attestationSignatureHex"].map js := rfl
    rw [Json.ordered_obj]
    refine ⟨enumerated_of_names hkeys (by decide) (by decide), ?_⟩
    simp [sampleMembers]

/-- The signed entry with a member that nobody signed. -/
def annotatedEntry : EvidenceEntry where
  value := .obj (sampleMembers [(js "note", .str (js "verified"))])
  ordered := by
    have hkeys : (sampleMembers [(js "note", .str (js "verified"))]).map Prod.fst =
      ["testCaseId", "tenantId", "tmsAdapterId", "tmsCaseId", "executionVerdict", "executedAt",
        "attestationSignatureHex", "note"].map js := rfl
    rw [Json.ordered_obj]
    refine ⟨enumerated_of_names hkeys (by decide) (by decide), ?_⟩
    simp [sampleMembers]

def samplePem : JsString :=
  js "-----BEGIN PUBLIC KEY-----\n" ++
    js "MCowBQYDK2VwAyEARgvDAy6I1AKJY1dp43O2DcrqlIbKMX/67Q35VZR6bBg=\n" ++
      js "-----END PUBLIC KEY-----\n"

def sampleDer : JsString := js "MCowBQYDK2VwAyEARgvDAy6I1AKJY1dp43O2DcrqlIbKMX/67Q35VZR6bBg="

def sampleDigests : List (Bytes × JsString) := [
  (utf8Encode (canonicalJson (.str sampleDer)),
    js "207b94b5beb8707f5488b794c1d0934d929b42f25ba06f92879a0175f56a494b"),
  (utf8Encode (canonicalJson (.str (canonicalJson (stripSignature signedEntry.value)))),
    js "1e468b0ef8b540515f9b38ea1ea02daa8e9be5f667867764708ef394df5d75ce")]

/-- The holder of the sample key signed one body. -/
def SampleSigned (_ : Unit) (data : Bytes) : Prop :=
  data = buildExecutionEvidenceSigningBytes signedEntry.value

def sampleEvidencePlatform : EvidencePlatform Unit where
  createPublicKey := fun pem ↦
    if pem = samplePem then .ok () else .error (js "error:1E08010C:DECODER routines::unsupported")
  asymmetricKeyType := fun _ ↦ js "ed25519"
  exportDer := fun _ ↦ sampleDer
  verify := fun _ data signature ↦
    data == buildExecutionEvidenceSigningBytes signedEntry.value &&
      signature == hexBuffer sampleSignature
  sha256 := tabledSha256 sampleDigests
  localeCompare := codeUnitCompare
  readdir := id
  inherited := fun _ ↦ none

theorem isDigestTable_sampleDigests : IsDigestTable sampleDigests := by
  constructor
  · change List.Nodup [_, _]
    decide
  · simp only [sampleDigests, List.forall_mem_cons]
    exact ⟨by decide, by decide, by simp⟩

theorem sampleEvidencePlatform_lawful : sampleEvidencePlatform.Lawful where
  sha256_injective := tabledSha256_injective isDigestTable_sampleDigests
  sha256_hex := all_tabledSha256 isDigestTable_sampleDigests
  localeCompare_consistent := consistent_codeUnitCompare
  localeCompare_antisymm := fun _ _ _ _ hab hba ↦
    List.le_antisymm (codeUnitCompare_nonpos.mp hab) (codeUnitCompare_nonpos.mp hba)
  readdir_perm := List.Perm.refl

theorem sampleSigned_of_verify (key : Unit) (data signature : Bytes)
    (h : sampleEvidencePlatform.verify key data signature = true) : SampleSigned key data :=
  beq_iff_eq.mp (Bool.and_eq_true_iff.mp h).1

def sampleInput (evidence : List EvidenceEntry) : IngestExecutionEvidenceInput where
  evidence
  tenantId := js "acme"
  verifyingPublicKeyPem := samplePem
  tmsAdapterId := js "xray"
  projectId := js "PROJ"
  sinceIso := js "2026-01-01T00:00:00Z"
  now := fun _ ↦ js "2026-01-03T00:00:00.000Z"

theorem verifyingKeyOf_sampleInput (evidence : List EvidenceEntry) :
    verifyingKeyOf sampleEvidencePlatform (sampleInput evidence) = .ok () := rfl

theorem isAccepted_annotatedEntry (evidence : List EvidenceEntry) :
    IsAccepted sampleEvidencePlatform (sampleInput evidence) () annotatedEntry.value := by
  refine ⟨by decide +kernel, ?_, by decide +kernel, by decide +kernel⟩
  change text annotatedEntry.value "tenantId" = js "acme"
  decide

theorem entry_eq_of_mem_acceptances_sample {entry : EvidenceEntry} {acceptance : Acceptance}
    (h : acceptance ∈ acceptances sampleEvidencePlatform [sampleInput [entry]]) :
    acceptance.entry = entry := by
  obtain ⟨input, hinput, h⟩ := List.mem_flatMap.mp h
  obtain rfl := List.mem_singleton.mp hinput
  exact List.mem_singleton.mp (mem_of_mem_acceptancesFrom h)

theorem signedPull_holdsWhatWasSigned :
    HoldsWhatWasSigned sampleEvidencePlatform SampleSigned [sampleInput [signedEntry]] := by
  apply holdsWhatWasSigned_of_signedOnly sampleEvidencePlatform_lawful sampleSigned_of_verify
  refine ⟨fun input hinput key _ entry hentry ↦ ?_, fun acceptance hmem members hmembers ↦ ?_,
    fun acceptance hmem acceptance' hmem' _ ↦ ?_⟩
  · obtain rfl := List.mem_singleton.mp hinput
    obtain rfl := List.mem_singleton.mp hentry
    exact nofun
  · rw [entry_eq_of_mem_acceptances_sample hmem] at hmembers
    obtain rfl := Json.obj.inj hmembers
    decide
  · obtain ⟨input, hinput, key, -, -, hfingerprint⟩ := exists_key_of_mem_acceptances hmem
    obtain ⟨input', hinput', key', -, -, hfingerprint'⟩ := exists_key_of_mem_acceptances hmem'
    exact hfingerprint.trans hfingerprint'.symm

/-- The member that nobody signed is stored with the signed ones. -/
theorem annotatedPull_stores_note :
    sampleEvidencePlatform.Lawful ∧
    (∀ key data signature, sampleEvidencePlatform.verify key data signature = true →
      SampleSigned key data) ∧
    ¬ HoldsWhatWasSigned sampleEvidencePlatform SampleSigned [sampleInput [annotatedEntry]] := by
  refine ⟨sampleEvidencePlatform_lawful, sampleSigned_of_verify, fun h ↦ ?_⟩
  obtain ⟨records, hload, -, hbodies, hfields⟩ := h.records
  have hnull : NoNullEntries sampleEvidencePlatform [sampleInput [annotatedEntry]] := by
    intro input hinput key _ entry hentry
    obtain rfl := List.mem_singleton.mp hinput
    obtain rfl := List.mem_singleton.mp hentry
    exact nofun
  have hcorpus := holdsAccepted_foldl sampleEvidencePlatform
    (acceptances sampleEvidencePlatform [sampleInput [annotatedEntry]])
  rw [← ingestAll_eq hnull] at hcorpus
  obtain ⟨records', hload', hforall⟩ := hcorpus.exists_records sampleEvidencePlatform_lawful
  obtain rfl := Except.ok.inj (hload.symm.trans hload')
  have haccepted : IsAcceptedBody sampleEvidencePlatform [sampleInput [annotatedEntry]]
      (stripSignature annotatedEntry.value) :=
    ⟨_, List.mem_singleton_self _, (), verifyingKeyOf_sampleInput _, annotatedEntry,
      List.mem_singleton_self _, isAccepted_annotatedEntry _, rfl⟩
  obtain ⟨record, hrecord, -⟩ := List.mem_map.mp ((hbodies _).mpr haccepted)
  obtain ⟨path, -, acceptance, hmem, -, rfl⟩ := exists_of_forall₂_of_mem hforall.flip hrecord
  obtain ⟨members, hmembers, hkeys⟩ := (hfields _ hrecord).members
  rw [PersistedExecutionEvidenceRecord.evidenceOf_stored acceptance.entry.ordered] at hmembers
  have hevidence : acceptance.record.evidence = annotatedEntry.value :=
    congrArg EvidenceEntry.value (entry_eq_of_mem_acceptances_sample hmem)
  have hnote := property_stored annotatedEntry.ordered (show js "note" ≠ protoKey by decide)
  rw [hevidence] at hmembers
  rw [hmembers] at hnote
  have hmember := mem_of_mapGet (hnote.trans rfl)
  rcases hkeys _ hmember with hkey | hkey
  · exact absurd hkey (by decide)
  · exact absurd hkey (by decide)

end TestIntelligence.Integrations
