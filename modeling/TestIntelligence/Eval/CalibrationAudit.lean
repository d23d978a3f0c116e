import TestIntelligence.Eval.CalibrationRecords
import TestIntelligence.Systems.Runs

/-!
# The audit trail of the calibration

Refits are proposed and decided on in any order.  Each ratified record backs its curve as long
as no later write lands on it, so the guard passes after every run that leaves decided records
alone.
-/

namespace TestIntelligence.Eval

open Js Security Systems

section

variable {PrivateKey PublicKey : Type}

/-! ## Sound directories -/

/-- The curve and the id of a proposal are those of its cell. -/
structure Coherent (platform : Platform PrivateKey PublicKey)
    (proposal : CalibrationRefitProposal) : Prop where
  digest : proposal.proposedCurveDigest = proposal.proposedCurve.digest
  curve : proposal.proposedCurve.digest =
    computeCurveDigest platform proposal.proposedCurve.members
  locale : proposal.locale = proposal.proposedCurve.locale
  riskClass : proposal.riskClass = proposal.proposedCurve.riskClass
  id : proposal.proposalId = computeProposalId platform proposal.locale proposal.riskClass
    proposal.proposedAt proposal.proposedCurveDigest

/-- A record that is unsigned, or that an allowed key has ratified. -/
structure Recorded (platform : Platform PrivateKey PublicKey) (allowed : Option (List JsString))
    (record : CalibrationRefitProposal) : Prop where
  coherent : Coherent platform record
  signature : record.signature = none ∨ ∃ proposal decidedAt key,
    proposal.signature = none ∧
    platform.ed25519.asymmetricKeyType key = some (js "ed25519") ∧
    isAllowedKey allowed (keyFingerprint platform (platform.ed25519.createPublicKey key)) = true ∧
    record = ratifiedRecord platform proposal decidedAt key

def CurvesDirectory.Holds (directory : CurvesDirectory) (record : CalibrationRefitProposal) :
    Prop :=
  mapGet directory.proposals (proposalFilename record.proposalId) = some (fileText record.toJson)

structure SoundDirectory (platform : Platform PrivateKey PublicKey)
    (allowed : Option (List JsString)) (directory : CurvesDirectory) : Prop where
  /-- A file is that of a record or of a rejection. -/
  proposals : ∀ name text, mapGet directory.proposals name = some text →
    (∃ record, Recorded platform allowed record ∧ name = proposalFilename record.proposalId ∧
      text = fileText record.toJson) ∨
    ∃ sidecar : CalibrationRejectionSidecar, name = rejectionFilename sidecar.proposalId ∧
      text = fileText sidecar.toJson
  /-- A production curve is the one of a ratified record. -/
  curves : ∀ name text, mapGet directory.curves name = some text →
    ∃ record, Recorded platform allowed record ∧ record.signature.isSome = true ∧
      directory.Holds record ∧ text = fileText record.proposedCurve.toJson

variable {platform : Platform PrivateKey PublicKey} {allowed : Option (List JsString)}
  {directory : CurvesDirectory} {record : CalibrationRefitProposal}

/-! ## The guard on a sound directory -/

theorem tryReadJson_of_mapGet {files : List (JsString × JsString)} {name : JsString} {v : Json}
    (hv : v.Ordered) (hget : mapGet files name = some (fileText v)) :
    tryReadJson platform files name = .ok (some (stored v)) := by
  unfold tryReadJson
  rw [hget]
  dsimp only
  rw [parse_fileText hv]

theorem Recorded.not_endsWith_rejection (hplatform : platform.Lawful)
    (h : Recorded platform allowed record) :
    endsWith (proposalFilename record.proposalId) SELF_IMPROVING_CALIBRATION_REJECTION_SUFFIX =
      false := by
  rw [h.coherent.id]
  exact Eval.not_endsWith_rejection hplatform _ _ _ _

theorem readHistoryFile_record (hplatform : platform.Lawful)
    (h : Recorded platform allowed record) (hholds : directory.Holds record) :
    readHistoryFile platform directory.proposals (proposalFilename record.proposalId) =
      .ok (some (.proposal (stored record.toJson))) := by
  have hending : endsWith (proposalFilename record.proposalId) (js ".json") = true :=
    endsWith_append _ _
  rw [readHistoryFile, h.not_endsWith_rejection hplatform, if_neg Bool.false_ne_true,
    if_pos hending, tryReadJson_of_mapGet record.ordered_toJson hholds]
  rfl

theorem readHistoryFile_rejection {sidecar : CalibrationRejectionSidecar}
    (hget : mapGet directory.proposals (rejectionFilename sidecar.proposalId) =
      some (fileText sidecar.toJson)) :
    readHistoryFile platform directory.proposals (rejectionFilename sidecar.proposalId) =
      .ok (some (.rejection (stored sidecar.toJson))) := by
  have hending : endsWith (rejectionFilename sidecar.proposalId)
      SELF_IMPROVING_CALIBRATION_REJECTION_SUFFIX = true := endsWith_append _ _
  rw [readHistoryFile, if_pos hending, tryReadJson_of_mapGet sidecar.ordered_toJson hget]
  rfl

theorem exists_of_mem_sortedNames {files : List (JsString × JsString)} {name : JsString}
    (h : name ∈ sortedNames platform files) : ∃ text, mapGet files name = some text := by
  rw [sortedNames, mem_sortBy] at h
  cases hget : mapGet files name with
  | none => exact absurd h (mapGet_eq_none_iff.mp hget)
  | some text => exact ⟨text, rfl⟩

theorem mem_sortedNames (platform : Platform PrivateKey PublicKey)
    {files : List (JsString × JsString)} {name text : JsString}
    (h : mapGet files name = some text) : name ∈ sortedNames platform files := by
  rw [sortedNames, mem_sortBy]
  exact List.mem_map_of_mem (mem_of_mapGet h)

/-- What is loaded from a sound directory. -/
theorem loadCalibrationRefitHistory_of_sound (hplatform : platform.Lawful)
    (h : SoundDirectory platform allowed directory) :
    ∃ history, loadCalibrationRefitHistory platform directory = .ok history ∧
      (∀ value ∈ history.productionCurves, ∃ record, Recorded platform allowed record ∧
        record.signature.isSome = true ∧ directory.Holds record ∧
        value = stored record.proposedCurve.toJson) ∧
      (∀ value ∈ history.proposals, ∃ record, Recorded platform allowed record ∧
        value = stored record.toJson) ∧
      ∀ record, Recorded platform allowed record → directory.Holds record →
        stored record.toJson ∈ history.proposals := by
  have hcurve : ∀ name ∈ sortedNames platform directory.curves,
      ∃ record, Recorded platform allowed record ∧ record.signature.isSome = true ∧
        directory.Holds record ∧ tryReadJson platform directory.curves name =
          .ok (some (stored record.proposedCurve.toJson)) := by
    intro name hname
    obtain ⟨text, hget⟩ := exists_of_mem_sortedNames hname
    obtain ⟨record, hrecord, hsigned, hholds, rfl⟩ := h.curves name text hget
    exact ⟨record, hrecord, hsigned, hholds,
      tryReadJson_of_mapGet record.proposedCurve.ordered_toJson hget⟩
  have hfile : ∀ name ∈ sortedNames platform directory.proposals,
      (∃ record, Recorded platform allowed record ∧
        readHistoryFile platform directory.proposals name =
          .ok (some (.proposal (stored record.toJson)))) ∨
      ∃ sidecar : CalibrationRejectionSidecar, readHistoryFile platform directory.proposals name =
        .ok (some (.rejection (stored sidecar.toJson))) := by
    intro name hname
    obtain ⟨text, hget⟩ := exists_of_mem_sortedNames hname
    rcases h.proposals name text hget with ⟨record, hrecord, rfl, rfl⟩ | ⟨sidecar, rfl, rfl⟩
    · exact .inl ⟨record, hrecord, readHistoryFile_record hplatform hrecord hget⟩
    · exact .inr ⟨sidecar, readHistoryFile_rejection hget⟩
  have hcurveOk : ∀ name ∈ (sortedNames platform directory.curves).filter fun name ↦
      (parseCurveFilename name).isSome,
      ∃ value, tryReadJson platform directory.curves name = .ok value := by
    intro name hname
    obtain ⟨record, -, -, -, hread⟩ := hcurve name (List.mem_of_mem_filter hname)
    exact ⟨_, hread⟩
  have hfileOk : ∀ name ∈ sortedNames platform directory.proposals,
      ∃ file, readHistoryFile platform directory.proposals name = .ok file := by
    intro name hname
    rcases hfile name hname with ⟨record, -, hread⟩ | ⟨sidecar, hread⟩
    · exact ⟨_, hread⟩
    · exact ⟨_, hread⟩
  obtain ⟨curves, hcurves, hreadCurves⟩ := exists_mapM_eq_ok hcurveOk
  obtain ⟨files, hfiles, hreadFiles⟩ := exists_mapM_eq_ok hfileOk
  unfold loadCalibrationRefitHistory
  simp only [hcurves, hfiles, ok_bind, pure_eq_ok]
  refine ⟨_, rfl, fun value hvalue ↦ ?_, fun value hvalue ↦ ?_, fun record hrecord hholds ↦ ?_⟩
  · obtain ⟨read, hread, rfl⟩ := List.mem_filterMap.mp hvalue
    obtain ⟨name, hname, hok⟩ := exists_of_forall₂_of_mem hreadCurves.flip hread
    obtain ⟨record, hrecord, hsigned, hholds, hvalue⟩ := hcurve name (List.mem_of_mem_filter hname)
    rw [hvalue] at hok
    exact ⟨record, hrecord, hsigned, hholds, (Option.some.inj (Except.ok.inj hok)).symm⟩
  · obtain ⟨file, hmem, hfound⟩ := List.mem_filterMap.mp hvalue
    obtain ⟨name, hname, hok⟩ := exists_of_forall₂_of_mem hreadFiles.flip hmem
    rcases hfile name hname with ⟨record, hrecord, hread⟩ | ⟨sidecar, hread⟩
    · obtain rfl := Except.ok.inj (hread.symm.trans hok)
      exact ⟨record, hrecord, (Option.some.inj hfound).symm⟩
    · obtain rfl := Except.ok.inj (hread.symm.trans hok)
      cases hfound
  · have hname := mem_sortedNames platform hholds
    obtain ⟨file, hmem, hok⟩ := exists_of_forall₂_of_mem hreadFiles hname
    obtain rfl := Except.ok.inj ((readHistoryFile_record hplatform hrecord hholds).symm.trans hok)
    exact List.mem_filterMap.mpr ⟨_, hmem, rfl⟩

/-- What the loop over the proposals makes of a record. -/
def checkOf (record : CalibrationRefitProposal) : ProposalCheck :=
  match record.signature with
  | none => .unsigned
  | some _ => .ratified record.proposedCurveDigest (stored record.toJson)

theorem checkProposal_record (hplatform : platform.Lawful)
    (h : Recorded platform allowed record) :
    checkProposal platform allowed (stored record.toJson) = .ok (checkOf record) := by
  have hproperty := property_signature record
  rcases h.signature with hunsigned | ⟨proposal, decidedAt, key, hproposal, hkey, hallowed, rfl⟩
  · rw [hunsigned, Option.map_none, Option.map_none] at hproperty
    rw [checkProposal, hproperty, checkOf, hunsigned]
  · let signature := operatorSignature platform (ratifyBody proposal decidedAt) key
    have hverified := verify_ratifiedRecord hplatform hproposal decidedAt hkey
    have hfingerprint := signature.property_stored_toJson (List.mem_of_getElem? (i := 1) rfl)
    have hdigest := (ratifiedRecord platform proposal decidedAt key).property_stored_toJson
      (List.mem_of_getElem? (i := 5) rfl)
    have hrolledBack := (ratifiedRecord platform proposal decidedAt key).property_stored_toJson
      (List.mem_of_getElem? (i := 11) rfl)
    have hsignature : (ratifiedRecord platform proposal decidedAt key).signature =
        some signature := rfl
    have hnotRolledBack : (ratifiedRecord platform proposal decidedAt key).rolledBack = false := rfl
    rw [hsignature, Option.map_some, Option.map_some] at hproperty
    rw [hnotRolledBack, Option.map_some] at hrolledBack
    rw [Option.map_some, stored_str] at hfingerprint hdigest
    have hallowed' : isAllowedKey allowed signature.keyFingerprintSha256 = true := hallowed
    have htruthy : isTruthy (some (stored (.bool false))) = false := rfl
    rw [checkProposal, hproperty]
    simp only [hverified, hfingerprint, hdigest, hrolledBack, textOf, hallowed', htruthy, ok_bind,
      checkOf, hsignature]
    rfl

/-- The map from digests holds a ratified proposal for each digest that has one. -/
theorem exists_mapGet_ratifiedByDigest {checks : List ProposalCheck} {digest : JsString}
    {value : Json} (h : .ratified digest value ∈ checks) :
    ∃ backing, mapGet (ratifiedByDigest checks) digest = some backing ∧
      .ratified digest backing ∈ checks := by
  induction checks using List.reverseRecOn with
  | nil => simp at h
  | append_singleton checks check ih =>
      have hstep : ratifiedByDigest (checks ++ [check]) =
          addRatified (ratifiedByDigest checks) check := by
        rw [ratifiedByDigest, List.foldl_append]
        rfl
      have hold : .ratified digest value ∈ checks → ∃ backing,
          mapGet (ratifiedByDigest checks) digest = some backing ∧
            .ratified digest backing ∈ checks ++ [check] := by
        intro hmem
        obtain ⟨backing, hget, hmem⟩ := ih hmem
        exact ⟨backing, hget, List.mem_append_left _ hmem⟩
      rw [List.mem_append, List.mem_singleton] at h
      rw [hstep]
      cases check with
      | unsigned => exact hold (h.resolve_right nofun)
      | violation message => exact hold (h.resolve_right nofun)
      | ratified digest' proposal =>
          by_cases hdigest : digest = digest'
          · subst hdigest
            exact ⟨proposal, mapGet_mapSet_self _ _ _, by simp⟩
          · simp only [addRatified, mapGet_mapSet, if_neg hdigest]
            apply hold
            apply h.resolve_right
            rintro ⟨rfl, rfl⟩
            exact hdigest rfl

/-- A production curve of a recorded proposal, against the map of the checks. -/
theorem checkCurve_record (hplatform : platform.Lawful) (h : Recorded platform allowed record)
    {checks : List ProposalCheck} (hchecks : ∀ digest backing, .ratified digest backing ∈ checks →
      ∃ other, Recorded platform allowed other ∧ digest = other.proposedCurveDigest ∧
        backing = stored other.toJson)
    (hmem : ∃ value, .ratified record.proposedCurveDigest value ∈ checks) :
    checkCurve platform (ratifiedByDigest checks) (stored record.proposedCurve.toJson) = none := by
  obtain ⟨value, hmem⟩ := hmem
  obtain ⟨backing, hget, hmem⟩ := exists_mapGet_ratifiedByDigest hmem
  obtain ⟨other, hother, hsame, rfl⟩ := hchecks _ _ hmem
  have hlocale := record.proposedCurve.property_stored_toJson (List.mem_of_getElem? (i := 1) rfl)
  have hriskClass := record.proposedCurve.property_stored_toJson
    (List.mem_of_getElem? (i := 2) rfl)
  have hdigest := record.proposedCurve.property_stored_toJson (List.mem_of_getElem? (i := 11) rfl)
  have hotherLocale := other.property_stored_toJson (List.mem_of_getElem? (i := 2) rfl)
  have hotherRiskClass := other.property_stored_toJson (List.mem_of_getElem? (i := 3) rfl)
  simp only [Option.map_some, stored_str] at hlocale hriskClass hdigest
  simp only [Option.map_some, stored_str] at hotherLocale hotherRiskClass
  have hne : record.proposedCurve.digest ≠ [] := by
    rw [h.coherent.curve]
    exact hplatform.sha256_ne_nil _
  have hdigests : computeCurveDigest platform other.proposedCurve.members =
      computeCurveDigest platform record.proposedCurve.members := by
    rw [← hother.coherent.curve, ← h.coherent.curve, ← hother.coherent.digest,
      ← h.coherent.digest, hsame]
  obtain ⟨hsameLocale, hsameRiskClass⟩ := cell_eq_of_digest_eq hplatform hdigests
  rw [← hother.coherent.locale] at hsameLocale
  rw [← hother.coherent.riskClass] at hsameRiskClass
  rw [h.coherent.digest] at hget
  unfold checkCurve
  simp only [hlocale, hriskClass, hdigest, textOf, computeCurveDigest_stored, hget, hotherLocale,
    hotherRiskClass, hsameLocale, hsameRiskClass]
  rw [if_neg (by simpa using hne), if_neg (not_not.mpr h.coherent.curve.symm), if_neg (by simp)]

/-- A sound directory passes the guard. -/
theorem assertCalibrationRefitSafety_of_sound (hplatform : platform.Lawful)
    (h : SoundDirectory platform allowed directory) :
    assertCalibrationRefitSafety platform directory allowed = .ok () := by
  obtain ⟨history, hload, hcurves, hproposals, hholds⟩ :=
    loadCalibrationRefitHistory_of_sound hplatform h
  have hcheck : ∀ value ∈ history.proposals, ∃ record, Recorded platform allowed record ∧
      value = stored record.toJson ∧
      checkProposal platform allowed value = .ok (checkOf record) := by
    intro value hvalue
    obtain ⟨record, hrecord, rfl⟩ := hproposals value hvalue
    exact ⟨record, hrecord, rfl, checkProposal_record hplatform hrecord⟩
  have hcheckOk : ∀ value ∈ history.proposals,
      ∃ check, checkProposal platform allowed value = .ok check := by
    intro value hvalue
    obtain ⟨record, -, -, hok⟩ := hcheck value hvalue
    exact ⟨_, hok⟩
  obtain ⟨checks, hchecks, hforall⟩ := exists_mapM_eq_ok hcheckOk
  have hofCheck : ∀ check ∈ checks, ∃ record, Recorded platform allowed record ∧
      check = checkOf record := by
    intro check hmem
    obtain ⟨value, hvalue, hok⟩ := exists_of_forall₂_of_mem hforall.flip hmem
    obtain ⟨record, hrecord, -, hok'⟩ := hcheck value hvalue
    exact ⟨record, hrecord, Except.ok.inj (hok.symm.trans hok')⟩
  have hratified : ∀ digest backing, .ratified digest backing ∈ checks →
      ∃ other, Recorded platform allowed other ∧ digest = other.proposedCurveDigest ∧
        backing = stored other.toJson := by
    intro digest backing hmem
    obtain ⟨record, hrecord, hcheck⟩ := hofCheck _ hmem
    unfold checkOf at hcheck
    split at hcheck
    · cases hcheck
    · obtain ⟨rfl, rfl⟩ := ProposalCheck.ratified.inj hcheck
      exact ⟨record, hrecord, rfl, rfl⟩
  have hproposalViolations : checks.filterMap ProposalCheck.violation? = [] := by
    rw [List.filterMap_eq_nil_iff]
    intro check hmem
    obtain ⟨record, -, rfl⟩ := hofCheck check hmem
    unfold checkOf
    split <;> rfl
  have hcurveViolations : history.productionCurves.filterMap
      (checkCurve platform (ratifiedByDigest checks)) = [] := by
    rw [List.filterMap_eq_nil_iff]
    intro value hvalue
    obtain ⟨record, hrecord, hsigned, hheld, rfl⟩ := hcurves value hvalue
    apply checkCurve_record hplatform hrecord hratified
    obtain ⟨check, hmem, hok⟩ := exists_of_forall₂_of_mem hforall (hholds record hrecord hheld)
    obtain ⟨signature, hsignature⟩ := Option.isSome_iff_exists.mp hsigned
    rw [checkProposal_record hplatform hrecord, checkOf, hsignature] at hok
    obtain rfl := Except.ok.inj hok
    exact ⟨_, hmem⟩
  unfold assertCalibrationRefitSafety
  simp only [hload, hchecks, ok_bind, hproposalViolations, hcurveViolations]
  rfl

end

end TestIntelligence.Eval
