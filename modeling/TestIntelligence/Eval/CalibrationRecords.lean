import TestIntelligence.Eval.CalibrationRefit
import TestIntelligence.Js.JsonText
import TestIntelligence.Security.Digests

/-!
# The guard of the calibration curves

`assertCalibrationRefitSafety` reads the whole curves directory and asks for a ratified proposal
behind every production curve.  The records are read as they stand in their files.
-/

namespace TestIntelligence.Eval

open Js Security

/-- `filename.endsWith(ending)` -/
def endsWith (filename ending : JsString) : Bool := ending.isSuffixOf filename

/-- The parts before and after the first `__`. -/
def splitCell : JsString → Option (JsString × JsString)
  | 0x5F :: 0x5F :: rest => some ([], rest)
  | u :: rest => (splitCell rest).map fun parts ↦ (u :: parts.1, parts.2)
  | [] => none

def parseCurveFilename (filename : JsString) : Option (JsString × RegulatedRiskClass) := do
  let stem ← stripSuffix (js ".json") filename
  let (locale, riskClass) ← splitCell stem
  let riskClass ← REGULATED_RISK_CLASSES.find? (·.text = riskClass)
  pure (locale, riskClass)

/-- What a file of the directory of proposals holds. -/
inductive HistoryFile
  | proposal (value : Json)
  | rejection (value : Json)

structure CalibrationRefitHistory where
  productionCurves : List Json
  proposals : List Json
  rejections : List Json

/-- `Boolean(value)` -/
def isTruthy : Option Json → Bool
  | none | some .null => false
  | some (.bool b) => b
  | some (.num x) => x != .nan && !x.eqNat 0
  | some (.str s) => s != []
  | some (.arr _) | some (.obj _) => true

/-- The value without its signature. -/
def buildSigningPayload (proposal : Json) : Json :=
  match proposal with
  | .obj members => .obj (mapDelete members (js "signature"))
  | value => value

section

variable {PrivateKey PublicKey : Type} (platform : Platform PrivateKey PublicKey)

def verifyCalibrationOperatorSignature (proposal : Json) : Except CalibrationError Bool :=
  match property proposal (js "signature") with
  | none => .ok false
  | some signature =>
      if textOf (property signature (js "algorithm")) ≠ js "ed25519" then .ok false
      else
        match platform.ed25519.importPem (textOf (property signature (js "publicKeyPem"))) with
        | .error message => .error (.crypto message)
        | .ok publicKey =>
            if keyFingerprint platform publicKey ≠
                textOf (property signature (js "keyFingerprintSha256")) then .ok false
            else .ok (platform.ed25519.verify publicKey
              (utf8Encode (canonicalJson (buildSigningPayload proposal)))
              (textOf (property signature (js "signatureBase64"))))

def readHistoryFile (files : List (JsString × JsString)) (filename : JsString) :
    Except CalibrationError (Option HistoryFile) :=
  if endsWith filename SELF_IMPROVING_CALIBRATION_REJECTION_SUFFIX then
    (tryReadJson platform files filename).map (·.map .rejection)
  else if endsWith filename (js ".json") then
    (tryReadJson platform files filename).map (·.map .proposal)
  else .ok none

/-- The names of the files, as the listing is sorted. -/
def sortedNames (files : List (JsString × JsString)) : List JsString :=
  sortBy platform.localeCompare (files.map Prod.fst)

def loadCalibrationRefitHistory (directory : CurvesDirectory) :
    Except CalibrationError CalibrationRefitHistory := do
  let curveNames := (sortedNames platform directory.curves).filter fun filename ↦
    (parseCurveFilename filename).isSome
  let curves ← curveNames.mapM (tryReadJson platform directory.curves)
  let files ← (sortedNames platform directory.proposals).mapM
    (readHistoryFile platform directory.proposals)
  pure
    { productionCurves := curves.filterMap id
      proposals := files.filterMap fun file ↦
        match file with
        | some (.proposal value) => some value
        | _ => none
      rejections := files.filterMap fun file ↦
        match file with
        | some (.rejection value) => some value
        | _ => none }

/-- What the loop over the proposals makes of one of them. -/
inductive ProposalCheck
  | unsigned
  | violation (message : JsString)
  | ratified (digest : JsString) (proposal : Json)

def checkProposal (allowedKeyFingerprints : Option (List JsString)) (proposal : Json) :
    Except CalibrationError ProposalCheck :=
  match property proposal (js "signature") with
  | none => .ok .unsigned
  | some signature => do
      let proposalId := textOf (property proposal (js "proposalId"))
      let fingerprint := textOf (property signature (js "keyFingerprintSha256"))
      let verified ← verifyCalibrationOperatorSignature platform proposal
      pure (if !verified then
          .violation (js "proposal " ++ proposalId ++ js " carries an invalid Ed25519 signature")
        else if !isAllowedKey allowedKeyFingerprints fingerprint then
          .violation (js "proposal " ++ proposalId ++ js " signed by key " ++ fingerprint ++
            js " (not on operator allowlist)")
        else if isTruthy (property proposal (js "rolledBack")) then
          .violation (js "proposal " ++ proposalId ++
            js " carries a signature but is marked rolledBack")
        else .ratified (textOf (property proposal (js "proposedCurveDigest"))) proposal)

def addRatified (ratified : List (JsString × Json)) : ProposalCheck → List (JsString × Json)
  | .ratified digest proposal => mapSet ratified digest proposal
  | _ => ratified

def ratifiedByDigest (checks : List ProposalCheck) : List (JsString × Json) :=
  checks.foldl addRatified []

def ProposalCheck.violation? : ProposalCheck → Option JsString
  | .violation message => some message
  | _ => none

/-- `const { digest: storedDigest, ...curveBody } = curve` -/
def curveBodyOf (curve : Json) : List (JsString × Json) :=
  match curve with
  | .obj members => mapDelete members (js "digest")
  | _ => []

/-- The violation of a production curve, given the ratified proposals by digest. -/
def checkCurve (ratified : List (JsString × Json)) (curve : Json) : Option JsString :=
  let storedDigest := textOf (property curve (js "digest"))
  let locale := textOf (property curve (js "locale"))
  let riskClass := textOf (property curve (js "riskClass"))
  let cell := js "production curve " ++ locale ++ js "/" ++ riskClass
  let recomputedDigest := computeCurveDigest platform (curveBodyOf curve)
  if storedDigest.isEmpty then some (cell ++ js " has empty digest")
  else if recomputedDigest ≠ storedDigest then
    some (cell ++ js " digest mismatch: stored " ++ storedDigest.take 12 ++ js "…, recomputed " ++
      recomputedDigest.take 12 ++ js "…")
  else
    match mapGet ratified storedDigest with
    | none => some (cell ++ js " (digest " ++ storedDigest.take 12 ++
        js "…) has no ratified proposal")
    | some backing =>
        let backingLocale := textOf (property backing (js "locale"))
        let backingRiskClass := textOf (property backing (js "riskClass"))
        if backingLocale ≠ locale ∨ backingRiskClass ≠ riskClass then
          some (cell ++ js " backed by proposal for " ++ backingLocale ++ js "/" ++
            backingRiskClass)
        else none

def assertCalibrationRefitSafety (directory : CurvesDirectory)
    (allowedKeyFingerprints : Option (List JsString)) : Except CalibrationError Unit := do
  let history ← loadCalibrationRefitHistory platform directory
  let checks ← history.proposals.mapM (checkProposal platform allowedKeyFingerprints)
  let violations := checks.filterMap ProposalCheck.violation? ++
    history.productionCurves.filterMap (checkCurve platform (ratifiedByDigest checks))
  if violations.isEmpty then pure () else .error (.safety violations)

end

end TestIntelligence.Eval

/-!
## Reading the calibration records

A record reads back field by field, its signature covers what is read, and the digest of a
curve is found again.  A directory of such records passes the guard.
-/

namespace TestIntelligence.Eval

open Js Security

/-! ## The records are printable -/

theorem ordered_textsJson (texts : List JsString) : (textsJson texts).Ordered := by
  rw [textsJson, Json.ordered_arr]
  intro v hv
  obtain ⟨text, -, rfl⟩ := List.mem_map.mp hv
  trivial

theorem ordered_perClassJson {value : RegulatedRiskClass → Json} (h : ∀ c, (value c).Ordered) :
    (perClassJson value).Ordered := by
  have hkeys : (REGULATED_RISK_CLASSES.map fun c ↦ (c.text, value c)).map Prod.fst =
      ["high", "regulated_data", "financial_transaction"].map js := rfl
  rw [perClassJson, Json.ordered_obj]
  refine ⟨enumerated_of_names hkeys (by decide) (by decide), fun p hp ↦ ?_⟩
  obtain ⟨c, -, rfl⟩ := List.mem_map.mp hp
  exact h c

namespace CalibrationCurveBody

/-- The fields of a curve whose digest is the given text. -/
abbrev withDigest (body : CalibrationCurveBody) (digest : JsString) :
    List (JsString × Option Json) := body.fields ++ [(js "digest", some (.str digest))]

def names : List String :=
  ["schemaVersion", "locale", "riskClass", "intercept", "slope", "trainSampleCount",
    "heldOutSampleCount", "heldOutEce", "heldOutKappa", "perClassHeldOutEce", "fittedAt",
    "digest"]

theorem keys_withDigest (body : CalibrationCurveBody) (digest : JsString) :
    (body.withDigest digest).map Prod.fst = names.map js := rfl

theorem enumerated_withDigest (body : CalibrationCurveBody) (digest : JsString) :
    Enumerated (body.withDigest digest) :=
  enumerated_of_names (body.keys_withDigest digest) (by decide) (by decide)

theorem proto_notMem_withDigest (body : CalibrationCurveBody) (digest : JsString) :
    protoKey ∉ (body.withDigest digest).map Prod.fst := by
  rw [keys_withDigest, protoKey, List.mem_map_of_injective js_injective]
  decide

theorem ordered_fields {body : CalibrationCurveBody} {digest : JsString}
    {field : JsString × Option Json} (hfield : field ∈ body.withDigest digest) {v : Json}
    (hv : v ∈ field.2) : v.Ordered := by
  have hvalues : ∀ c, (Json.num (body.perClassHeldOutEce c)).Ordered := fun _ ↦ trivial
  have hperClass := ordered_perClassJson hvalues
  simp only [withDigest, fields, List.cons_append, List.nil_append, List.mem_cons,
    List.not_mem_nil, or_false] at hfield
  rcases hfield with rfl | rfl | rfl | rfl | rfl | rfl | rfl | rfl | rfl | rfl | rfl | rfl
  all_goals obtain rfl := Option.some.inj hv
  all_goals first | exact hperClass | trivial

end CalibrationCurveBody

theorem CalibrationCurveSnapshot.ordered_toJson (curve : CalibrationCurveSnapshot) :
    curve.toJson.Ordered :=
  ordered_presentMembers (curve.enumerated_withDigest curve.digest)
    fun _ hfield _ hv ↦ CalibrationCurveBody.ordered_fields hfield hv

theorem CalibrationRefitGateEvaluation.ordered_toJson
    (evaluation : CalibrationRefitGateEvaluation) : evaluation.toJson.Ordered := by
  have hvalues : ∀ c, ((evaluation.currentPerClassHeldOutEce c).elim Json.null .num).Ordered := by
    intro c
    cases evaluation.currentPerClassHeldOutEce c <;> trivial
  have hperClass := ordered_perClassJson hvalues
  have htexts := ordered_textsJson evaluation.failedGates
  rw [toJson, Json.ordered_obj]
  have hkeys : ∀ members : List (JsString × Json), members.map Prod.fst =
      ["heldOutEcePassed", "heldOutKappaPassed", "relativeEceRegressionPassed",
        "relativeKappaRegressionPassed", "perClassEceRegressionPassed", "currentHeldOutEce",
        "currentHeldOutKappa", "currentPerClassHeldOutEce", "failedGates"].map js →
      Enumerated members :=
    fun _ h ↦ enumerated_of_names h (by decide) (by decide)
  refine ⟨hkeys _ rfl, ?_⟩
  simp only [List.forall_mem_cons]
  exact ⟨trivial, trivial, trivial, trivial, trivial, trivial, trivial, hperClass, htexts,
    by simp⟩

namespace CalibrationOperatorSignature

theorem keys_fields (signature : CalibrationOperatorSignature) : signature.fields.map Prod.fst =
    ["algorithm", "keyFingerprintSha256", "publicKeyPem", "signatureBase64"].map js := rfl

theorem ordered_toJson (signature : CalibrationOperatorSignature) : signature.toJson.Ordered := by
  apply ordered_presentMembers
  · exact enumerated_of_names signature.keys_fields (by decide) (by decide)
  · intro field hfield v hv
    simp only [fields, List.mem_cons, List.not_mem_nil, or_false] at hfield
    rcases hfield with rfl | rfl | rfl | rfl
    all_goals
      obtain rfl := Option.some.inj hv
      trivial

end CalibrationOperatorSignature

theorem CalibrationRejectionSidecar.ordered_toJson (sidecar : CalibrationRejectionSidecar) :
    sidecar.toJson.Ordered := by
  have htexts := ordered_textsJson sidecar.failedGates
  rw [toJson, Json.ordered_obj]
  have hkeys : ∀ members : List (JsString × Json), members.map Prod.fst =
      ["schemaVersion", "proposalId", "locale", "riskClass", "rolledBackAt", "reason",
        "failedGates"].map js → Enumerated members :=
    fun _ h ↦ enumerated_of_names h (by decide) (by decide)
  refine ⟨hkeys _ rfl, ?_⟩
  simp only [List.forall_mem_cons]
  exact ⟨trivial, trivial, trivial, trivial, trivial, trivial, htexts, by simp⟩

namespace CalibrationRefitProposal

def names : List String :=
  ["schemaVersion", "proposalId", "locale", "riskClass", "previousCurveDigest",
    "proposedCurveDigest", "heldOutEce", "heldOutKappa", "perClassHeldOutEce", "proposedAt",
    "ratifiedAt", "rolledBack", "rollbackReason", "trainSampleCount", "heldOutSampleCount",
    "proposedCurve", "gateEvaluation", "signature"]

theorem keys_fields (proposal : CalibrationRefitProposal) :
    proposal.fields.map Prod.fst = names.map js := rfl

theorem enumerated_fields (proposal : CalibrationRefitProposal) : Enumerated proposal.fields :=
  enumerated_of_names proposal.keys_fields (by decide) (by decide)

theorem proto_notMem_fields (proposal : CalibrationRefitProposal) :
    protoKey ∉ proposal.fields.map Prod.fst := by
  rw [keys_fields, protoKey, List.mem_map_of_injective js_injective]
  decide

theorem ordered_fields {proposal : CalibrationRefitProposal} {field : JsString × Option Json}
    (hfield : field ∈ proposal.fields) {v : Json} (hv : v ∈ field.2) : v.Ordered := by
  have hvalues : ∀ c, (Json.num (proposal.perClassHeldOutEce c)).Ordered := fun _ ↦ trivial
  have hperClass := ordered_perClassJson hvalues
  have hcurve := proposal.proposedCurve.ordered_toJson
  have hgates := proposal.gateEvaluation.ordered_toJson
  simp only [fields, signedFields, List.cons_append, List.nil_append, List.mem_cons,
    List.not_mem_nil, or_false] at hfield
  rcases hfield with rfl | rfl | rfl | rfl | rfl | rfl | rfl | rfl | rfl | rfl | rfl | rfl | rfl |
    rfl | rfl | rfl | rfl | rfl
  all_goals
    first
    | obtain rfl := Option.some.inj hv
      first | exact hperClass | exact hcurve | exact hgates | trivial
    | obtain ⟨value, -, rfl⟩ := Option.map_eq_some_iff.mp hv
      first | trivial | exact value.ordered_toJson

theorem ordered_toJson (proposal : CalibrationRefitProposal) : proposal.toJson.Ordered :=
  ordered_presentMembers proposal.enumerated_fields fun _ hfield _ hv ↦ ordered_fields hfield hv

end CalibrationRefitProposal

/-! ## Fields of a record that was read back -/

theorem parse_fileText {v : Json} (hv : v.Ordered) : Json.parse (fileText v) = some (stored v) :=
  parse_canonicalJson_line hv

theorem property_stored {fields : List (JsString × Option Json)}
    (hfields : (fields.map Prod.fst).Nodup) (hproto : protoKey ∉ fields.map Prod.fst)
    {field : JsString × Option Json} (hfield : field ∈ fields) :
    property (stored (.obj (presentMembers fields))) field.1 = field.2.map stored := by
  obtain ⟨members, hstored, hget⟩ := exists_members_of_record fields hfields hproto
  rw [stored, hstored]
  exact hget field hfield

theorem CalibrationRefitProposal.property_stored_toJson (proposal : CalibrationRefitProposal)
    {field : JsString × Option Json} (hfield : field ∈ proposal.fields) :
    property (stored proposal.toJson) field.1 = field.2.map stored :=
  property_stored proposal.enumerated_fields.1 proposal.proto_notMem_fields hfield

theorem map_stored_str (text : Option JsString) :
    (text.map Json.str).map stored = text.map .str := by
  cases text <;> rfl

/-! The members that decisions write. -/

theorem property_signature (proposal : CalibrationRefitProposal) :
    property (stored proposal.toJson) (js "signature") =
      (proposal.signature.map CalibrationOperatorSignature.toJson).map stored := by
  have hproperty := proposal.property_stored_toJson (List.mem_of_getElem? (i := 17) rfl)
  exact hproperty

theorem property_ratifiedAt (proposal : CalibrationRefitProposal) :
    property (stored proposal.toJson) (js "ratifiedAt") = proposal.ratifiedAt.map .str := by
  have hproperty := proposal.property_stored_toJson (List.mem_of_getElem? (i := 10) rfl)
  exact hproperty.trans (map_stored_str _)

theorem property_rollbackReason (proposal : CalibrationRefitProposal) :
    property (stored proposal.toJson) (js "rollbackReason") =
      proposal.rollbackReason.map .str := by
  have hproperty := proposal.property_stored_toJson (List.mem_of_getElem? (i := 12) rfl)
  exact hproperty.trans (map_stored_str _)

theorem CalibrationCurveSnapshot.property_stored_toJson (curve : CalibrationCurveSnapshot)
    {field : JsString × Option Json} (hfield : field ∈ curve.fields) :
    property (stored curve.toJson) field.1 = field.2.map stored :=
  property_stored (curve.enumerated_withDigest _).1 (curve.proto_notMem_withDigest _) hfield

theorem CalibrationOperatorSignature.property_stored_toJson
    (signature : CalibrationOperatorSignature) {field : JsString × Option Json}
    (hfield : field ∈ signature.fields) :
    property (stored signature.toJson) field.1 = field.2.map stored := by
  apply property_stored _ _ hfield
  · rw [signature.keys_fields]
    exact nodup_map_js.mpr (by decide)
  · rw [signature.keys_fields, protoKey, List.mem_map_of_injective js_injective]
    decide

/-! ## Signatures -/

theorem mapGet_append_of_ne {fields : List (JsString × Option Json)} {key key' : JsString}
    (h : key' ≠ key) (value : Option Json) :
    mapGet (fields ++ [(key, value)]) key' = mapGet fields key' := by
  induction fields with
  | nil => rw [List.nil_append, mapGet_cons, if_neg h]
  | cons field fields ih => rw [List.cons_append, mapGet_cons, mapGet_cons, ih]

/-- What the signature of a stored record covers. -/
theorem canonicalJson_buildSigningPayload (proposal : CalibrationRefitProposal) :
    canonicalJson (buildSigningPayload (stored proposal.toJson)) =
      canonicalJson { proposal with signature := none }.toJson := by
  have hkeys := (keys_presentMembers_sublist proposal.fields)
  have hfields : ∀ key, key ≠ js "signature" →
      mapGet proposal.fields key = mapGet { proposal with signature := none }.fields key := by
    intro key hkey
    rw [CalibrationRefitProposal.fields, CalibrationRefitProposal.fields,
      mapGet_append_of_ne hkey, mapGet_append_of_ne hkey]
    rfl
  have hnone : mapGet (presentMembers { proposal with signature := none }.fields)
      (js "signature") = none := by
    rw [mapGet_presentMembers (CalibrationRefitProposal.enumerated_fields _).1,
      mapGet_eq_some_of_mem (v := none) (CalibrationRefitProposal.enumerated_fields _).1]
    · rfl
    · exact List.mem_append_right _ (List.mem_singleton_self _)
  rw [CalibrationRefitProposal.toJson, stored_obj, buildSigningPayload]
  apply canonicalJson_obj_congr
  · exact keys_mapDelete_nodup nodup_keys_storedMembers _
  · exact (CalibrationRefitProposal.enumerated_fields _).1.sublist (keys_presentMembers_sublist _)
  · intro key
    rw [map_stored_mapGet_mapDelete proposal.ordered_toJson
      fun h ↦ proposal.proto_notMem_fields (hkeys.subset h), mapGet_mapDelete]
    split
    · next hkey => rw [hkey, hnone]
    · next hkey =>
        rw [mapGet_presentMembers proposal.enumerated_fields.1,
          mapGet_presentMembers (CalibrationRefitProposal.enumerated_fields _).1, hfields key hkey]

section

variable {PrivateKey PublicKey : Type} {platform : Platform PrivateKey PublicKey}

/-- What the platform functions are documented to do. -/
structure Platform.Lawful (platform : Platform PrivateKey PublicKey) : Prop where
  sha256_injective : Function.Injective platform.sha256
  sha256_hex : ∀ bytes, (platform.sha256 bytes).all isLowerHex = true
  sha256_ne_nil : ∀ bytes, platform.sha256 bytes ≠ []
  importPem_exportPem : ∀ key,
    platform.ed25519.importPem (trim (platform.ed25519.exportPem key)) = .ok key
  verify_sign : ∀ key payload, platform.ed25519.asymmetricKeyType key = some (js "ed25519") →
    platform.ed25519.verify (platform.ed25519.createPublicKey key) payload
      (platform.ed25519.sign key payload) = true

/-- The signature of a ratified record verifies after the record was written and read. -/
theorem verify_ratifiedRecord (hplatform : platform.Lawful) {proposal : CalibrationRefitProposal}
    (hunsigned : proposal.signature = none) (decidedAt : JsString) {key : PrivateKey}
    (hkey : platform.ed25519.asymmetricKeyType key = some (js "ed25519")) :
    verifyCalibrationOperatorSignature platform
      (stored (ratifiedRecord platform proposal decidedAt key).toJson) = .ok true := by
  let signature := operatorSignature platform (ratifyBody proposal decidedAt) key
  have hfield : (js "signature", some signature.toJson) ∈
      (ratifiedRecord platform proposal decidedAt key).fields :=
    List.mem_append_right _ (List.mem_singleton_self _)
  have hrecord := CalibrationRefitProposal.property_stored_toJson _ hfield
  have halgorithm := signature.property_stored_toJson (List.mem_of_getElem? (i := 0) rfl)
  have hfingerprint := signature.property_stored_toJson (List.mem_of_getElem? (i := 1) rfl)
  have hpem := signature.property_stored_toJson (List.mem_of_getElem? (i := 2) rfl)
  have hbase64 := signature.property_stored_toJson (List.mem_of_getElem? (i := 3) rfl)
  simp only [Option.map_some, stored_str] at hrecord halgorithm hfingerprint hpem hbase64
  have hbody : { ratifiedRecord platform proposal decidedAt key with signature := none } =
      ratifyBody proposal decidedAt := by
    rw [ratifiedRecord, ratifyBody, hunsigned]
  have hpayload := canonicalJson_buildSigningPayload
    (ratifiedRecord platform proposal decidedAt key)
  rw [hbody] at hpayload
  have himport : platform.ed25519.importPem signature.publicKeyPem =
      .ok (platform.ed25519.createPublicKey key) := hplatform.importPem_exportPem _
  have hkeyFingerprint : keyFingerprint platform (platform.ed25519.createPublicKey key) =
      signature.keyFingerprintSha256 := rfl
  have hverify : platform.ed25519.verify (platform.ed25519.createPublicKey key)
      (utf8Encode (canonicalJson (ratifyBody proposal decidedAt).toJson))
      signature.signatureBase64 = true := hplatform.verify_sign key _ hkey
  unfold verifyCalibrationOperatorSignature
  simp only [hpayload, hrecord, halgorithm, hpem, hfingerprint, hbase64, textOf, himport]
  rw [if_neg (not_not.mpr rfl), if_neg (not_not.mpr hkeyFingerprint), hverify]

/-! ## Digests of curves -/

theorem property_digest {body : CalibrationCurveBody} {digest : JsString} {key : JsString}
    (hkey : key ≠ js "digest") :
    mapGet (presentMembers (body.withDigest digest)) key = mapGet body.members key := by
  have hfields : (body.fields.map Prod.fst).Nodup :=
    (body.enumerated_withDigest digest).1.sublist (by
      rw [List.map_append]
      exact List.sublist_append_left _ _)
  rw [mapGet_presentMembers (body.enumerated_withDigest digest).1, CalibrationCurveBody.members,
    mapGet_presentMembers hfields, mapGet_append_of_ne hkey]

theorem enumerated_members (body : CalibrationCurveBody) : Enumerated body.members := by
  have hwith := body.enumerated_withDigest []
  have hsub : (body.fields.map Prod.fst).Sublist ((body.withDigest []).map Prod.fst) := by
    rw [List.map_append]
    exact List.sublist_append_left _ _
  have hmembers := (keys_presentMembers_sublist body.fields).trans hsub
  exact ⟨hwith.1.sublist hmembers, hwith.2.sublist hmembers⟩

/-- The digest of a curve is recomputed from the curve that was read. -/
theorem computeCurveDigest_stored (curve : CalibrationCurveSnapshot) :
    computeCurveDigest platform (curveBodyOf (stored curve.toJson)) =
      computeCurveDigest platform curve.members := by
  have hordered := curve.ordered_toJson
  have hproto : protoKey ∉ (presentMembers curve.fields).map Prod.fst := fun h ↦
    curve.proto_notMem_withDigest curve.digest
      ((keys_presentMembers_sublist curve.fields).subset h)
  have hstored : Enumerated (storedMembers (presentMembers curve.fields)) := enumerated_rebuild _
  have hdelete : Enumerated (mapDelete (storedMembers (presentMembers curve.fields))
      (js "digest")) := by
    have hsub := (List.filter_sublist (l := storedMembers (presentMembers curve.fields))
      (p := fun p ↦ decide (p.1 ≠ js "digest"))).map Prod.fst
    exact ⟨hstored.1.sublist hsub, hstored.2.sublist hsub⟩
  have hbody : curveBodyOf (stored curve.toJson) =
      mapDelete (storedMembers (presentMembers curve.fields)) (js "digest") := by
    rw [CalibrationCurveSnapshot.toJson, stored_obj, curveBodyOf]
  rw [hbody, computeCurveDigest, computeCurveDigest, sha256Hex, sha256Hex]
  refine congrArg (fun text ↦ platform.sha256 (utf8Encode text)) ?_
  apply canonicalJson_obj_congr
  · exact (hdelete.defineProperty _ _).1
  · exact ((enumerated_members curve.toCalibrationCurveBody).defineProperty _ _).1
  · intro key
    rw [mapGet_defineProperty, mapGet_defineProperty]
    split
    · rfl
    · next hkey =>
        rw [map_stored_mapGet_mapDelete hordered hproto, mapGet_mapDelete, if_neg hkey]
        exact congrArg (Option.map stored) (property_digest hkey)

/-- What is hashed is the curve with an empty digest. -/
theorem defineProperty_digest (body : CalibrationCurveBody) :
    defineProperty body.members (js "digest") (.str []) =
      presentMembers (body.withDigest []) := by
  have hmembers : presentMembers (body.withDigest []) =
      body.members ++ [(js "digest", .str [])] := by
    rw [presentMembers, List.filterMap_append]
    rfl
  have henum : Enumerated (body.members ++ (js "digest", Json.str []) :: []) := by
    have hwith := body.enumerated_withDigest []
    have hsub := keys_presentMembers_sublist (body.withDigest [])
    rw [hmembers] at hsub
    exact ⟨hwith.1.sublist hsub, hwith.2.sublist hsub⟩
  rw [defineProperty_eq_append henum, hmembers]

/-- Curves of different cells have different digests. -/
theorem cell_eq_of_digest_eq (hplatform : platform.Lawful) {body body' : CalibrationCurveBody}
    (h : computeCurveDigest platform body.members = computeCurveDigest platform body'.members) :
    body.locale.text = body'.locale.text ∧ body.riskClass.text = body'.riskClass.text := by
  have hwellFormed : ∀ v, isWellFormed (canonicalJson v) = true := fun _ ↦
    isWellFormed_stringify _
  have htexts := (utf8Encode_inj (hwellFormed _) (hwellFormed _)).mp (hplatform.sha256_injective h)
  rw [defineProperty_digest, defineProperty_digest] at htexts
  have hfields := fields_eq_of_canonicalJson_eq
    ((body.keys_withDigest []).trans (body'.keys_withDigest []).symm)
    (body.enumerated_withDigest []) (body.proto_notMem_withDigest [])
    (fun _ hfield _ hv ↦ CalibrationCurveBody.ordered_fields hfield hv)
    (fun _ hfield _ hv ↦ CalibrationCurveBody.ordered_fields hfield hv) htexts
  have hlocale := congrArg (·[1]?) hfields
  have hriskClass := congrArg (·[2]?) hfields
  exact ⟨Json.str.inj (Option.some.inj (Option.some.inj hlocale)),
    Json.str.inj (Option.some.inj (Option.some.inj hriskClass))⟩

/-! ## File names -/

theorem endsWith_append (text ending : JsString) : endsWith (text ++ ending) ending = true := by
  rw [endsWith, List.isSuffixOf_iff_suffix]
  exact List.suffix_append text ending

/-- No proposal is taken for a rejection. -/
theorem not_endsWith_rejection (hplatform : platform.Lawful) (locale : SupportedLocale)
    (riskClass : RegulatedRiskClass) (proposedAt digest : JsString) :
    endsWith (proposalFilename (computeProposalId platform locale riskClass proposedAt digest))
      SELF_IMPROVING_CALIBRATION_REJECTION_SUFFIX = false := by
  rw [Bool.eq_false_iff, ne_eq, endsWith, List.isSuffixOf_iff_suffix]
  rintro ⟨before, hname⟩
  have hsuffix : SELF_IMPROVING_CALIBRATION_REJECTION_SUFFIX =
      0x2D :: js "rejected" ++ js ".json" := by decide
  have hdash : js "-" = [0x2D] := by decide
  rw [hsuffix, ← List.append_assoc, proposalFilename] at hname
  have hid := List.append_cancel_right hname
  unfold computeProposalId at hid
  dsimp only at hid
  rw [hdash, List.append_assoc _ [0x2D] (List.take 16 _), List.singleton_append] at hid
  generalize hfingerprint : List.take 16 (sha256Hex platform _) = fingerprint at hid
  have hhex : ∀ u ∈ fingerprint, isLowerHex u = true := by
    intro u hu
    rw [← hfingerprint] at hu
    exact List.all_eq_true.mp (hplatform.sha256_hex _) u (List.mem_of_mem_take hu)
  have hr : ¬ isLowerHex 0x72 = true := by decide
  have hnodash : ¬ isLowerHex 0x2D = true := by decide
  rcases List.append_eq_append_iff.mp hid with ⟨gap, -, hgap⟩ | ⟨gap, -, hgap⟩
  · cases gap with
    | nil =>
        obtain ⟨-, rfl⟩ := List.cons.inj hgap
        exact hr (hhex 0x72 (by decide))
    | cons u gap =>
        have hmem : 0x2D ∈ js "rejected" := by
          rw [(List.cons.inj hgap).2]
          exact List.mem_append_right _ List.mem_cons_self
        exact absurd hmem (by decide)
  · cases gap with
    | nil =>
        obtain ⟨-, rfl⟩ := List.cons.inj hgap
        exact hr (hhex 0x72 (by decide))
    | cons u gap =>
        apply hnodash
        apply hhex
        rw [(List.cons.inj hgap).2]
        exact List.mem_append_right _ List.mem_cons_self

end

end TestIntelligence.Eval
