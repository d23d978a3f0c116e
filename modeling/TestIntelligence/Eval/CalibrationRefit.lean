import TestIntelligence.Eval.CalibrationMetrics
import TestIntelligence.Js.Outcome
import TestIntelligence.Js.Sorting
import TestIntelligence.Js.Utf8
import TestIntelligence.Security.Records

/-!
# Refits of the judge calibration

A refit fits a curve to the gold entries of a cell and is written as a proposal.  An operator
ratifies it with a signature, which promotes the curve to production, or rolls it back.  The
paths under the curves directory are given by their last part, and what no function reads of a
gold entry is left out.
-/

namespace TestIntelligence.Eval

open Js Security

/-! ## Constants and records -/

def SELF_IMPROVING_CALIBRATION_SCHEMA_VERSION : JsString := js "1.0.0"

def SELF_IMPROVING_CALIBRATION_REJECTION_SUFFIX : JsString := js "-rejected.json"

def SELF_IMPROVING_CALIBRATION_HELD_OUT_FRACTION : JsNumber := .ofRat (1 / 5)

def SELF_IMPROVING_CALIBRATION_MIN_SAMPLES : ℕ := 20

inductive RegulatedRiskClass
  | high
  | regulatedData
  | financialTransaction
  deriving DecidableEq

def RegulatedRiskClass.text : RegulatedRiskClass → JsString
  | .high => js "high"
  | .regulatedData => js "regulated_data"
  | .financialTransaction => js "financial_transaction"

def REGULATED_RISK_CLASSES : List RegulatedRiskClass :=
  [.high, .regulatedData, .financialTransaction]

inductive SupportedLocale
  | deDE
  | deAT
  | deCH
  | enIE
  | frFR
  | itIT
  | plPL
  | esES
  | nlNL
  | csCZ
  | huHU
  deriving DecidableEq

def SupportedLocale.text : SupportedLocale → JsString
  | .deDE => js "DE-DE"
  | .deAT => js "DE-AT"
  | .deCH => js "DE-CH"
  | .enIE => js "EN-IE"
  | .frFR => js "FR-FR"
  | .itIT => js "IT-IT"
  | .plPL => js "PL-PL"
  | .esES => js "ES-ES"
  | .nlNL => js "NL-NL"
  | .csCZ => js "CS-CZ"
  | .huHU => js "HU-HU"

structure SelfImprovingCalibrationHardGates where
  heldOutEceCeiling : JsNumber
  heldOutKappaFloor : JsNumber
  eceRegressionTolerance : JsNumber
  kappaRegressionTolerance : JsNumber
  perClassEceRegressionCeiling : JsNumber

def SELF_IMPROVING_CALIBRATION_HARD_GATES : SelfImprovingCalibrationHardGates where
  heldOutEceCeiling := .ofRat (2 / 100)
  heldOutKappaFloor := .ofRat (7 / 10)
  eceRegressionTolerance := .ofRat (5 / 1000)
  kappaRegressionTolerance := .ofRat (2 / 100)
  perClassEceRegressionCeiling := .ofRat (2 / 100)

structure CalibrationGoldEntry where
  entryId : JsString
  locale : JsString
  riskClass : JsString
  rawScore : JsNumber
  humanVerdict : Label

structure CalibrationCurveBody where
  locale : SupportedLocale
  riskClass : RegulatedRiskClass
  intercept : JsNumber
  slope : JsNumber
  trainSampleCount : ℕ
  heldOutSampleCount : ℕ
  heldOutEce : JsNumber
  heldOutKappa : JsNumber
  perClassHeldOutEce : RegulatedRiskClass → JsNumber
  fittedAt : JsString

structure CalibrationCurveSnapshot extends CalibrationCurveBody where
  digest : JsString

structure CalibrationRefitGateEvaluation where
  heldOutEcePassed : Bool
  heldOutKappaPassed : Bool
  relativeEceRegressionPassed : Bool
  relativeKappaRegressionPassed : Bool
  perClassEceRegressionPassed : Bool
  currentHeldOutEce : JsNumber
  currentHeldOutKappa : JsNumber
  currentPerClassHeldOutEce : RegulatedRiskClass → Option JsNumber
  failedGates : List JsString

structure CalibrationOperatorSignature where
  keyFingerprintSha256 : JsString
  publicKeyPem : JsString
  signatureBase64 : JsString

structure CalibrationRefitProposal where
  proposalId : JsString
  locale : SupportedLocale
  riskClass : RegulatedRiskClass
  previousCurveDigest : JsString
  proposedCurveDigest : JsString
  heldOutEce : JsNumber
  heldOutKappa : JsNumber
  perClassHeldOutEce : RegulatedRiskClass → JsNumber
  proposedAt : JsString
  ratifiedAt : Option JsString
  rolledBack : Bool
  rollbackReason : Option JsString
  trainSampleCount : ℕ
  heldOutSampleCount : ℕ
  proposedCurve : CalibrationCurveSnapshot
  gateEvaluation : CalibrationRefitGateEvaluation
  signature : Option CalibrationOperatorSignature

structure CalibrationRejectionSidecar where
  proposalId : JsString
  locale : SupportedLocale
  riskClass : RegulatedRiskClass
  rolledBackAt : JsString
  reason : JsString
  failedGates : List JsString

/-! ## The records as JSON values -/

def perClassJson (value : RegulatedRiskClass → Json) : Json :=
  .obj (REGULATED_RISK_CLASSES.map fun riskClass ↦ (riskClass.text, value riskClass))

def countJson (n : ℕ) : Json := .num (.ofRat n)

def textsJson (texts : List JsString) : Json := .arr (texts.map .str)

namespace CalibrationCurveBody

def fields (body : CalibrationCurveBody) : List (JsString × Option Json) :=
  [(js "schemaVersion", some (.str SELF_IMPROVING_CALIBRATION_SCHEMA_VERSION)),
    (js "locale", some (.str body.locale.text)),
    (js "riskClass", some (.str body.riskClass.text)),
    (js "intercept", some (.num body.intercept)),
    (js "slope", some (.num body.slope)),
    (js "trainSampleCount", some (countJson body.trainSampleCount)),
    (js "heldOutSampleCount", some (countJson body.heldOutSampleCount)),
    (js "heldOutEce", some (.num body.heldOutEce)),
    (js "heldOutKappa", some (.num body.heldOutKappa)),
    (js "perClassHeldOutEce", some (perClassJson fun c ↦ .num (body.perClassHeldOutEce c))),
    (js "fittedAt", some (.str body.fittedAt))]

def members (body : CalibrationCurveBody) : List (JsString × Json) := presentMembers body.fields

end CalibrationCurveBody

namespace CalibrationCurveSnapshot

def fields (curve : CalibrationCurveSnapshot) : List (JsString × Option Json) :=
  curve.toCalibrationCurveBody.fields ++ [(js "digest", some (.str curve.digest))]

def toJson (curve : CalibrationCurveSnapshot) : Json := .obj (presentMembers curve.fields)

end CalibrationCurveSnapshot

def CalibrationRefitGateEvaluation.toJson (evaluation : CalibrationRefitGateEvaluation) : Json :=
  .obj [(js "heldOutEcePassed", .bool evaluation.heldOutEcePassed),
    (js "heldOutKappaPassed", .bool evaluation.heldOutKappaPassed),
    (js "relativeEceRegressionPassed", .bool evaluation.relativeEceRegressionPassed),
    (js "relativeKappaRegressionPassed", .bool evaluation.relativeKappaRegressionPassed),
    (js "perClassEceRegressionPassed", .bool evaluation.perClassEceRegressionPassed),
    (js "currentHeldOutEce", .num evaluation.currentHeldOutEce),
    (js "currentHeldOutKappa", .num evaluation.currentHeldOutKappa),
    (js "currentPerClassHeldOutEce",
      perClassJson fun c ↦ (evaluation.currentPerClassHeldOutEce c).elim .null .num),
    (js "failedGates", textsJson evaluation.failedGates)]

namespace CalibrationOperatorSignature

def fields (signature : CalibrationOperatorSignature) : List (JsString × Option Json) :=
  [(js "algorithm", some (.str (js "ed25519"))),
    (js "keyFingerprintSha256", some (.str signature.keyFingerprintSha256)),
    (js "publicKeyPem", some (.str signature.publicKeyPem)),
    (js "signatureBase64", some (.str signature.signatureBase64))]

def toJson (signature : CalibrationOperatorSignature) : Json :=
  .obj (presentMembers signature.fields)

end CalibrationOperatorSignature

namespace CalibrationRefitProposal

/-- The members that the operator's signature covers. -/
def signedFields (proposal : CalibrationRefitProposal) : List (JsString × Option Json) :=
  [(js "schemaVersion", some (.str SELF_IMPROVING_CALIBRATION_SCHEMA_VERSION)),
    (js "proposalId", some (.str proposal.proposalId)),
    (js "locale", some (.str proposal.locale.text)),
    (js "riskClass", some (.str proposal.riskClass.text)),
    (js "previousCurveDigest", some (.str proposal.previousCurveDigest)),
    (js "proposedCurveDigest", some (.str proposal.proposedCurveDigest)),
    (js "heldOutEce", some (.num proposal.heldOutEce)),
    (js "heldOutKappa", some (.num proposal.heldOutKappa)),
    (js "perClassHeldOutEce", some (perClassJson fun c ↦ .num (proposal.perClassHeldOutEce c))),
    (js "proposedAt", some (.str proposal.proposedAt)),
    (js "ratifiedAt", proposal.ratifiedAt.map .str),
    (js "rolledBack", some (.bool proposal.rolledBack)),
    (js "rollbackReason", proposal.rollbackReason.map .str),
    (js "trainSampleCount", some (countJson proposal.trainSampleCount)),
    (js "heldOutSampleCount", some (countJson proposal.heldOutSampleCount)),
    (js "proposedCurve", some proposal.proposedCurve.toJson),
    (js "gateEvaluation", some proposal.gateEvaluation.toJson)]

def fields (proposal : CalibrationRefitProposal) : List (JsString × Option Json) :=
  proposal.signedFields ++
    [(js "signature", proposal.signature.map CalibrationOperatorSignature.toJson)]

def toJson (proposal : CalibrationRefitProposal) : Json := .obj (presentMembers proposal.fields)

end CalibrationRefitProposal

def CalibrationRejectionSidecar.toJson (sidecar : CalibrationRejectionSidecar) : Json :=
  .obj [(js "schemaVersion", .str SELF_IMPROVING_CALIBRATION_SCHEMA_VERSION),
    (js "proposalId", .str sidecar.proposalId),
    (js "locale", .str sidecar.locale.text),
    (js "riskClass", .str sidecar.riskClass.text),
    (js "rolledBackAt", .str sidecar.rolledBackAt),
    (js "reason", .str sidecar.reason),
    (js "failedGates", textsJson sidecar.failedGates)]

/-! ## The platform -/

/-- What a key file holds, as it is handed to `createPrivateKey`. -/
inductive KeyMaterial
  | jwk (key : Json)
  | pem (text : JsString)

/-- Ed25519 keys of `node:crypto`; signatures are given in base64. -/
structure Ed25519 (PrivateKey PublicKey : Type) where
  createPrivateKey : KeyMaterial → Except JsString PrivateKey
  asymmetricKeyType : PrivateKey → Option JsString
  createPublicKey : PrivateKey → PublicKey
  exportPem : PublicKey → JsString
  exportDer : PublicKey → Bytes
  importPem : JsString → Except JsString PublicKey
  sign : PrivateKey → Bytes → JsString
  verify : PublicKey → Bytes → JsString → Bool

inductive FileRead
  | content (text : JsString)
  | notFound
  | failed (message : JsString)

structure Platform (PrivateKey PublicKey : Type) where
  /-- `Math.exp` -/
  exp : JsNumber → JsNumber
  localeCompare : JsString → JsString → ℤ
  /-- `Date.parse`, with `none` for `NaN` -/
  dateParse : JsString → Option ℤ
  sha256 : Bytes → JsString
  ed25519 : Ed25519 PrivateKey PublicKey
  readKeyFile : JsString → FileRead
  /-- The message of the `SyntaxError` that `JSON.parse` throws. -/
  syntaxError : JsString → JsString

inductive CalibrationError
  | operator (message : JsString)
  | syntaxError (message : JsString)
  | crypto (message : JsString)
  | file (message : JsString)
  | safety (violations : List JsString)

/-- The files of the curves directory and of its directory of proposals. -/
structure CurvesDirectory where
  curves : List (JsString × JsString)
  proposals : List (JsString × JsString)

section

variable {PrivateKey PublicKey : Type} (platform : Platform PrivateKey PublicKey)

def sha256Hex (value : Json) : JsString := platform.sha256 (utf8Encode (canonicalJson value))

/-- The value of a `Uint8Array` for `canonicalJson`. -/
def uint8ArrayJson (bytes : Bytes) : Json :=
  .obj (bytes.zipIdx.map fun entry ↦ (digitsText entry.2, countJson entry.1.toNat))

/-! ## Fitting a curve -/

def sigmoid (value : JsNumber) : JsNumber := JsNumber.div 1 (.add 1 (platform.exp value.neg))

structure PlattFit where
  intercept : JsNumber
  slope : JsNumber

def applyCurve (rawScore : JsNumber) (curve : PlattFit) : JsNumber :=
  clamp01 (round6 (sigmoid platform (curve.intercept.add (curve.slope.mul rawScore))))

def computeBinaryCohensKappa (pairs : List (Label × Label)) : JsNumber :=
  let N := count pairs
  if pairs.isEmpty then 1
  else
    let agree := count (pairs.filter fun pair ↦ pair.1 = pair.2)
    let rowOne := count (pairs.filter fun pair ↦ pair.1 = .one)
    let colOne := count (pairs.filter fun pair ↦ pair.2 = .one)
    let observed := agree.div N
    let expected :=
      ((rowOne.mul colOne).add ((N.sub rowOne).mul (N.sub colOne))).div (N.mul N)
    let almostOne := JsNumber.sub 1 (.ofRat (1 / 10 ^ 12))
    if almostOne.le expected then (if almostOne.le observed then 1 else 0)
    else round6 ((observed.sub expected).div (.sub 1 expected))

def sortGoldEntries (entries : List CalibrationGoldEntry) : List CalibrationGoldEntry :=
  sortBy (fun left right ↦ platform.localeCompare left.entryId right.entryId) entries

def strideOf (heldOutFraction : JsNumber) : JsNumber :=
  JsNumber.max 2 (JsNumber.div 1 heldOutFraction).round

/-- The entries whose index meets the condition. -/
def filterIndexed (keep : ℕ → Bool) (entries : List CalibrationGoldEntry) :
    List CalibrationGoldEntry :=
  (entries.zipIdx.filter fun entry ↦ keep entry.2).map Prod.fst

structure Split where
  train : List CalibrationGoldEntry
  heldOut : List CalibrationGoldEntry

def splitTrainHeldOut (entries : List CalibrationGoldEntry) (heldOutFraction : JsNumber) : Split :=
  let sorted := sortGoldEntries platform entries
  let stride := strideOf heldOutFraction
  { train := filterIndexed (fun index ↦ !stride.divides index) sorted
    heldOut := filterIndexed stride.divides sorted }

/-- One iteration of the gradient descent. -/
def descend (entries : List CalibrationGoldEntry) (fit : PlattFit) : PlattFit :=
  let learningRate : JsNumber := .ofRat (1 / 2)
  let delta (entry : CalibrationGoldEntry) : JsNumber :=
    (sigmoid platform (fit.intercept.add (fit.slope.mul entry.rawScore))).sub
      entry.humanVerdict.toNumber
  let interceptGradient := sum (entries.map delta)
  let slopeGradient := sum (entries.map fun entry ↦ (delta entry).mul entry.rawScore)
  { intercept := fit.intercept.sub ((learningRate.mul interceptGradient).div (count entries))
    slope := fit.slope.sub ((learningRate.mul slopeGradient).div (count entries)) }

def fitPlatt (entries : List CalibrationGoldEntry) : PlattFit :=
  if entries.isEmpty then ⟨0, 1⟩
  else
    let fit := (descend platform entries)^[2000] ⟨.ofRat (-2), 4⟩
    ⟨round6 fit.intercept, round6 fit.slope⟩

structure CurveEvaluation where
  heldOutEce : JsNumber
  heldOutKappa : JsNumber
  perClassHeldOutEce : RegulatedRiskClass → JsNumber

def evaluateCurve (curve : PlattFit) (heldOut : List CalibrationGoldEntry) : CurveEvaluation :=
  let calibrated (entries : List CalibrationGoldEntry) : List CalibrationSample :=
    entries.map fun entry ↦ ⟨applyCurve platform entry.rawScore curve, entry.humanVerdict⟩
  { heldOutEce := computeEce platform.exp (calibrated heldOut)
    heldOutKappa := computeBinaryCohensKappa (heldOut.map fun entry ↦
      (entry.humanVerdict,
        if JsNumber.le (.ofRat (1 / 2)) (applyCurve platform entry.rawScore curve) then .one
        else .zero))
    perClassHeldOutEce := fun riskClass ↦ computeEce platform.exp
      (calibrated (heldOut.filter fun entry ↦ entry.riskClass = riskClass.text)) }

/-- `sha256Hex({ ...body, digest: "" })` -/
def computeCurveDigest (body : List (JsString × Json)) : JsString :=
  sha256Hex platform (.obj (defineProperty body (js "digest") (.str [])))

def buildCurveSnapshot (body : CalibrationCurveBody) : CalibrationCurveSnapshot :=
  { body with digest := computeCurveDigest platform body.members }

/-! ## Files -/

def fileText (body : Json) : JsString := canonicalJson body ++ [0x0A]

/-- The value in a file, or `none` when there is no such file. -/
def tryReadJson (files : List (JsString × JsString)) (name : JsString) :
    Except CalibrationError (Option Json) :=
  match mapGet files name with
  | none => .ok none
  | some raw =>
      match Json.parse raw with
      | none => .error (.syntaxError (platform.syntaxError raw))
      | some value => .ok (some value)

def curveFilename (locale : SupportedLocale) (riskClass : RegulatedRiskClass) : JsString :=
  locale.text ++ js "__" ++ riskClass.text ++ js ".json"

def proposalFilename (proposalId : JsString) : JsString := proposalId ++ js ".json"

def rejectionFilename (proposalId : JsString) : JsString :=
  proposalId ++ SELF_IMPROVING_CALIBRATION_REJECTION_SUFFIX

/-! ## Proposing a refit -/

structure ProposeCalibrationRefitInput where
  locale : SupportedLocale
  riskClass : JsString
  goldEntries : List CalibrationGoldEntry
  proposedAt : JsString
  heldOutFraction : Option JsNumber
  currentCurveOverride : Option CalibrationCurveSnapshot

/-- What the gates read of the current curve; `none` is a `null` in its file. -/
structure CurrentCurve where
  heldOutEce : Option JsNumber
  heldOutKappa : Option JsNumber
  perClassHeldOutEce : RegulatedRiskClass → Option JsNumber
  digest : JsString

def CalibrationCurveSnapshot.toCurrent (curve : CalibrationCurveSnapshot) : CurrentCurve where
  heldOutEce := some curve.heldOutEce
  heldOutKappa := some curve.heldOutKappa
  perClassHeldOutEce := fun riskClass ↦ some (curve.perClassHeldOutEce riskClass)
  digest := curve.digest

def numberOf : Option Json → Option JsNumber
  | some (.num x) => some x
  | _ => none

/-- A member that is a text in every file that is written here. -/
def textOf : Option Json → JsString
  | some (.str s) => s
  | _ => js "undefined"

def currentCurveOf (value : Json) : CurrentCurve where
  heldOutEce := numberOf (property value (js "heldOutEce"))
  heldOutKappa := numberOf (property value (js "heldOutKappa"))
  perClassHeldOutEce := fun riskClass ↦
    numberOf ((property value (js "perClassHeldOutEce")).bind (property · riskClass.text))
  digest := textOf (property value (js "digest"))

def loadCurrentCurve (directory : CurvesDirectory) (locale : SupportedLocale)
    (riskClass : RegulatedRiskClass) : Except CalibrationError (Option CurrentCurve) := do
  let value ← tryReadJson platform directory.curves (curveFilename locale riskClass)
  pure (value.map currentCurveOf)

/-- `${value}` of a number or `null` -/
def nullableText (value : Option JsNumber) : JsString := value.elim (js "null") numberText

def perClassFailure (proposed : CurveEvaluation)
    (currentPerClass : RegulatedRiskClass → Option JsNumber) (riskClass : RegulatedRiskClass) :
    Option JsString :=
  let gates := SELF_IMPROVING_CALIBRATION_HARD_GATES
  let proposedClass := proposed.perClassHeldOutEce riskClass
  let currentClass := currentPerClass riskClass
  if gates.perClassEceRegressionCeiling.lt (proposedClass.sub (currentClass.getD 0)) then
    some (js "perClassHeldOutEce[" ++ riskClass.text ++ js "]=" ++ numberText proposedClass ++
      js " regressed beyond +" ++ numberText gates.perClassEceRegressionCeiling ++
      js " vs. current " ++ nullableText currentClass)
  else none

def evaluateGates (proposed : CurveEvaluation) (current : Option CurrentCurve) :
    CalibrationRefitGateEvaluation :=
  let gates := SELF_IMPROVING_CALIBRATION_HARD_GATES
  let heldOutEcePassed := proposed.heldOutEce.le gates.heldOutEceCeiling
  let heldOutKappaPassed := gates.heldOutKappaFloor.le proposed.heldOutKappa
  let currentEce := (current.bind (·.heldOutEce)).getD proposed.heldOutEce
  let currentKappa := (current.bind (·.heldOutKappa)).getD proposed.heldOutKappa
  let currentPerClass := (current.map (·.perClassHeldOutEce)).getD
    fun riskClass ↦ some (proposed.perClassHeldOutEce riskClass)
  let relativeEceRegressionPassed :=
    proposed.heldOutEce.le (currentEce.add gates.eceRegressionTolerance)
  let relativeKappaRegressionPassed :=
    (currentKappa.sub gates.kappaRegressionTolerance).le proposed.heldOutKappa
  let ece := js "heldOutEce=" ++ numberText proposed.heldOutEce
  let kappa := js "heldOutKappa=" ++ numberText proposed.heldOutKappa
  let perClassFailures :=
    REGULATED_RISK_CLASSES.filterMap (perClassFailure proposed currentPerClass)
  { heldOutEcePassed, heldOutKappaPassed, relativeEceRegressionPassed
    relativeKappaRegressionPassed
    perClassEceRegressionPassed := perClassFailures.isEmpty
    currentHeldOutEce := currentEce
    currentHeldOutKappa := currentKappa
    currentPerClassHeldOutEce := currentPerClass
    failedGates :=
      (if heldOutEcePassed then []
        else [ece ++ js " exceeds absolute ceiling " ++ numberText gates.heldOutEceCeiling]) ++
      (if heldOutKappaPassed then []
        else [kappa ++ js " below absolute floor " ++ numberText gates.heldOutKappaFloor]) ++
      (if relativeEceRegressionPassed then []
        else [ece ++ js " regressed beyond +" ++ numberText gates.eceRegressionTolerance ++
          js " vs. current " ++ numberText currentEce]) ++
      (if relativeKappaRegressionPassed then []
        else [kappa ++ js " regressed beyond -" ++ numberText gates.kappaRegressionTolerance ++
          js " vs. current " ++ numberText currentKappa]) ++
      perClassFailures }

def filterRelevantEntries (entries : List CalibrationGoldEntry) (locale : SupportedLocale)
    (riskClass : RegulatedRiskClass) : List CalibrationGoldEntry :=
  entries.filter fun entry ↦ entry.locale = locale.text && entry.riskClass = riskClass.text

def computeProposalId (locale : SupportedLocale) (riskClass : RegulatedRiskClass)
    (proposedAt proposedCurveDigest : JsString) : JsString :=
  let fingerprint := sha256Hex platform (.obj [(js "locale", .str locale.text),
    (js "riskClass", .str riskClass.text), (js "proposedAt", .str proposedAt),
    (js "proposedCurveDigest", .str proposedCurveDigest)])
  js "proposal-" ++ locale.text ++ js "-" ++ riskClass.text ++ js "-" ++ fingerprint.take 16

def isTimestamp (text : JsString) : Bool := text != [] && (platform.dateParse text).isSome

/-- The checks, the fit and its evaluation: what `proposeCalibrationRefit` does before it reads
the current curve. -/
def proposeCurve (input : ProposeCalibrationRefitInput) :
    Except CalibrationError CalibrationCurveSnapshot :=
  match REGULATED_RISK_CLASSES.find? (·.text = input.riskClass) with
  | none => .error (.operator (js "riskClass must be one of " ++
      join (js ", ") (REGULATED_RISK_CLASSES.map (·.text)) ++ js "; got \"" ++ input.riskClass ++
      js "\"."))
  | some riskClass =>
      let heldOutFraction :=
        input.heldOutFraction.getD SELF_IMPROVING_CALIBRATION_HELD_OUT_FRACTION
      let cellEntries := filterRelevantEntries input.goldEntries input.locale riskClass
      let split := splitTrainHeldOut platform cellEntries heldOutFraction
      let trainPositives := split.train.filter fun entry ↦ entry.humanVerdict = .one
      if !isTimestamp platform input.proposedAt then
        .error (.operator (js "proposedAt must be a valid ISO-8601 timestamp."))
      else if !(JsNumber.lt 0 heldOutFraction && heldOutFraction.lt 1) then
        .error (.operator (js "heldOutFraction must be in the open interval (0, 1)."))
      else if cellEntries.length < SELF_IMPROVING_CALIBRATION_MIN_SAMPLES then
        .error (.operator (js "Not enough gold entries for " ++ input.locale.text ++ js "/" ++
          riskClass.text ++ js ": have " ++ digitsText cellEntries.length ++
          js ", need at least " ++ digitsText SELF_IMPROVING_CALIBRATION_MIN_SAMPLES ++ js "."))
      else if split.train.isEmpty || split.heldOut.isEmpty then
        .error (.operator (js "Train/held-out split produced an empty partition."))
      else if trainPositives.isEmpty || trainPositives.length = split.train.length then
        .error (.operator (js ("Train partition lacks both positive and negative samples; " ++
          "refit aborted.")))
      else
        let fit := fitPlatt platform split.train
        let cellEvaluation := evaluateCurve platform fit split.heldOut
        let crossClassHeldOut := filterIndexed (strideOf heldOutFraction).divides
          (sortGoldEntries platform input.goldEntries)
        let crossClassEvaluation := evaluateCurve platform fit crossClassHeldOut
        .ok (buildCurveSnapshot platform
          { locale := input.locale
            riskClass := riskClass
            intercept := fit.intercept
            slope := fit.slope
            trainSampleCount := split.train.length
            heldOutSampleCount := split.heldOut.length
            heldOutEce := cellEvaluation.heldOutEce
            heldOutKappa := cellEvaluation.heldOutKappa
            perClassHeldOutEce := crossClassEvaluation.perClassHeldOutEce
            fittedAt := input.proposedAt })

/-- The proposal of a curve. -/
def buildProposal (proposedAt : JsString) (proposedCurve : CalibrationCurveSnapshot)
    (current : Option CurrentCurve) : CalibrationRefitProposal where
  proposalId := computeProposalId platform proposedCurve.locale proposedCurve.riskClass proposedAt
    proposedCurve.digest
  locale := proposedCurve.locale
  riskClass := proposedCurve.riskClass
  previousCurveDigest := (current.map (·.digest)).getD []
  proposedCurveDigest := proposedCurve.digest
  heldOutEce := proposedCurve.heldOutEce
  heldOutKappa := proposedCurve.heldOutKappa
  perClassHeldOutEce := proposedCurve.perClassHeldOutEce
  proposedAt
  ratifiedAt := none
  rolledBack := false
  rollbackReason := none
  trainSampleCount := proposedCurve.trainSampleCount
  heldOutSampleCount := proposedCurve.heldOutSampleCount
  proposedCurve
  gateEvaluation := evaluateGates
    ⟨proposedCurve.heldOutEce, proposedCurve.heldOutKappa, proposedCurve.perClassHeldOutEce⟩ current
  signature := none

namespace CurvesDirectory

/-! The calls of `writeAtomicJson`. -/

def writeProposal (directory : CurvesDirectory) (proposal : CalibrationRefitProposal) :
    CurvesDirectory where
  curves := directory.curves
  proposals := mapSet directory.proposals (proposalFilename proposal.proposalId)
    (fileText proposal.toJson)

def writeRejection (directory : CurvesDirectory) (sidecar : CalibrationRejectionSidecar) :
    CurvesDirectory where
  curves := directory.curves
  proposals := mapSet directory.proposals (rejectionFilename sidecar.proposalId)
    (fileText sidecar.toJson)

/-- The curve of a proposal goes to production. -/
def writeCurve (directory : CurvesDirectory) (proposal : CalibrationRefitProposal) :
    CurvesDirectory where
  curves := mapSet directory.curves (curveFilename proposal.locale proposal.riskClass)
    (fileText proposal.proposedCurve.toJson)
  proposals := directory.proposals

end CurvesDirectory

/-- `input.currentCurveOverride ?? (await loadCurrentCurve(...))` -/
def currentCurve (directory : CurvesDirectory) (input : ProposeCalibrationRefitInput)
    (riskClass : RegulatedRiskClass) : Except CalibrationError (Option CurrentCurve) :=
  match input.currentCurveOverride with
  | some curve => .ok (some curve.toCurrent)
  | none => loadCurrentCurve platform directory input.locale riskClass

def proposeCalibrationRefit (directory : CurvesDirectory) (input : ProposeCalibrationRefitInput) :
    Except CalibrationError (CurvesDirectory × CalibrationRefitProposal) := do
  let proposedCurve ← proposeCurve platform input
  let current ← currentCurve platform directory input proposedCurve.riskClass
  let proposal := buildProposal platform input.proposedAt proposedCurve current
  pure (directory.writeProposal proposal, proposal)

/-! ## Ratifying or rolling back -/

structure RatifyOrRollbackInput where
  decidedAt : JsString
  signKeyPath : Option JsString
  allowedKeyFingerprints : Option (List JsString)
  rollbackReason : Option JsString
  forceRollback : Bool

def keyFingerprint (key : PublicKey) : JsString :=
  sha256Hex platform (uint8ArrayJson (platform.ed25519.exportDer key))

/-- `createPrivateKey` on the content of a key file. -/
def createPrivateKeyFrom (raw : JsString) : Except JsString PrivateKey :=
  if (trim raw).head? = some 0x7B then
    match Json.parse (trim raw) with
    | none => .error (platform.syntaxError (trim raw))
    | some key => platform.ed25519.createPrivateKey (.jwk key)
  else platform.ed25519.createPrivateKey (.pem raw)

def parseEd25519PrivateKey (signKeyPath : JsString) : Except CalibrationError PrivateKey :=
  match platform.readKeyFile signKeyPath with
  | .notFound => .error (.operator (js "--sign-key file not found: " ++ signKeyPath))
  | .failed message => .error (.file message)
  | .content raw =>
      match createPrivateKeyFrom platform raw with
      | .error message => .error (.operator
          (js "--sign-key is not a valid PEM/JWK ed25519 private key: " ++ message))
      | .ok privateKey =>
          if platform.ed25519.asymmetricKeyType privateKey = some (js "ed25519") then
            .ok privateKey
          else .error (.operator (js "--sign-key must be an ed25519 private key; got " ++
            (platform.ed25519.asymmetricKeyType privateKey).getD (js "unknown") ++ js "."))

/-- Without an allowlist, or with an empty one, every key is allowed. -/
def isAllowedKey (allowedKeyFingerprints : Option (List JsString)) (fingerprint : JsString) :
    Bool :=
  match allowedKeyFingerprints with
  | none | some [] => true
  | some allowed => allowed.contains fingerprint

def shouldRollback (proposal : CalibrationRefitProposal) (options : RatifyOrRollbackInput) : Bool :=
  options.forceRollback || !proposal.gateEvaluation.failedGates.isEmpty

def rollbackReasonOf (proposal : CalibrationRefitProposal) (options : RatifyOrRollbackInput) :
    JsString :=
  let gateFailures := proposal.gateEvaluation.failedGates
  options.rollbackReason.getD
    (if gateFailures.isEmpty then js "operator forced rollback"
    else digitsText gateFailures.length ++ js " hard-gate(s) failed: " ++
      join (js "; ") gateFailures)

def rolledBackRecord (proposal : CalibrationRefitProposal) (options : RatifyOrRollbackInput) :
    CalibrationRefitProposal :=
  { proposal with rolledBack := true, rollbackReason := some (rollbackReasonOf proposal options) }

def rejectionSidecar (proposal : CalibrationRefitProposal) (options : RatifyOrRollbackInput) :
    CalibrationRejectionSidecar where
  proposalId := proposal.proposalId
  locale := proposal.locale
  riskClass := proposal.riskClass
  rolledBackAt := options.decidedAt
  reason := rollbackReasonOf proposal options
  failedGates := proposal.gateEvaluation.failedGates

def ratifyBody (proposal : CalibrationRefitProposal) (decidedAt : JsString) :
    CalibrationRefitProposal :=
  { proposal with ratifiedAt := some decidedAt, rolledBack := false }

def operatorSignature (ratifyBody : CalibrationRefitProposal) (key : PrivateKey) :
    CalibrationOperatorSignature where
  keyFingerprintSha256 := keyFingerprint platform (platform.ed25519.createPublicKey key)
  publicKeyPem := trim (platform.ed25519.exportPem (platform.ed25519.createPublicKey key))
  signatureBase64 := platform.ed25519.sign key (utf8Encode (canonicalJson ratifyBody.toJson))

def ratifiedRecord (proposal : CalibrationRefitProposal) (decidedAt : JsString) (key : PrivateKey) :
    CalibrationRefitProposal :=
  { ratifyBody proposal decidedAt with
    signature := some (operatorSignature platform (ratifyBody proposal decidedAt) key) }

/-- The key that a ratification signs with. -/
def signingKey (options : RatifyOrRollbackInput) : Except CalibrationError PrivateKey :=
  match options.signKeyPath with
  | none | some [] => .error (.operator
      (js "Operator approval required: --sign-key <pem> is mandatory for ratification."))
  | some path => do
      let key ← parseEd25519PrivateKey platform path
      let fingerprint := keyFingerprint platform (platform.ed25519.createPublicKey key)
      if isAllowedKey options.allowedKeyFingerprints fingerprint then pure key
      else .error (.operator (js "Operator key fingerprint " ++ fingerprint ++
        js " is not on the allowlist."))

/-- Of the two writes, the one of the proposal record comes first. -/
def ratifyOrRollback (directory : CurvesDirectory) (proposal : CalibrationRefitProposal)
    (options : RatifyOrRollbackInput) :
    Except CalibrationError (CurvesDirectory × CalibrationRefitProposal) :=
  if !isTimestamp platform options.decidedAt then
    .error (.operator (js "decidedAt must be a valid ISO-8601 timestamp."))
  else if shouldRollback proposal options then
    let rolled := rolledBackRecord proposal options
    let sidecar := rejectionSidecar proposal options
    .ok ((directory.writeProposal rolled).writeRejection sidecar, rolled)
  else do
    let key ← signingKey platform options
    let ratified := ratifiedRecord platform proposal options.decidedAt key
    pure ((directory.writeProposal ratified).writeCurve proposal, ratified)

end

end TestIntelligence.Eval
