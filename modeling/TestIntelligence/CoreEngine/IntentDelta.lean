import TestIntelligence.Js.Math
import TestIntelligence.Js.Sorting
import TestIntelligence.Security.ContentHash

/-!
# The delta of two intents

`computeIntentDelta` compares the screens, fields, actions, validations and navigation edges
of two intents by their ids and the hashes of what is in them, and the visual descriptions
and fixtures of the screens.  `sha256` is a parameter, and so is what every object inherits
from `Object.prototype`.
-/

namespace TestIntelligence.CoreEngine.IntentDelta

open Js Security

/-! ## Intents -/

structure IntentAmbiguity where
  reason : JsString

structure BusinessTestIntentScreen where
  screenId : JsString
  screenName : JsString
  screenPath : Option JsString

structure DetectedField where
  id : JsString
  screenId : JsString
  label : JsString
  type : JsString
  defaultValue : Option JsString
  ambiguity : Option IntentAmbiguity

structure DetectedAction where
  id : JsString
  screenId : JsString
  label : JsString
  kind : JsString
  ambiguity : Option IntentAmbiguity

structure DetectedValidation where
  id : JsString
  screenId : JsString
  rule : JsString
  targetFieldId : Option JsString
  ambiguity : Option IntentAmbiguity

structure DetectedNavigation where
  id : JsString
  screenId : JsString
  targetScreenId : JsString
  triggerElementId : Option JsString
  ambiguity : Option IntentAmbiguity

/-- The collections that are compared, and the whole intent, which is hashed. -/
structure BusinessTestIntentIr where
  screens : List BusinessTestIntentScreen
  detectedFields : List DetectedField
  detectedActions : List DetectedAction
  detectedValidations : List DetectedValidation
  detectedNavigation : List DetectedNavigation
  json : Json

structure VisualRegion where
  regionId : JsString
  confidence : JsNumber
  label : Option JsString
  controlType : Option JsString
  visibleText : Option JsString
  stateHints : Option (List JsString)
  validationHints : Option (List JsString)
  ambiguity : Option IntentAmbiguity

structure VisualPiiFlag where
  regionId : JsString
  kind : JsString
  confidence : JsNumber

structure ConfidenceSummary where
  min : JsNumber
  max : JsNumber
  mean : JsNumber

structure VisualScreenDescription where
  screenId : JsString
  sidecarDeployment : JsString
  regions : List VisualRegion
  confidenceSummary : ConfidenceSummary
  screenName : Option JsString
  piiFlags : Option (List VisualPiiFlag)

/-- The fixture hashes are the own properties of their records. -/
structure ComputeIntentDeltaOptions where
  visualConfidenceDriftThreshold : Option JsNumber
  priorFixtureHashes : Option (List (JsString × JsString))
  currentFixtureHashes : Option (List (JsString × JsString))
  priorVisual : Option (List VisualScreenDescription)
  currentVisual : Option (List VisualScreenDescription)

structure ComputeIntentDeltaInput where
  jobId : JsString
  generatedAt : JsString
  prior : BusinessTestIntentIr
  current : BusinessTestIntentIr
  options : ComputeIntentDeltaOptions

/-! ## Reports -/

inductive IntentDeltaKind
  | action
  | field
  | navigation
  | screen
  | validation
  | visualScreen
  deriving DecidableEq

inductive IntentDeltaChangeType
  | added
  | ambiguityIncreased
  | changed
  | confidenceDropped
  | removed
  deriving DecidableEq

def IntentDeltaKind.order : IntentDeltaKind → ℕ
  | .action => 0
  | .field => 1
  | .navigation => 2
  | .screen => 3
  | .validation => 4
  | .visualScreen => 5

def IntentDeltaChangeType.order : IntentDeltaChangeType → ℕ
  | .added => 0
  | .ambiguityIncreased => 1
  | .changed => 2
  | .confidenceDropped => 3
  | .removed => 4

structure IntentDeltaEntry where
  kind : IntentDeltaKind
  changeType : IntentDeltaChangeType
  elementId : JsString
  screenId : Option JsString
  priorHash : Option JsString
  currentHash : Option JsString
  detail : Option JsString
  deriving DecidableEq

structure IntentDeltaTotals where
  added : ℕ
  removed : ℕ
  changed : ℕ
  confidenceDropped : ℕ
  ambiguityIncreased : ℕ
  deriving DecidableEq

structure IntentDeltaReport where
  jobId : JsString
  generatedAt : JsString
  priorIntentHash : JsString
  currentIntentHash : JsString
  entries : List IntentDeltaEntry
  totals : IntentDeltaTotals
  deriving DecidableEq

def compareDeltaEntries (a b : IntentDeltaEntry) : ℤ :=
  if a.kind ≠ b.kind then a.kind.order - b.kind.order
  else if a.elementId ≠ b.elementId then if a.elementId < b.elementId then -1 else 1
  else a.changeType.order - b.changeType.order

def computeTotals (entries : List IntentDeltaEntry) : IntentDeltaTotals :=
  let count (changeType : IntentDeltaChangeType) :=
    (entries.filter (·.changeType = changeType)).length
  ⟨count .added, count .removed, count .changed, count .confidenceDropped,
    count .ambiguityIncreased⟩

/-! ## Collections -/

/-- `new Map(list.map((entry) => [entry.id, entry]))` -/
def mapById {T : Type} (id : T → JsString) (list : List T) : List (JsString × T) :=
  list.foldl (fun m entry ↦ mapSet m (id entry) entry) []

section

variable {T : Type} (kind : IntentDeltaKind) (screenId hash : T → JsString)

def addedEntry (priorMap : List (JsString × T)) : JsString × T → Option IntentDeltaEntry
  | (id, entry) =>
      if (mapGet priorMap id).isSome then none
      else some ⟨kind, .added, id, some (screenId entry), none, some (hash entry), none⟩

def removedEntry (currentMap : List (JsString × T)) : JsString × T → Option IntentDeltaEntry
  | (id, entry) =>
      if (mapGet currentMap id).isSome then none
      else some ⟨kind, .removed, id, some (screenId entry), some (hash entry), none, none⟩

def changedEntry (priorMap : List (JsString × T)) : JsString × T → Option IntentDeltaEntry
  | (id, currentEntry) =>
      match mapGet priorMap id with
      | none => none
      | some priorEntry =>
          if hash priorEntry ≠ hash currentEntry then
            some ⟨kind, .changed, id, some (screenId currentEntry), some (hash priorEntry),
              some (hash currentEntry), none⟩
          else none

end

section

variable (sha256 : JsString → JsString)

def sha256Hex (value : Json) : JsString := sha256 (canonicalJson value)

/-- What is appended for one kind of elements. -/
def collectionDeltas {T : Type} (kind : IntentDeltaKind) (id screenId : T → JsString)
    (hashSeed : T → Json) (prior current : List T) : List IntentDeltaEntry :=
  let priorMap := mapById id prior
  let currentMap := mapById id current
  let hash (entry : T) := sha256Hex sha256 (hashSeed entry)
  currentMap.filterMap (addedEntry kind screenId hash priorMap) ++
    priorMap.filterMap (removedEntry kind screenId hash currentMap) ++
    currentMap.filterMap (changedEntry kind screenId hash priorMap)

def orNull (value : Option JsString) : Json := value.elim .null .str

def ambiguityReason (ambiguity : Option IntentAmbiguity) : Json :=
  orNull (ambiguity.map (·.reason))

def screenHashSeed (screen : BusinessTestIntentScreen) : Json :=
  .obj [(js "screenName", .str screen.screenName), (js "screenPath", orNull screen.screenPath)]

def fieldHashSeed (entry : DetectedField) : Json :=
  .obj [(js "label", .str entry.label), (js "type", .str entry.type),
    (js "defaultValue", orNull entry.defaultValue),
    (js "ambiguity", ambiguityReason entry.ambiguity)]

def actionHashSeed (entry : DetectedAction) : Json :=
  .obj [(js "label", .str entry.label), (js "kind", .str entry.kind),
    (js "ambiguity", ambiguityReason entry.ambiguity)]

def validationHashSeed (entry : DetectedValidation) : Json :=
  .obj [(js "rule", .str entry.rule), (js "targetFieldId", orNull entry.targetFieldId),
    (js "ambiguity", ambiguityReason entry.ambiguity)]

def navigationHashSeed (entry : DetectedNavigation) : Json :=
  .obj [(js "targetScreenId", .str entry.targetScreenId),
    (js "triggerElementId", orNull entry.triggerElementId),
    (js "ambiguity", ambiguityReason entry.ambiguity)]

def screenDeltas (prior current : BusinessTestIntentIr) : List IntentDeltaEntry :=
  collectionDeltas sha256 .screen (·.screenId) (·.screenId) screenHashSeed prior.screens
    current.screens

/-! ## Visual descriptions -/

def visualScreenIndex (list : Option (List VisualScreenDescription)) :
    List (JsString × VisualScreenDescription) :=
  mapById (·.screenId) (list.getD [])

def compareRegionIds (a b : JsString) : ℤ := if a < b then -1 else 1

def projectRegion (region : VisualRegion) : Json :=
  let hints (values : Option (List JsString)) : Json :=
    .arr ((sortStrings (values.getD [])).map .str)
  .obj [(js "regionId", .str region.regionId), (js "label", orNull region.label),
    (js "controlType", orNull region.controlType), (js "visibleText", orNull region.visibleText),
    (js "confidence", .num region.confidence), (js "stateHints", hints region.stateHints),
    (js "validationHints", hints region.validationHints),
    (js "ambiguity", ambiguityReason region.ambiguity)]

def projectPiiFlag (flag : VisualPiiFlag) : Json :=
  .obj [(js "regionId", .str flag.regionId), (js "kind", .str flag.kind),
    (js "confidence", .num flag.confidence)]

def projectVisualDescription (desc : VisualScreenDescription) : Json :=
  let summary := desc.confidenceSummary
  .obj [(js "sidecarDeployment", .str desc.sidecarDeployment),
    (js "screenName", orNull desc.screenName),
    (js "confidenceSummary", .obj [(js "min", .num summary.min), (js "max", .num summary.max),
      (js "mean", .num summary.mean)]),
    (js "regions", .arr ((sortBy (fun a b ↦ compareRegionIds a.regionId b.regionId)
      desc.regions).map projectRegion)),
    (js "piiFlags", .arr ((sortBy (fun a b ↦ compareRegionIds a.regionId b.regionId)
      (desc.piiFlags.getD [])).map projectPiiFlag))]

def projectVisualForHash (desc : Option VisualScreenDescription) (fixtureHash : Option Json) :
    Json :=
  .obj [(js "fixtureHash", fixtureHash.getD .null),
    (js "description", desc.elim .null projectVisualDescription)]

def ambiguityCount (desc : Option VisualScreenDescription) : ℕ :=
  desc.elim 0 fun desc ↦ (desc.regions.filter (·.ambiguity.isSome)).length

def meanConfidence (desc : Option VisualScreenDescription) : Option JsNumber :=
  desc.map (·.confidenceSummary.mean)

/-- `toFixed(3)` -/
def toFixed3 (x : JsNumber) : JsString :=
  let magnitude := |x.toRat|
  let units := ⌊magnitude * 1000 + 1 / 2⌋.toNat
  let fraction := digitsText (units % 1000)
  if !x.isFinite || 10 ^ 21 ≤ magnitude then numberText x
  else (if x.toRat < 0 then js "-" else []) ++
    (if units / 1000 = 0 then js "0" else digitsText (units / 1000)) ++ js "." ++
    List.replicate (3 - fraction.length) 0x30 ++ fraction

def visualEntry (changeType : IntentDeltaChangeType) (screenId detail : JsString) :
    IntentDeltaEntry :=
  ⟨.visualScreen, changeType, screenId, some screenId, none, none, some detail⟩

def confidenceDropped (driftThreshold : JsNumber) (screenId : JsString)
    (priorDesc currentDesc : Option VisualScreenDescription) : List IntentDeltaEntry :=
  match meanConfidence priorDesc, meanConfidence currentDesc with
  | some priorMean, some currentMean =>
      if driftThreshold.le (priorMean.sub currentMean) then
        [visualEntry .confidenceDropped screenId
          (js "mean " ++ toFixed3 priorMean ++ js " -> " ++ toFixed3 currentMean)]
      else []
  | _, _ => []

def ambiguityIncreased (screenId : JsString)
    (priorDesc currentDesc : Option VisualScreenDescription) : List IntentDeltaEntry :=
  let priorAmb := ambiguityCount priorDesc
  let currentAmb := ambiguityCount currentDesc
  if priorAmb < currentAmb then
    [visualEntry .ambiguityIncreased screenId (js "regions " ++ numberText (.ofRat priorAmb) ++
      js " -> " ++ numberText (.ofRat currentAmb))]
  else []

/-- What is appended for one screen. -/
def visualDeltaForScreen (driftThreshold : JsNumber) (screenId : JsString)
    (priorDesc currentDesc : Option VisualScreenDescription)
    (priorFixture currentFixture : Option Json) : List IntentDeltaEntry :=
  let priorHash := sha256Hex sha256 (projectVisualForHash priorDesc priorFixture)
  let currentHash := sha256Hex sha256 (projectVisualForHash currentDesc currentFixture)
  let hasPrior := priorDesc.isSome || priorFixture.isSome
  let hasCurrent := currentDesc.isSome || currentFixture.isSome
  if hasCurrent && !hasPrior then
    [⟨.visualScreen, .added, screenId, some screenId, none, some currentHash, none⟩]
  else if hasPrior && !hasCurrent then
    [⟨.visualScreen, .removed, screenId, some screenId, some priorHash, none, none⟩]
  else
    (if priorHash ≠ currentHash then
      [⟨.visualScreen, .changed, screenId, some screenId, some priorHash, some currentHash, none⟩]
    else []) ++
    confidenceDropped driftThreshold screenId priorDesc currentDesc ++
    ambiguityIncreased screenId priorDesc currentDesc

variable (inherited : JsString → Option Json)

/-- `fixtures[id]` -/
def fixtureOf (fixtures : List (JsString × JsString)) (id : JsString) : Option Json :=
  ((mapGet fixtures id).map .str).or (inherited id)

def visualDeltas (options : ComputeIntentDeltaOptions) (driftThreshold : JsNumber) :
    List IntentDeltaEntry :=
  let priorVisualMap := visualScreenIndex options.priorVisual
  let currentVisualMap := visualScreenIndex options.currentVisual
  let priorFixtures := options.priorFixtureHashes.getD []
  let currentFixtures := options.currentFixtureHashes.getD []
  let screenIds := setOf (priorVisualMap.map Prod.fst ++ currentVisualMap.map Prod.fst ++
    priorFixtures.map Prod.fst ++ currentFixtures.map Prod.fst)
  (sortStrings screenIds).flatMap fun id ↦
    visualDeltaForScreen sha256 driftThreshold id (mapGet priorVisualMap id)
      (mapGet currentVisualMap id) (fixtureOf inherited priorFixtures id)
      (fixtureOf inherited currentFixtures id)

/-! ## The delta -/

/-- 0.05 -/
def intentDeltaDefaultConfidenceDrift : JsNumber := .ofRat (5 / 100)

def driftThresholdOf (options : ComputeIntentDeltaOptions) : JsNumber :=
  options.visualConfidenceDriftThreshold.getD intentDeltaDefaultConfidenceDrift

def allDeltas (prior current : BusinessTestIntentIr) (options : ComputeIntentDeltaOptions) :
    List IntentDeltaEntry :=
  screenDeltas sha256 prior current ++
  collectionDeltas sha256 .field (·.id) (·.screenId) fieldHashSeed prior.detectedFields
    current.detectedFields ++
  collectionDeltas sha256 .action (·.id) (·.screenId) actionHashSeed prior.detectedActions
    current.detectedActions ++
  collectionDeltas sha256 .validation (·.id) (·.screenId) validationHashSeed
    prior.detectedValidations current.detectedValidations ++
  collectionDeltas sha256 .navigation (·.id) (·.screenId) navigationHashSeed
    prior.detectedNavigation current.detectedNavigation ++
  visualDeltas sha256 inherited options (driftThresholdOf options)

/-- The error is the message of a `RangeError`. -/
def computeIntentDelta (input : ComputeIntentDeltaInput) : Except JsString IntentDeltaReport :=
  let driftThreshold := driftThresholdOf input.options
  if driftThreshold.lt 0 || JsNumber.lt 1 driftThreshold then
    .error (js "computeIntentDelta: visualConfidenceDriftThreshold must be in [0, 1]")
  else
    let entries := sortBy compareDeltaEntries
      (allDeltas sha256 inherited input.prior input.current input.options)
    .ok ⟨input.jobId, input.generatedAt, sha256Hex sha256 input.prior.json,
      sha256Hex sha256 input.current.json, entries, computeTotals entries⟩

end

end TestIntelligence.CoreEngine.IntentDelta
