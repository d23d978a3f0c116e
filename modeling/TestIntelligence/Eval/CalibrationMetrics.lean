import TestIntelligence.Js.Math

/-!
# Calibration metrics

The debiased expected calibration error of labelled confidences.  The exponential function is
the one of the platform.
-/

namespace TestIntelligence.Eval

open Js

/-- A binary ground-truth label. -/
inductive Label
  | zero
  | one
  deriving DecidableEq

def Label.toNumber : Label → JsNumber
  | .zero => 0
  | .one => 1

structure CalibrationSample where
  confidence : JsNumber
  label : Label

def CALIBRATION_HISTOGRAM_BIN_COUNT : ℕ := 10

def million : JsNumber := 1000000

def round6 (value : JsNumber) : JsNumber := (value.mul million).round.div million

def count {α : Type*} (items : List α) : JsNumber := .ofRat items.length

def sum (values : List JsNumber) : JsNumber := values.foldl .add 0

def mean (values : List JsNumber) : JsNumber :=
  if values.isEmpty then 0 else round6 ((sum values).div (count values))

def clamp01 (value : JsNumber) : JsNumber :=
  if !value.isFinite then 0
  else if value.le 0 then 0
  else if JsNumber.le 1 value then 1
  else value

section

variable (exp : JsNumber → JsNumber)

def erf (value : JsNumber) : JsNumber :=
  let sign : JsNumber := if value.lt 0 then .ofRat (-1) else 1
  let absolute := value.abs
  let t := JsNumber.div 1 (JsNumber.add 1 (.mul (.ofRat (3275911 / 10000000)) absolute))
  let polynomial := JsNumber.mul (.add (.mul (.sub (.mul (.add (.mul (.sub (.mul
    (.ofRat (1061405429 / 1000000000)) t) (.ofRat (1453152027 / 1000000000))) t)
    (.ofRat (1421413741 / 1000000000))) t) (.ofRat (284496736 / 1000000000))) t)
    (.ofRat (254829592 / 1000000000))) t
  sign.mul (.sub 1 (polynomial.mul (exp (absolute.neg.mul absolute))))

/-- `Math.SQRT2` -/
def SQRT2 : JsNumber := .ofRat (14142135623730951 / 10000000000000000)

/-- `Math.PI` -/
def PI : JsNumber := .ofRat (3141592653589793 / 1000000000000000)

def normalCdf (value : JsNumber) : JsNumber :=
  JsNumber.mul (.ofRat (1 / 2)) (.add 1 (erf exp (value.div SQRT2)))

def expectedAbsoluteNormal (meanValue stddev : JsNumber) : JsNumber :=
  if !stddev.isFinite || stddev.le 0 then meanValue.abs
  else
    let absoluteMean := meanValue.abs
    let scaled := absoluteMean.div stddev
    let spread := (stddev.mul (JsNumber.div 2 PI).sqrt).mul
      (exp ((absoluteMean.mul absoluteMean).neg.div ((JsNumber.mul 2 stddev).mul stddev)))
    spread.add (absoluteMean.mul ((JsNumber.mul 2 (normalCdf exp scaled)).sub 1))

/-- The samples that fall into a bin; the last bin includes its upper bound. -/
def bucketOf (samples : List CalibrationSample) (index : ℕ) : List CalibrationSample :=
  let bins : JsNumber := .ofRat CALIBRATION_HISTOGRAM_BIN_COUNT
  let lower := JsNumber.div (.ofRat index) bins
  let upper := JsNumber.div (.ofRat (index + 1)) bins
  samples.filter fun sample ↦ lower.le sample.confidence &&
    if index = CALIBRATION_HISTOGRAM_BIN_COUNT - 1 then sample.confidence.le upper
    else sample.confidence.lt upper

def debiasedAbsoluteCalibrationGap (bucket : List CalibrationSample) : JsNumber :=
  let meanConfidence := mean (bucket.map fun sample ↦ clamp01 sample.confidence)
  let empiricalAccuracy := mean (bucket.map fun sample ↦ sample.label.toNumber)
  let calibrationGap := round6 (meanConfidence.sub empiricalAccuracy)
  let absoluteCalibrationGap := round6 calibrationGap.abs
  let stddev := if bucket.length > 1 then
      ((empiricalAccuracy.mul (.sub 1 empiricalAccuracy)).div (count bucket)).sqrt
    else 0
  round6 ((JsNumber.mul 2 absoluteCalibrationGap).sub
    (expectedAbsoluteNormal exp calibrationGap stddev))

/-- The `debiasedEce` of `buildReliabilityDiagram`. -/
def computeEce (samples : List CalibrationSample) : JsNumber :=
  if samples.isEmpty then 0
  else
    let addBin (debiasedEce : JsNumber) (index : ℕ) : JsNumber :=
      let bucket := bucketOf samples index
      if bucket.isEmpty then debiasedEce
      else debiasedEce.add (((count bucket).div (count samples)).mul
        (debiasedAbsoluteCalibrationGap exp bucket))
    round6 (((List.range CALIBRATION_HISTOGRAM_BIN_COUNT).foldl addBin 0).max 0)

end

end TestIntelligence.Eval
