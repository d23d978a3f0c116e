import TestIntelligence.Js.Patterns
import TestIntelligence.Js.Sorting
import TestIntelligence.Tables.DelimitedText

/-!
# The QC mapping preview as CSV

`renderQcCsv` writes the entries of a mapping preview by hand.  Its text is the
table of their neutralized cells, so a reader of RFC 4180 gets these cells back.
`String.prototype.localeCompare` is a parameter.
-/

namespace TestIntelligence.ProductionRunner.QcCsv

open Js Tables

/-! ## The formula guard -/

/-- `/^[=+\-@\t\r]/` -/
def isFormulaLeader (u : CodeUnit) : Bool :=
  u == 0x3D || u == 0x2B || u == 0x2D || u == 0x40 || u == 0x09 || u == 0x0D

def neutralizeFormulaLeading : JsString → JsString
  | [] => []
  | u :: rest => if isFormulaLeader u then 0x27 :: u :: rest else u :: rest

theorem isFormulaLeader_neutralized (value : JsString) :
    ∀ u ∈ (neutralizeFormulaLeading value).head?, isFormulaLeader u = false := by
  cases value with
  | nil => simp [neutralizeFormulaLeading]
  | cons u rest =>
      by_cases hu : isFormulaLeader u = true
      · simp only [neutralizeFormulaLeading, hu, if_true, List.head?_cons, Option.mem_some_iff]
        rintro v rfl
        decide
      · simp [neutralizeFormulaLeading, hu]

/-! ## The writer -/

/-- `Number.prototype.toFixed` -/
def toFixed (digits : ℕ) (x : JsNumber) : JsString :=
  if !x.isFinite || 10 ^ 21 ≤ |x.toRat| then numberText x
  else
    let n := ⌊|x.toRat| * 10 ^ digits + 1 / 2⌋.toNat
    let whole := n / 10 ^ digits
    (if x.toRat < 0 then js "-" else []) ++ (if whole = 0 then js "0" else digitsText whole) ++
      if digits = 0 then [] else js "." ++ padStartZero digits (digitsText (n % 10 ^ digits))

structure GeneratedTestCaseStep where
  index : JsNumber
  action : JsString
  data : Option JsString
  expected : Option JsString

structure QcMappingVisualProvenance where
  deployment : JsString
  fallbackReason : JsString
  confidenceMean : JsNumber
  ambiguityCount : JsNumber
  evidenceHash : JsString

structure QcMappingPreviewEntry where
  testCaseId : JsString
  externalIdCandidate : JsString
  testName : JsString
  objective : JsString
  priority : JsString
  riskCategory : JsString
  targetFolderPath : JsString
  preconditions : List JsString
  testData : List JsString
  designSteps : List GeneratedTestCaseStep
  expectedResults : List JsString
  visualProvenance : Option QcMappingVisualProvenance

def csvLineTerminator : JsString := [0x0D, 0x0A]

def qcCsvColumns : List JsString :=
  ["TestCaseId", "ExternalId", "Title", "Objective", "Priority", "RiskCategory", "TargetFolder",
    "Preconditions", "TestData", "ExpectedResults", "StepIndex", "StepAction", "StepData",
    "StepExpected", "VisualDeployment", "VisualFallbackReason", "VisualConfidenceMean",
    "VisualAmbiguityCount", "VisualEvidenceHash"].map js

/-- `/[,"\r\n]/` -/
def needsQuoting (u : CodeUnit) : Bool := u == 0x2C || u == 0x22 || u == 0x0D || u == 0x0A

def escapeCell (value : JsString) : JsString :=
  let neutralized := neutralizeFormulaLeading value
  if neutralized.any needsQuoting then
    0x22 :: (neutralized.flatMap fun u ↦ if u = 0x22 then [0x22, 0x22] else [u]) ++ [0x22]
  else neutralized

def joinList (values : List JsString) : JsString := join (js " | ") values

def formatNumber (value : JsNumber) : JsString :=
  if value.isFinite then toFixed 6 value else js "0.000000"

def buildRow (cells : List JsString) : JsString := join (js ",") (cells.map escapeCell)

def baseCells (entry : QcMappingPreviewEntry) (step : Option GeneratedTestCaseStep) :
    List JsString :=
  let provenance := entry.visualProvenance
  [entry.testCaseId, entry.externalIdCandidate, entry.testName, entry.objective, entry.priority,
    entry.riskCategory, entry.targetFolderPath, joinList entry.preconditions,
    joinList entry.testData, joinList entry.expectedResults,
    step.elim [] fun s ↦ numberText s.index, step.elim [] (·.action),
    (step.bind (·.data)).getD [], (step.bind (·.expected)).getD [],
    provenance.elim (js "none") (·.deployment), provenance.elim (js "none") (·.fallbackReason),
    formatNumber (provenance.elim 0 (·.confidenceMean)),
    numberText (provenance.elim 0 (·.ambiguityCount)), provenance.elim [] (·.evidenceHash)]

/-- `a.index - b.index` is not positive. -/
def indexBefore (a b : GeneratedTestCaseStep) : Prop := JsNumber.lt 0 (a.index.sub b.index) = false

instance : DecidableRel indexBefore := fun a b ↦
  inferInstanceAs (Decidable (JsNumber.lt 0 (a.index.sub b.index) = false))

def buildRowsForEntry (entry : QcMappingPreviewEntry) : List JsString :=
  if entry.designSteps = [] then [buildRow (baseCells entry none)]
  else (entry.designSteps.insertionSort indexBefore).map fun step ↦
    buildRow (baseCells entry (some step))

variable (localeCompare : JsString → JsString → ℤ)

def renderQcCsv (entries : List QcMappingPreviewEntry) : JsString :=
  let sorted := sortBy (fun a b ↦ localeCompare a.testCaseId b.testCaseId) entries
  let lines := join (js ",") qcCsvColumns :: sorted.flatMap buildRowsForEntry
  join csvLineTerminator lines ++ csvLineTerminator

/-! ## The table that is written -/

def csvDelimiters : Delimiters CodeUnit := ⟨0x2C, 0x22, 0x0D, 0x0A, by decide⟩

theorem needsQuoting_eq : needsQuoting = csvDelimiters.isSpecial := by
  funext u
  rw [Bool.eq_iff_iff]
  simp only [Delimiters.isSpecial, needsQuoting, Bool.or_eq_true, decide_eq_true_eq, beq_iff_eq]
  rfl

theorem doubled_eq (text : JsString) : csvDelimiters.doubled text =
    text.flatMap fun u ↦ if u = 0x22 then [0x22, 0x22] else [u] := by
  apply List.flatMap_congr
  intro u _
  by_cases hu : u = 0x22
  · simp [hu, csvDelimiters]
  · simp [hu, csvDelimiters]

theorem escapeCell_eq (value : JsString) :
    escapeCell value = writeField csvDelimiters (neutralizeFormulaLeading value) := by
  rw [escapeCell, writeField, needsQuoting_eq, doubled_eq]
  rfl

theorem join_eq_intercalate (sep : JsString) (texts : List JsString) :
    join sep texts = sep.intercalate texts := by
  induction texts with
  | nil => rfl
  | cons s texts ih =>
      cases texts with
      | nil => simp [join, List.intercalate]
      | cons t texts =>
          rw [join, ih]
          simp [List.intercalate]

theorem join_append (sep s : JsString) (texts : List JsString) :
    join sep (s :: texts) ++ sep = (s :: texts).flatMap fun t ↦ t ++ sep := by
  induction texts generalizing s with
  | nil => simp [join]
  | cons t texts ih =>
      have ih := ih t
      rw [join, List.append_assoc, ih]
      rfl

theorem buildRow_eq (cells : List JsString) :
    buildRow cells = writeRow csvDelimiters (cells.map neutralizeFormulaLeading) := by
  have hcells : cells.map escapeCell = cells.map (writeField csvDelimiters ∘
      neutralizeFormulaLeading) := List.map_congr_left fun value _ ↦ escapeCell_eq value
  rw [buildRow, join_eq_intercalate, writeRow, List.map_map, hcells]
  rfl

theorem header_eq : join (js ",") qcCsvColumns = writeRow csvDelimiters qcCsvColumns := by
  rw [join_eq_intercalate, writeRow]
  decide +kernel

theorem length_qcCsvColumns : qcCsvColumns.length = 19 := List.length_map ..

theorem head_qcCsvColumns : ∀ cell ∈ qcCsvColumns, cell.head?.all fun u ↦ !isFormulaLeader u := by
  decide

/-- The cells that stand in the row of a step. -/
def neutralizedCells (entry : QcMappingPreviewEntry) (step : Option GeneratedTestCaseStep) :
    List JsString :=
  (baseCells entry step).map neutralizeFormulaLeading

def neutralizedRows (entry : QcMappingPreviewEntry) : List (List JsString) :=
  if entry.designSteps = [] then [neutralizedCells entry none]
  else (entry.designSteps.insertionSort indexBefore).map fun step ↦
    neutralizedCells entry (some step)

theorem buildRowsForEntry_eq (entry : QcMappingPreviewEntry) :
    buildRowsForEntry entry = (neutralizedRows entry).map (writeRow csvDelimiters) := by
  unfold buildRowsForEntry neutralizedRows
  split
  · simp [buildRow_eq, neutralizedCells]
  · simp [buildRow_eq, neutralizedCells]

theorem renderQcCsv_eq (entries : List QcMappingPreviewEntry) :
    renderQcCsv localeCompare entries = writeTable csvDelimiters (qcCsvColumns ::
      (sortBy (fun a b ↦ localeCompare a.testCaseId b.testCaseId) entries).flatMap
        neutralizedRows) := by
  have hrows : ∀ order : List QcMappingPreviewEntry, order.flatMap buildRowsForEntry =
      (order.flatMap neutralizedRows).map (writeRow csvDelimiters) := by
    intro order
    rw [List.map_flatMap]
    exact List.flatMap_congr fun entry _ ↦ buildRowsForEntry_eq entry
  unfold renderQcCsv
  dsimp only
  rw [hrows, header_eq, join_append, ← List.map_cons, List.flatMap_map]
  rfl

theorem mem_neutralizedRows {entry : QcMappingPreviewEntry} {row : List JsString}
    (h : row ∈ neutralizedRows entry) : ∃ step, row = neutralizedCells entry step := by
  unfold neutralizedRows at h
  split at h
  · exact ⟨none, List.mem_singleton.mp h⟩
  · obtain ⟨step, -, rfl⟩ := List.mem_map.mp h
    exact ⟨some step, rfl⟩

/-! ## Reading back -/

/-- A case has one row for each step in the order of their indices, or one row
without a step. -/
def IsRowsOf (entry : QcMappingPreviewEntry) (rows : List (List JsString)) : Prop :=
  (entry.designSteps = [] ∧ rows = [neutralizedCells entry none]) ∨
  (entry.designSteps ≠ [] ∧ ∃ steps : List GeneratedTestCaseStep, steps.Perm entry.designSteps ∧
    ((∀ step ∈ steps, step.index ≠ .nan) →
      steps.Pairwise fun a b ↦ b.index.lt a.index = false) ∧
    rows = steps.map fun step ↦ neutralizedCells entry (some step))

/-- Steps whose indices are numbers are sorted by index. -/
theorem pairwise_sortedSteps {steps : List GeneratedTestCaseStep}
    (hnan : ∀ step ∈ steps, step.index ≠ .nan) :
    (steps.insertionSort indexBefore).Pairwise fun a b ↦ b.index.lt a.index = false := by
  have hperm := List.perm_insertionSort indexBefore steps
  have hbefore : ∀ a b : GeneratedTestCaseStep,
      indexBefore a b ↔ b.index.lt a.index = false := by
    intro a b
    rw [indexBefore, JsNumber.zero_lt_sub]
  have hsorted : (steps.insertionSort indexBefore).Pairwise indexBefore := by
    apply pairwise_insertionSort_of
    · intro a _ b _
      rw [hbefore, hbefore]
      exact JsNumber.lt_eq_false_total a.index b.index
    · intro a _ b hb c _
      rw [hbefore, hbefore, hbefore]
      exact JsNumber.lt_eq_false_trans (hnan b hb)
  exact hsorted.imp fun h ↦ (hbefore _ _).mp h

theorem isRowsOf_neutralizedRows (entry : QcMappingPreviewEntry) :
    IsRowsOf entry (neutralizedRows entry) := by
  unfold neutralizedRows
  split
  · next hnone => exact .inl ⟨hnone, rfl⟩
  · next hsteps =>
    have hperm := List.perm_insertionSort indexBefore entry.designSteps
    refine .inr ⟨hsteps, _, hperm, fun hnan ↦ ?_, rfl⟩
    exact pairwise_sortedSteps fun step hstep ↦ hnan step (hperm.mem_iff.mpr hstep)

def sampleEntry (id : String) (steps : List GeneratedTestCaseStep) : QcMappingPreviewEntry where
  testCaseId := js id
  externalIdCandidate := js "abc1"
  testName := js "=1+1"
  objective := js "a,\"b\"\r\n"
  priority := js "p1"
  riskCategory := js "low"
  targetFolderPath := js "/Subject/X/low"
  preconditions := [js "x", js "-y"]
  testData := []
  designSteps := steps
  expectedResults := []
  visualProvenance := none

end TestIntelligence.ProductionRunner.QcCsv
