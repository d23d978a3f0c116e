import TestIntelligence.Js.Sorting
import TestIntelligence.Lists.Separated
import TestIntelligence.Security.Digests

/-!
# Keys of the test management adapters

The idempotency key of a case, and the envelope of execution evidence with its rows dropped as
duplicates.
-/

namespace TestIntelligence.Integrations

open Js Lists Security

/-! ## The idempotency key -/

structure TmsIdempotencyKeyInput where
  tenantId : JsString
  runId : JsString
  testCaseId : JsString
  deriving DecidableEq

/-- The error is the message of the `TypeError`. -/
def requireNonEmpty (value field : JsString) : Except JsString JsString :=
  let trimmed := trim value
  if trimmed.length = 0 then .error (field ++ js " must be a non-empty string") else .ok trimmed

/-- `sha256` gives the lower-case hexadecimal digest. -/
def computeTmsIdempotencyKey (sha256 : Bytes → JsString) (input : TmsIdempotencyKeyInput) :
    Except JsString JsString := do
  let tenantId ← requireNonEmpty input.tenantId (js "tenantId")
  let runId ← requireNonEmpty input.runId (js "runId")
  let testCaseId ← requireNonEmpty input.testCaseId (js "testCaseId")
  return sha256 (utf8Encode (tenantId ++ js "|" ++ runId ++ js "|" ++ testCaseId))

/-! ## The envelope of execution evidence -/

def MAX_EXECUTION_EVIDENCE_ROWS_PER_PULL : ℕ := 5000

def PULL_EVIDENCE_EXECUTION_VERDICTS : List JsString :=
  [js "pass", js "fail", js "blocked", js "skipped"]

def PULL_EVIDENCE_REVIEWER_VERDICTS : List JsString :=
  [js "approved", js "rejected", js "revised"]

structure ParseRawExecutionEvidenceEnvelopeInput where
  adapterId : JsString
  tenantId : JsString
  body : Json
  sinceIso : JsString

structure PulledEvidence where
  testCaseId : JsString
  tenantId : JsString
  tmsAdapterId : JsString
  tmsCaseId : JsString
  executionVerdict : JsString
  reviewerVerdict : Option JsString
  reviewerRationale : Option JsString
  executedAt : JsString
  attestationSignatureHex : JsString

structure ParseRawExecutionEvidenceEnvelopeResult where
  evidence : List PulledEvidence
  droppedRowCount : ℕ

inductive EnvelopeError
  | typeError (message : JsString)
  | rangeError (message : JsString)

/-- A message of the parser. -/
def envelopeMessage (detail : JsString) : JsString :=
  js "parseRawExecutionEvidenceEnvelope: " ++ detail

/-- `row[field]`, on an array too. -/
def rowField (row : Json) (field : String) : Option Json :=
  match row with
  | .obj members => mapGet members (js field)
  | _ => none

def requireRowString (row : Json) (field : String) : Except EnvelopeError JsString :=
  match rowField row field with
  | some (.str raw) =>
      if raw.length = 0 then
        .error (.typeError
          (envelopeMessage (js "row." ++ js field ++ js " must be a non-empty string")))
      else .ok raw
  | _ => .error (.typeError
      (envelopeMessage (js "row." ++ js field ++ js " must be a non-empty string")))

def isTypeofObject : Json → Bool
  | .obj _ | .arr _ => true
  | _ => false

def readOptional (row : Json) (field : String) : Except EnvelopeError (Option JsString) :=
  if rowField row field = none then .ok none else (requireRowString row field).map some

/-- What the loop checks and takes from a row. -/
def readRow (input : ParseRawExecutionEvidenceEnvelopeInput) (row : Json) :
    Except EnvelopeError PulledEvidence := do
  if !isTypeofObject row then
    throw (.typeError (envelopeMessage (js "every evidence row must be an object")))
  let testCaseId ← requireRowString row "testCaseId"
  let tenantId ← requireRowString row "tenantId"
  let tmsAdapterId ← requireRowString row "tmsAdapterId"
  let tmsCaseId ← requireRowString row "tmsCaseId"
  let executionVerdict ← requireRowString row "executionVerdict"
  let executedAt ← requireRowString row "executedAt"
  let attestationSignatureHex ← requireRowString row "attestationSignatureHex"
  if tenantId ≠ input.tenantId then
    throw (.typeError (envelopeMessage (js "row tenantId \"" ++ tenantId ++
      js "\" does not match adapter tenantId \"" ++ input.tenantId ++ js "\"")))
  if tmsAdapterId ≠ input.adapterId then
    throw (.typeError (envelopeMessage (js "row tmsAdapterId \"" ++ tmsAdapterId ++
      js "\" does not match adapter id \"" ++ input.adapterId ++ js "\"")))
  if executionVerdict ∉ PULL_EVIDENCE_EXECUTION_VERDICTS then
    throw (.typeError (envelopeMessage (js "unknown executionVerdict \"" ++ executionVerdict ++
      js "\"")))
  let reviewerVerdict ← readOptional row "reviewerVerdict"
  match reviewerVerdict with
  | some v =>
      if v ∉ PULL_EVIDENCE_REVIEWER_VERDICTS then
        throw (.typeError (envelopeMessage (js "unknown reviewerVerdict \"" ++ v ++ js "\"")))
  | none => pure ()
  let reviewerRationale ← readOptional row "reviewerRationale"
  return {
    testCaseId := testCaseId, tenantId, tmsAdapterId, tmsCaseId, executionVerdict, reviewerVerdict,
    reviewerRationale, executedAt, attestationSignatureHex }

def PulledEvidence.dupKey (row : PulledEvidence) : JsString :=
  row.tmsCaseId ++ js "|" ++ row.attestationSignatureHex

/-- The variables of the loop. -/
structure Pull where
  seen : List JsString
  out : List PulledEvidence
  dropped : ℕ

def Pull.start : Pull := ⟨[], [], 0⟩

def pullRow (sinceIso : JsString) (pull : Pull) (row : PulledEvidence) : Pull :=
  if row.executedAt < sinceIso then { pull with dropped := pull.dropped + 1 }
  else if row.dupKey ∈ pull.seen then { pull with dropped := pull.dropped + 1 }
  else { pull with seen := pull.seen ++ [row.dupKey], out := pull.out ++ [row] }

def pullRows (input : ParseRawExecutionEvidenceEnvelopeInput) :
    Pull → List Json → Except EnvelopeError Pull
  | pull, [] => .ok pull
  | pull, raw :: rest =>
      match readRow input raw with
      | .error error => .error error
      | .ok row => pullRows input (pullRow input.sinceIso pull row) rest

/-- The order of the evidence; `localeCompare` is the one of strings. -/
def compareEvidence (localeCompare : JsString → JsString → ℤ) (a b : PulledEvidence) : ℤ :=
  if a.executedAt ≠ b.executedAt then localeCompare a.executedAt b.executedAt
  else localeCompare a.tmsCaseId b.tmsCaseId

def parseRawExecutionEvidenceEnvelope (localeCompare : JsString → JsString → ℤ)
    (input : ParseRawExecutionEvidenceEnvelopeInput) :
    Except EnvelopeError ParseRawExecutionEvidenceEnvelopeResult :=
  if !isTypeofObject input.body then
    .error (.typeError (envelopeMessage (js "body must be a non-null object")))
  else
    match rowField input.body "evidence" with
    | some (.arr rows) =>
        if rows.length > MAX_EXECUTION_EVIDENCE_ROWS_PER_PULL then
          .error (.rangeError (envelopeMessage (js "at most 5000 rows per pull (got " ++
            js (toString rows.length) ++ js ")")))
        else
          (pullRows input .start rows).map fun pull ↦
            { evidence := sortBy (compareEvidence localeCompare) pull.out,
              droppedRowCount := pull.dropped }
    | _ => .error (.typeError (envelopeMessage (js "body.evidence must be an array")))

/-! ## When two keys agree -/

section

variable {sha256 : Bytes → JsString} {t t' : TmsIdempotencyKeyInput} {s s' : JsString}

/-- The strings are neither blank nor surrounded by white space. -/
structure TmsIdempotencyKeyInput.Plain (t : TmsIdempotencyKeyInput) : Prop where
  tenantId : trim t.tenantId = t.tenantId ∧ t.tenantId ≠ []
  runId : trim t.runId = t.runId ∧ t.runId ≠ []
  testCaseId : trim t.testCaseId = t.testCaseId ∧ t.testCaseId ≠ []

def TmsIdempotencyKeyInput.text (t : TmsIdempotencyKeyInput) : JsString :=
  t.tenantId ++ 0x7C :: (t.runId ++ 0x7C :: t.testCaseId)

/-- Two triples are read as the same characters, lone surrogates being replaced, or a piece of
one has moved across a separator. -/
def Confusable (t t' : TmsIdempotencyKeyInput) : Prop :=
  let tenant := codePoints t.tenantId
  let tenant' := codePoints t'.tenantId
  let rest := (codePoints t.runId, codePoints t.testCaseId)
  let rest' := (codePoints t'.runId, codePoints t'.testCaseId)
  tenant = tenant' ∧ (rest = rest' ∨ Moved 0x7C rest rest' ∨ Moved 0x7C rest' rest) ∨
    Moved 0x7C (tenant, joined 0x7C rest) (tenant', joined 0x7C rest') ∨
    Moved 0x7C (tenant', joined 0x7C rest') (tenant, joined 0x7C rest)

theorem requireNonEmpty_eq_ok (h : trim s = s ∧ s ≠ []) (field : JsString) :
    requireNonEmpty s field = .ok s := by
  have hlength : s.length ≠ 0 := mt List.length_eq_zero_iff.mp h.2
  rw [requireNonEmpty, h.1]
  exact if_neg hlength

theorem computeTmsIdempotencyKey_eq (h : t.Plain) :
    computeTmsIdempotencyKey sha256 t = .ok (sha256 (utf8Encode t.text)) := by
  have htext : t.tenantId ++ js "|" ++ t.runId ++ js "|" ++ t.testCaseId = t.text := by
    have hsep : js "|" = [0x7C] := by decide
    simp [hsep, TmsIdempotencyKeyInput.text]
  rw [computeTmsIdempotencyKey, requireNonEmpty_eq_ok h.tenantId, requireNonEmpty_eq_ok h.runId,
    requireNonEmpty_eq_ok h.testCaseId, ← htext]
  rfl

theorem codePoints_cons {u : CodeUnit} (hu : isSurrogate u = false) (s : JsString) :
    codePoints (u :: s) = u.toNat :: codePoints s := by
  have hlead : isLeadSurrogate u = false := by
    rw [isSurrogate, Bool.or_eq_false_iff] at hu
    exact hu.1
  cases s with
  | nil => simp [codePoints, unitPoint, hu]
  | cons v rest => simp [codePoints, unitPoint, hu, hlead]

/-- The separator is no half of a pair. -/
theorem codePoints_append_separator (s rest : JsString) :
    codePoints (s ++ 0x7C :: rest) = codePoints s ++ 0x7C :: codePoints rest := by
  have hsep : isSurrogate 0x7C = false := by decide
  have hcons := codePoints_cons hsep rest
  have htrail : isTrailSurrogate 0x7C = false := by decide
  induction s using codePoints.induct with
  | case1 => exact hcons
  | case2 u =>
      rw [List.singleton_append, codePoints, codePoints, htrail, Bool.and_false,
        if_neg Bool.false_ne_true, hcons]
      rfl
  | case3 u v rest hpair ih =>
      rw [List.cons_append, List.cons_append, codePoints, if_pos hpair, ih, codePoints,
        if_pos hpair, List.cons_append]
  | case4 u v rest hpair ih =>
      rw [List.cons_append, List.cons_append, codePoints, if_neg hpair, ← List.cons_append, ih,
        codePoints, if_neg hpair, List.cons_append]

theorem utf8Encode_eq_iff : utf8Encode s = utf8Encode s' ↔ codePoints s = codePoints s' := by
  constructor
  · intro h
    rw [← decodePoints_flatMap fun p ↦ isScalar_of_mem_codePoints (s := s),
      ← decodePoints_flatMap fun p ↦ isScalar_of_mem_codePoints (s := s')]
    exact congrArg (decodePoints none) h
  · intro h
    rw [utf8Encode, h, utf8Encode]

theorem confusable_iff : Confusable t t' ↔ codePoints t.text = codePoints t'.text := by
  have htext : ∀ t : TmsIdempotencyKeyInput, codePoints t.text =
      joined 0x7C (codePoints t.tenantId,
        joined 0x7C (codePoints t.runId, codePoints t.testCaseId)) := by
    intro t
    rw [TmsIdempotencyKeyInput.text, codePoints_append_separator, codePoints_append_separator]
    rfl
  rw [htext, htext, joined_eq_iff, Prod.mk.injEq, joined_eq_iff]
  rfl

/-- Two triples have the same key just when they can be confused. -/
theorem key_eq_iff (hinj : Function.Injective sha256) (h : t.Plain) (h' : t'.Plain) :
    computeTmsIdempotencyKey sha256 t = computeTmsIdempotencyKey sha256 t' ↔
      Confusable t t' := by
  rw [computeTmsIdempotencyKey_eq h, computeTmsIdempotencyKey_eq h', Except.ok.injEq, hinj.eq_iff,
    utf8Encode_eq_iff, confusable_iff]

end

/-! ## What the loop keeps -/

section

variable {input : ParseRawExecutionEvidenceEnvelopeInput} {sinceIso : JsString} {pull : Pull}
  {rows done : List PulledEvidence} {raws : List Json} {row : PulledEvidence}

def PulledEvidence.pair (row : PulledEvidence) : JsString × JsString :=
  (row.tmsCaseId, row.attestationSignatureHex)

theorem dupKey_eq (row : PulledEvidence) : row.dupKey = joined 0x7C row.pair := by
  have hsep : js "|" = [0x7C] := by decide
  rw [PulledEvidence.dupKey, hsep, List.append_assoc]
  rfl

/-- What the variables of the loop say about the rows read so far. -/
structure PullInv (sinceIso : JsString) (done : List PulledEvidence) (pull : Pull) : Prop where
  keys : pull.seen = pull.out.map (·.dupKey)
  nodup : pull.seen.Nodup
  covers : ∀ row ∈ done, ¬ row.executedAt < sinceIso → row.dupKey ∈ pull.seen
  sound : ∀ row ∈ pull.out, row ∈ done ∧ ¬ row.executedAt < sinceIso

theorem pullInv_start : PullInv sinceIso [] .start :=
  ⟨rfl, List.nodup_nil, nofun, nofun⟩

/-- A turn leaves the variables but for the count, or keeps a row with a new key. -/
theorem pullRow_cases (sinceIso : JsString) (pull : Pull) (row : PulledEvidence) :
    (row.executedAt < sinceIso ∨ row.dupKey ∈ pull.seen) ∧
        pullRow sinceIso pull row = { pull with dropped := pull.dropped + 1 } ∨
      ¬ row.executedAt < sinceIso ∧ row.dupKey ∉ pull.seen ∧ pullRow sinceIso pull row =
        { pull with seen := pull.seen ++ [row.dupKey], out := pull.out ++ [row] } := by
  unfold pullRow
  split
  · next hbefore => exact .inl ⟨.inl hbefore, rfl⟩
  · next hafter =>
      split
      · next hseen => exact .inl ⟨.inr hseen, rfl⟩
      · next hnew => exact .inr ⟨hafter, hnew, rfl⟩

theorem PullInv.pullRow (h : PullInv sinceIso done pull) (row : PulledEvidence) :
    PullInv sinceIso (done ++ [row]) (pullRow sinceIso pull row) := by
  rcases pullRow_cases sinceIso pull row with ⟨hdrop, heq⟩ | ⟨hafter, hnew, heq⟩
  · rw [heq]
    refine ⟨h.keys, h.nodup, fun row' hrow' hfloor ↦ ?_, fun row' hrow' ↦ ?_⟩
    · rcases List.mem_append.mp hrow' with hrow' | hrow'
      · exact h.covers row' hrow' hfloor
      · obtain rfl := List.mem_singleton.mp hrow'
        exact hdrop.resolve_left hfloor
    · exact ⟨List.mem_append_left _ (h.sound row' hrow').1, (h.sound row' hrow').2⟩
  · rw [heq]
    refine ⟨?_, ?_, fun row' hrow' hfloor ↦ ?_, fun row' hrow' ↦ ?_⟩
    · rw [List.map_append, h.keys]
      rfl
    · exact List.nodup_append.mpr ⟨h.nodup, List.nodup_singleton _, fun key hkey key' hkey' ↦ by
        rw [List.mem_singleton.mp hkey']
        exact fun heq ↦ hnew (heq ▸ hkey)⟩
    · rcases List.mem_append.mp hrow' with hrow' | hrow'
      · exact List.mem_append_left _ (h.covers row' hrow' hfloor)
      · exact List.mem_append_right _ (List.mem_singleton.mp hrow' ▸ List.mem_singleton_self _)
    · rcases List.mem_append.mp hrow' with hrow' | hrow'
      · exact ⟨List.mem_append_left _ (h.sound row' hrow').1, (h.sound row' hrow').2⟩
      · obtain rfl := List.mem_singleton.mp hrow'
        exact ⟨List.mem_append_right _ (List.mem_singleton_self _), hafter⟩

theorem PullInv.foldl (h : PullInv sinceIso done pull) (rows : List PulledEvidence) :
    PullInv sinceIso (done ++ rows) (rows.foldl (Integrations.pullRow sinceIso) pull) := by
  induction rows generalizing done pull with
  | nil => rwa [List.append_nil]
  | cons row rows ih =>
      have hstep := ih (h.pullRow row)
      rwa [List.append_assoc, List.singleton_append] at hstep

/-- All the rows of an envelope, read. -/
def pullAll (sinceIso : JsString) (rows : List PulledEvidence) : Pull :=
  rows.foldl (pullRow sinceIso) .start

theorem pullInv_pullAll (sinceIso : JsString) (rows : List PulledEvidence) :
    PullInv sinceIso rows (pullAll sinceIso rows) := pullInv_start.foldl rows

theorem mem_out_pullRow (h : row ∈ pull.out) (row' : PulledEvidence) :
    row ∈ (pullRow sinceIso pull row').out := by
  rcases pullRow_cases sinceIso pull row' with ⟨-, heq⟩ | ⟨-, -, heq⟩
  · rw [heq]
    exact h
  · rw [heq]
    exact List.mem_append_left _ h

theorem mem_out_foldl (h : row ∈ pull.out) (rows : List PulledEvidence) :
    row ∈ (rows.foldl (pullRow sinceIso) pull).out := by
  induction rows generalizing pull with
  | nil => exact h
  | cons row' rows ih => exact ih (mem_out_pullRow h row')

theorem PullInv.exists_of_covered (h : PullInv sinceIso done pull) (hrow : row ∈ done)
    (hfloor : ¬ row.executedAt < sinceIso) : ∃ kept ∈ pull.out, kept.dupKey = row.dupKey := by
  have hseen := h.covers row hrow hfloor
  rw [h.keys] at hseen
  exact List.mem_map.mp hseen

theorem PullInv.eq_of_dupKey (h : PullInv sinceIso done pull) {kept kept' : PulledEvidence}
    (hkept : kept ∈ pull.out) (hkept' : kept' ∈ pull.out) (hkey : kept.dupKey = kept'.dupKey) :
    kept = kept' :=
  List.inj_on_of_nodup_map (h.keys ▸ h.nodup) hkept hkept' hkey

/-- A row whose pair is nowhere among the kept ones was taken for a duplicate. -/
theorem dropped_of_pair_ne {before after : List PulledEvidence}
    (hfloor : ¬ row.executedAt < sinceIso)
    (hne : ∀ kept ∈ (pullAll sinceIso (before ++ row :: after)).out, kept.pair ≠ row.pair) :
    row.dupKey ∈ (pullAll sinceIso before).seen := by
  by_contra hnew
  rw [pullAll, List.foldl_append, ← pullAll, List.foldl_cons] at hne
  rcases pullRow_cases sinceIso (pullAll sinceIso before) row with ⟨hdrop, -⟩ | ⟨-, -, heq⟩
  · exact hnew (hdrop.resolve_left hfloor)
  · apply hne row _ rfl
    apply mem_out_foldl
    rw [heq]
    exact List.mem_append_right _ (List.mem_singleton_self _)

/-- No pair of a row becomes that of another when a piece moves across the separator. -/
def PairsApart (sinceIso : JsString) (rows : List PulledEvidence) : Prop :=
  ∀ row ∈ rows, ∀ row' ∈ rows, ¬ row.executedAt < sinceIso → ¬ row'.executedAt < sinceIso →
    ¬ Moved 0x7C row.pair row'.pair

/-- Then the kept pairs are those of all the rows. -/
theorem mem_pairs_of_apart (h : PairsApart sinceIso rows) (pair : JsString × JsString) :
    pair ∈ (pullAll sinceIso rows).out.map (·.pair) ↔
      ∃ row ∈ rows, ¬ row.executedAt < sinceIso ∧ row.pair = pair := by
  have hkept := pullInv_pullAll sinceIso rows
  constructor
  · intro hmem
    obtain ⟨row, hrow, rfl⟩ := List.mem_map.mp hmem
    exact ⟨row, (hkept.sound row hrow).1, (hkept.sound row hrow).2, rfl⟩
  · rintro ⟨row, hrow, hfloor, rfl⟩
    obtain ⟨kept, hout, hkey⟩ := hkept.exists_of_covered hrow hfloor
    obtain ⟨hmem, hfloor'⟩ := hkept.sound kept hout
    rw [dupKey_eq, dupKey_eq, joined_eq_iff] at hkey
    rcases hkey with hpair | hmoved | hmoved
    · exact List.mem_map.mpr ⟨kept, hout, hpair⟩
    · exact absurd hmoved (h kept hmem row hrow hfloor' hfloor)
    · exact absurd hmoved (h row hrow kept hmem hfloor hfloor')

/-- Otherwise some pair is lost. -/
theorem exists_lost_of_not_apart (h : ¬ PairsApart sinceIso rows) :
    ∃ row ∈ rows, ¬ row.executedAt < sinceIso ∧
      ∀ kept ∈ (pullAll sinceIso rows).out, kept.pair ≠ row.pair := by
  have hkept := pullInv_pullAll sinceIso rows
  by_contra hnone
  apply h
  intro row hrow row' hrow' hfloor hfloor' hmoved
  apply hnone
  have hsame : row.dupKey = row'.dupKey := by
    rw [dupKey_eq, dupKey_eq]
    exact hmoved.joined_eq
  obtain ⟨kept, hout, hkey⟩ := hkept.exists_of_covered hrow hfloor
  have hdupKey : ∀ {a b : PulledEvidence}, a.pair = b.pair → a.dupKey = b.dupKey := by
    intro a b hpair
    rw [dupKey_eq, dupKey_eq, hpair]
  by_cases hpair : kept.pair = row.pair
  · refine ⟨row', hrow', hfloor', fun kept' hout' hpair' ↦ ?_⟩
    have heq := hkept.eq_of_dupKey hout' hout ((hdupKey hpair').trans (hsame.symm.trans hkey.symm))
    rw [heq, hpair] at hpair'
    exact hmoved.ne hpair'
  · refine ⟨row, hrow, hfloor, fun kept' hout' hpair' ↦ ?_⟩
    have heq := hkept.eq_of_dupKey hout' hout ((hdupKey hpair').trans hkey.symm)
    exact hpair (heq ▸ hpair')

end

/-! ## The envelope as a whole -/

section

variable {input : ParseRawExecutionEvidenceEnvelopeInput} {pull pull' : Pull} {raws : List Json}
  {localeCompare : JsString → JsString → ℤ} {result : ParseRawExecutionEvidenceEnvelopeResult}

/-- The rows that can be read. -/
def rowsOf (input : ParseRawExecutionEvidenceEnvelopeInput) (raws : List Json) :
    List PulledEvidence := raws.filterMap fun raw ↦ (readRow input raw).toOption

theorem pullRows_eq_ok_iff : pullRows input pull raws = .ok pull' ↔
    (∀ raw ∈ raws, ∃ row, readRow input raw = .ok row) ∧
      (rowsOf input raws).foldl (pullRow input.sinceIso) pull = pull' := by
  induction raws generalizing pull with
  | nil => simp [pullRows, rowsOf]
  | cons raw raws ih =>
      rw [pullRows, List.forall_mem_cons, rowsOf, List.filterMap_cons]
      cases hread : readRow input raw with
      | error error => simp
      | ok row =>
          simp only [ih, Except.toOption, List.foldl_cons, Except.ok.injEq, exists_eq', true_and]
          rfl

theorem parse_eq_ok (h : parseRawExecutionEvidenceEnvelope localeCompare input = .ok result) :
    ∃ raws, rowField input.body "evidence" = some (.arr raws) ∧
      raws.length ≤ MAX_EXECUTION_EVIDENCE_ROWS_PER_PULL ∧
      (∀ raw ∈ raws, ∃ row, readRow input raw = .ok row) ∧
      result.evidence.Perm (pullAll input.sinceIso (rowsOf input raws)).out := by
  unfold parseRawExecutionEvidenceEnvelope at h
  split at h
  · cases h
  · split at h
    · next raws hraws =>
        split at h
        · cases h
        · next hlength =>
            cases hpull : pullRows input .start raws with
            | error error =>
                rw [hpull] at h
                cases h
            | ok pull =>
                rw [hpull] at h
                obtain rfl := Except.ok.inj h
                obtain ⟨hread, rfl⟩ := pullRows_eq_ok_iff.mp hpull
                exact ⟨raws, hraws, not_lt.mp hlength, hread, sortBy_perm _ _⟩
    · cases h

theorem parse_of_rows (hraws : rowField input.body "evidence" = some (.arr raws))
    (hlength : raws.length ≤ MAX_EXECUTION_EVIDENCE_ROWS_PER_PULL)
    (hread : ∀ raw ∈ raws, ∃ row, readRow input raw = .ok row) :
    ∃ result, parseRawExecutionEvidenceEnvelope localeCompare input = .ok result ∧
      result.evidence.Perm (pullAll input.sinceIso (rowsOf input raws)).out := by
  have hobject : ¬ (!isTypeofObject input.body) = true := by
    unfold rowField at hraws
    split at hraws
    · next members hbody =>
        rw [hbody]
        exact Bool.false_ne_true
    · cases hraws
  have hpull : pullRows input .start raws =
      .ok (pullAll input.sinceIso (rowsOf input raws)) := pullRows_eq_ok_iff.mpr ⟨hread, rfl⟩
  unfold parseRawExecutionEvidenceEnvelope
  rw [if_neg hobject, hraws]
  simp only
  rw [if_neg (not_lt.mpr hlength), hpull]
  exact ⟨_, rfl, sortBy_perm _ _⟩

/-- The row was read after the floor, with its key among those seen before it. -/
def DroppedAsDuplicate (input : ParseRawExecutionEvidenceEnvelopeInput) (row : PulledEvidence) :
    Prop :=
  ∃ before raw after pull,
    rowField input.body "evidence" = some (.arr (before ++ raw :: after)) ∧
      pullRows input .start before = .ok pull ∧ readRow input raw = .ok row ∧
      ¬ row.executedAt < input.sinceIso ∧ row.dupKey ∈ pull.seen

def keptPairs (result : ParseRawExecutionEvidenceEnvelopeResult) : List (JsString × JsString) :=
  result.evidence.map (·.pair)

/-- Every row dropped as a duplicate agrees with a kept one. -/
def DropsOnlyDuplicates (localeCompare : JsString → JsString → ℤ)
    (input : ParseRawExecutionEvidenceEnvelopeInput) : Prop :=
  ∀ result, parseRawExecutionEvidenceEnvelope localeCompare input = .ok result →
    ∀ row, DroppedAsDuplicate input row → ∃ kept ∈ result.evidence,
      kept.tmsCaseId = row.tmsCaseId ∧
        kept.attestationSignatureHex = row.attestationSignatureHex

/-- The same rows in any order are accepted, and the same pairs are kept. -/
def KeepsPairsInAnyOrder (localeCompare : JsString → JsString → ℤ)
    (input : ParseRawExecutionEvidenceEnvelopeInput) : Prop :=
  ∀ result, parseRawExecutionEvidenceEnvelope localeCompare input = .ok result →
    ∀ raws, rowField input.body "evidence" = some (.arr raws) →
    ∀ body raws', rowField body "evidence" = some (.arr raws') → raws'.Perm raws →
      ∃ result', parseRawExecutionEvidenceEnvelope localeCompare { input with body } =
          .ok result' ∧ ∀ pair, pair ∈ keptPairs result' ↔ pair ∈ keptPairs result

/-- Among the rows of the envelope that are read after the floor, no pair of case and signature
becomes another when a piece moves across a separator. -/
def RowsApart (input : ParseRawExecutionEvidenceEnvelopeInput) : Prop :=
  ∀ raws, rowField input.body "evidence" = some (.arr raws) →
    PairsApart input.sinceIso (rowsOf input raws)

theorem rowsOf_append (input : ParseRawExecutionEvidenceEnvelopeInput) (before after : List Json) :
    rowsOf input (before ++ after) = rowsOf input before ++ rowsOf input after :=
  List.filterMap_append

theorem rowsOf_cons {raw : Json} {row : PulledEvidence} (h : readRow input raw = .ok row)
    (raws : List Json) : rowsOf input (raw :: raws) = row :: rowsOf input raws :=
  List.filterMap_cons_some (by rw [h]; rfl)

theorem mem_rowsOf {row : PulledEvidence} :
    row ∈ rowsOf input raws ↔ ∃ raw ∈ raws, readRow input raw = .ok row := by
  have hread : ∀ raw, (readRow input raw).toOption = some row ↔ readRow input raw = .ok row := by
    intro raw
    cases readRow input raw <;> simp [Except.toOption]
  rw [rowsOf, List.mem_filterMap]
  exact exists_congr fun raw ↦ and_congr_right fun _ ↦ hread raw

theorem dropsOnlyDuplicates_iff
    (haccepted : parseRawExecutionEvidenceEnvelope localeCompare input = .ok result) :
    DropsOnlyDuplicates localeCompare input ↔ RowsApart input := by
  obtain ⟨raws, hraws, -, hread, hperm⟩ := parse_eq_ok haccepted
  constructor
  · intro hdrops raws' hraws'
    obtain rfl : raws = raws' := by simpa [hraws] using hraws'
    by_contra hapart
    obtain ⟨row, hrow, hfloor, hlost⟩ := exists_lost_of_not_apart hapart
    obtain ⟨raw, hraw, hreadRow⟩ := mem_rowsOf.mp hrow
    obtain ⟨before, after, rfl⟩ := List.append_of_mem hraw
    have hbefore : pullRows input .start before =
        .ok (pullAll input.sinceIso (rowsOf input before)) :=
      pullRows_eq_ok_iff.mpr ⟨fun raw' hraw' ↦ hread raw' (List.mem_append_left _ hraw'), rfl⟩
    rw [rowsOf_append, rowsOf_cons hreadRow] at hlost
    have hseen := dropped_of_pair_ne hfloor hlost
    obtain ⟨kept, hkept, hcase, hsignature⟩ := hdrops result haccepted row
      ⟨before, raw, after, _, hraws, hbefore, hreadRow, hfloor, hseen⟩
    rw [hperm.mem_iff, rowsOf_append, rowsOf_cons hreadRow] at hkept
    exact hlost kept hkept (Prod.ext hcase hsignature)
  · intro hapart result' hresult row hdropped
    obtain rfl : result = result' := Except.ok.inj (haccepted.symm.trans hresult)
    obtain ⟨before, raw, after, pull, hevidence, -, hreadRow, hfloor, -⟩ := hdropped
    obtain rfl : raws = before ++ raw :: after := by simpa [hraws] using hevidence
    have hmem : row ∈ rowsOf input (before ++ raw :: after) :=
      mem_rowsOf.mpr ⟨raw, by simp, hreadRow⟩
    have hpair := (mem_pairs_of_apart (hapart _ hraws) row.pair).mpr ⟨row, hmem, hfloor, rfl⟩
    obtain ⟨kept, hkept, heq⟩ := List.mem_map.mp hpair
    exact ⟨kept, hperm.mem_iff.mpr hkept, congrArg Prod.fst heq, congrArg Prod.snd heq⟩

theorem keepsPairsInAnyOrder_iff
    (haccepted : parseRawExecutionEvidenceEnvelope localeCompare input = .ok result) :
    KeepsPairsInAnyOrder localeCompare input ↔ RowsApart input := by
  obtain ⟨raws, hraws, hlength, hread, hperm⟩ := parse_eq_ok haccepted
  constructor
  · intro hkeeps raws' hraws'
    obtain rfl : raws = raws' := by simpa [hraws] using hraws'
    by_contra hapart
    obtain ⟨row, hrow, hfloor, hlost⟩ := exists_lost_of_not_apart hapart
    obtain ⟨raw, hraw, hreadRow⟩ := mem_rowsOf.mp hrow
    obtain ⟨before, after, rfl⟩ := List.append_of_mem hraw
    -- the lost row goes to the front
    obtain ⟨result', hresult', hpairs⟩ := hkeeps result haccepted _ hraws
      (.obj [(js "evidence", .arr (raw :: (before ++ after)))]) _ (by simp [rowField, mapGet_cons])
      List.perm_middle.symm
    obtain ⟨raws', hraws', -, -, hperm'⟩ := parse_eq_ok hresult'
    obtain rfl : raw :: (before ++ after) = raws' := by simpa [rowField, mapGet_cons] using hraws'
    have hfirst : row ∈ result'.evidence := by
      rw [hperm'.mem_iff]
      change row ∈ (pullAll input.sinceIso (rowsOf input (raw :: (before ++ after)))).out
      rw [rowsOf_cons hreadRow, pullAll, List.foldl_cons]
      apply mem_out_foldl
      have hnew : row.dupKey ∉ Pull.start.seen := List.not_mem_nil
      rw [pullRow, if_neg hfloor, if_neg hnew]
      exact List.mem_singleton_self _
    obtain ⟨kept, hkept, hpair⟩ := List.mem_map.mp
      ((hpairs row.pair).mp (List.mem_map_of_mem hfirst))
    exact hlost kept (hperm.mem_iff.mp hkept) hpair
  · intro hapart result' hresult raws' hraws' body raws'' hbody hreordered
    obtain rfl : result = result' := Except.ok.inj (haccepted.symm.trans hresult)
    obtain rfl : raws = raws' := by simpa [hraws] using hraws'
    obtain ⟨result'', hresult'', hperm''⟩ := @parse_of_rows { input with body } _
      localeCompare hbody (hreordered.length_eq.trans_le hlength)
      fun raw hraw ↦ hread raw (hreordered.mem_iff.mp hraw)
    refine ⟨result'', hresult'', fun pair ↦ ?_⟩
    have hrows : (rowsOf input raws'').Perm (rowsOf input raws) := hreordered.filterMap _
    have hapart'' : PairsApart input.sinceIso (rowsOf input raws'') := fun row hrow row' hrow' ↦
      hapart raws hraws row (hrows.mem_iff.mp hrow) row' (hrows.mem_iff.mp hrow')
    rw [keptPairs, keptPairs, (hperm''.map _).mem_iff, (hperm.map _).mem_iff,
      mem_pairs_of_apart (hapart raws hraws)]
    refine (mem_pairs_of_apart hapart'' pair).trans ?_
    exact exists_congr fun row ↦ and_congr_left fun _ ↦ hrows.mem_iff

end

/-! ## The keys and the envelope -/

/-- Equal keys mean equal triples, and rows are dropped and kept as they should be, just where
no piece of an identifier moves across a separator. -/
theorem tms_keys_iff (sha256 : Bytes → JsString) (hinj : Function.Injective sha256)
    (localeCompare : JsString → JsString → ℤ) :
    (∀ t t' : TmsIdempotencyKeyInput, t.Plain → t'.Plain →
      ((computeTmsIdempotencyKey sha256 t = computeTmsIdempotencyKey sha256 t' → t = t') ↔
        t = t' ∨ ¬ Confusable t t')) ∧
    (∀ input result, parseRawExecutionEvidenceEnvelope localeCompare input = .ok result →
      (DropsOnlyDuplicates localeCompare input ↔ RowsApart input) ∧
        (KeepsPairsInAnyOrder localeCompare input ↔ RowsApart input)) := by
  refine ⟨fun t t' h h' ↦ ?_, fun input result haccepted ↦
    ⟨dropsOnlyDuplicates_iff haccepted, keepsPairsInAnyOrder_iff haccepted⟩⟩
  rw [key_eq_iff hinj h h', imp_iff_not_or, or_comm]

def sampleTriple : TmsIdempotencyKeyInput := ⟨js "acme", js "run-1", js "TC-1"⟩

def otherTriple : TmsIdempotencyKeyInput := ⟨js "acme", js "run-1", js "TC-2"⟩

/-- The digests of the texts of the two triples. -/
def tripleDigests : List (Bytes × JsString) :=
  [(utf8Encode (js "acme|run-1|TC-1"),
      js "5fe1ee008233ff356ea75018caa7b514732bd18fa43b6636edc205d99995937b"),
    (utf8Encode (js "acme|run-1|TC-2"),
      js "2598a314af2982668ae9be5b288e8fa6315137968fbe6e9e9eb969b27f404455")]

theorem isDigestTable_tripleDigests : IsDigestTable tripleDigests :=
  ⟨by decide, by decide⟩

theorem tms_keys_iff_sample :
    (computeTmsIdempotencyKey (tabledSha256 tripleDigests) sampleTriple =
      computeTmsIdempotencyKey (tabledSha256 tripleDigests) otherTriple →
        sampleTriple = otherTriple) ↔
      sampleTriple = otherTriple ∨ ¬ Confusable sampleTriple otherTriple :=
  (tms_keys_iff (tabledSha256 tripleDigests) (tabledSha256_injective isDigestTable_tripleDigests)
    codeUnitCompare).1 sampleTriple otherTriple ⟨by decide, by decide, by decide⟩
      ⟨by decide, by decide, by decide⟩

/-- Whatever the digest, a separator in an identifier lets two tenants share a key. -/
theorem tenants_share_key : ∃ t t' : TmsIdempotencyKeyInput, t.Plain ∧ t'.Plain ∧
    t.tenantId ≠ t'.tenantId ∧ ∀ sha256 : Bytes → JsString,
      computeTmsIdempotencyKey sha256 t = computeTmsIdempotencyKey sha256 t' := by
  have hplain : TmsIdempotencyKeyInput.Plain ⟨js "acme|eu", js "run-1", js "TC-1"⟩ :=
    ⟨by decide, by decide, by decide⟩
  have hplain' : TmsIdempotencyKeyInput.Plain ⟨js "acme", js "eu|run-1", js "TC-1"⟩ :=
    ⟨by decide, by decide, by decide⟩
  refine ⟨_, _, hplain, hplain', by decide, fun sha256 ↦ ?_⟩
  rw [computeTmsIdempotencyKey_eq hplain, computeTmsIdempotencyKey_eq hplain']
  congr 1

end TestIntelligence.Integrations
