import TestIntelligence.Review.HumanReviewQueue
import TestIntelligence.Security.Digests
import TestIntelligence.Systems.Runs

/-!
# Concurrent verdicts on the review queue

The file operations of any number of `recordVerdict` calls on one store, in any
order.  A call looks whether a verdict is recorded and writes its own some steps
later, through a temporary file that it shares with the calls of its process.
-/

namespace TestIntelligence.Review.HumanReviewQueue

open Js Security Systems

/-! ## The file operations of a call -/

/-- `<tenant>/queue/<item>.json`, `<tenant>/verdicts/<item>.json` and the latter
with the suffix `.<pid>.tmp`. -/
inductive StorePath
  | queueItem (tenantId itemId : JsString)
  | verdict (tenantId itemId : JsString)
  | verdictTemporary (tenantId itemId : JsString) (pid : ℕ)
  deriving DecidableEq

structure RecordCall where
  verdict : HumanReviewVerdict
  tenantId : JsString
  pid : ℕ

def RecordCall.itemPath (call : RecordCall) : StorePath :=
  .queueItem call.tenantId call.verdict.itemId

def RecordCall.target (call : RecordCall) : StorePath := .verdict call.tenantId call.verdict.itemId

def RecordCall.temporary (call : RecordCall) : StorePath :=
  .verdictTemporary call.tenantId call.verdict.itemId call.pid

/-- Where a call stands, named by the file operation that comes next. -/
inductive Phase
  | start
  | itemExists
  | readItem
  | targetExists (item : Json)
  | readTarget (item : Json)
  | writeTemporary (item : Json)
  | rename (item : Json)
  | returned (result : Except QueueFailure Json)

structure Store (ι : Type) where
  files : StorePath → Option JsString
  phase : ι → Phase

variable {κ ι : Type} [DecidableEq ι]

def Store.enter (s : Store ι) (i : ι) (phase : Phase) : Store ι :=
  { s with phase := Function.update s.phase i phase }

def Store.write (s : Store ι) (path : StorePath) (text : Option JsString) : Store ι :=
  { s with files := Function.update s.files path text }

/-- The next step of a call; the checks before the first file operation are one
step. -/
def step (keys : PublicKeys κ) (calls : ι → RecordCall) (s : Store ι) (i : ι) : Store ι :=
  let call := calls i
  match s.phase i with
  | .start =>
      match validateVerdict keys call.verdict call.tenantId with
      | .error failure => s.enter i (.returned (.error failure))
      | .ok () => s.enter i .itemExists
  | .itemExists =>
      match s.files call.itemPath with
      | none => s.enter i (.returned (.error (itemNotFound call.verdict call.tenantId)))
      | some _ => s.enter i .readItem
  | .readItem =>
      match s.files call.itemPath with
      | none => s.enter i (.returned (.error .missing))
      | some raw =>
          match parseQueueItem raw with
          | .error failure => s.enter i (.returned (.error failure))
          | .ok item => s.enter i (.targetExists item)
  | .targetExists item =>
      match s.files call.target with
      | none => s.enter i (.writeTemporary item)
      | some _ => s.enter i (.readTarget item)
  | .readTarget item =>
      match s.files call.target with
      | none => s.enter i (.returned (.error .missing))
      | some raw => s.enter i (.returned (compareRecorded raw call.verdict item))
  | .writeTemporary item => (s.write call.temporary (some call.verdict.text)).enter i (.rename item)
  | .rename item =>
      match s.files call.temporary with
      | none => s.enter i (.returned (.error .missing))
      | some content =>
          ((s.write call.temporary none).write call.target (some content)).enter i
            (.returned (.ok item))
  | .returned _ => s

def Store.begin (files : StorePath → Option JsString) : Store ι := ⟨files, fun _ ↦ .start⟩

/-! ## What is claimed of a state -/

/-- The canonical form in which a stored verdict is compared. -/
def canonicalText (raw : JsString) : Option JsString := (Json.parse raw).map canonicalJson

/-- The call passes every check before that of a recorded verdict. -/
def Accepted (keys : PublicKeys κ) (files : StorePath → Option JsString) (call : RecordCall) :
    Prop :=
  validateVerdict keys call.verdict call.tenantId = .ok () ∧
    ∃ raw item, files call.itemPath = some raw ∧ parseQueueItem raw = .ok item

/-- Where a call has succeeded, its verdict is stored, and the calls for the item
with another verdict write nothing and fail as already recorded. -/
def AppendOnly (keys : PublicKeys κ) (calls : ι → RecordCall) (s : Store ι) : Prop :=
  ∀ i item, s.phase i = .returned (.ok item) →
    (∃ raw, s.files (calls i).target = some raw ∧
      canonicalText raw = some (calls i).verdict.text) ∧
    ∀ j, (calls j).target = (calls i).target → (calls j).verdict.text ≠ (calls i).verdict.text →
      (step keys calls s j).files = s.files ∧
        ∀ result, s.phase j = .returned result → Accepted keys s.files (calls j) →
          result = .error (alreadyRecorded (calls j).verdict)

/-- The call found no verdict and has not renamed its own into place. -/
def Phase.isWriting : Phase → Bool
  | .writeTemporary _ => true
  | .rename _ => true
  | _ => false

def Phase.isChecking : Phase → Bool
  | .targetExists _ => true
  | _ => false

/-- A call passes its look for a recorded verdict only while the calls for the
item that are about to write carry the same verdict. -/
def NoRace (calls : ι → RecordCall) (s : Store ι) (i : ι) : Prop :=
  (s.phase i).isChecking = true → s.files (calls i).target = none →
    ∀ j, (calls j).target = (calls i).target → (s.phase j).isWriting = true →
      (calls j).verdict.text = (calls i).verdict.text

/-! ## Canonical texts -/

theorem keys_verdictFields (verdict : HumanReviewVerdict) : verdict.fields.map Prod.fst =
    ["signatureHex", "schemaVersion", "contractVersion", "itemId", "reviewerPrincipalHash",
      "verdict", "rationale", "revisedTestCase", "decidedAt", "publicKeyFingerprintSha256",
      "publicKeyPem"].map js := rfl

theorem ordered_verdict (verdict : HumanReviewVerdict) :
    (Json.obj (presentMembers verdict.fields)).Ordered := by
  apply ordered_presentMembers
  · rw [Enumerated, keys_verdictFields]
    decide
  · simpa [HumanReviewVerdict.fields, HumanReviewVerdict.bodyFields] using verdict.ordered

theorem exists_parse_text (verdict : HumanReviewVerdict) : ∃ value,
    Json.parse verdict.text = some value ∧ canonicalJson value = verdict.text := by
  have hparse := parse_canonicalJson_of_ordered (ordered_verdict verdict)
  exact ⟨_, hparse, canonicalJson_of_parse (ordered_verdict verdict) hparse⟩

theorem canonicalText_text (verdict : HumanReviewVerdict) :
    canonicalText verdict.text = some verdict.text := by
  obtain ⟨value, hparse, htext⟩ := exists_parse_text verdict
  rw [canonicalText, hparse, Option.map_some, htext]

/-! ## The invariant -/

/-- The queue items stay, and a stored verdict keeps its canonical form. -/
structure Keeps (files files' : StorePath → Option JsString) : Prop where
  items : ∀ tenantId itemId, files' (.queueItem tenantId itemId) = files (.queueItem tenantId itemId)
  verdicts : ∀ tenantId itemId raw, files (.verdict tenantId itemId) = some raw →
    ∃ raw', files' (.verdict tenantId itemId) = some raw' ∧ canonicalText raw' = canonicalText raw

/-- What the result of a call says about the files. -/
def Settled (keys : PublicKeys κ) (files : StorePath → Option JsString) (call : RecordCall) :
    Phase → Prop
  | .readTarget _ => ∃ raw, files call.target = some raw
  | .returned (.ok _) =>
      ∃ raw, files call.target = some raw ∧ canonicalText raw = some call.verdict.text
  | .returned (.error failure) => Accepted keys files call →
      failure = alreadyRecorded call.verdict ∨ ∃ raw, files call.target = some raw ∧
        (canonicalText raw = none ∨ canonicalText raw = some call.verdict.text)
  | _ => True

theorem Settled.mono {keys : PublicKeys κ} {files files' : StorePath → Option JsString}
    (hkeeps : Keeps files files') {call : RecordCall} {phase : Phase}
    (h : Settled keys files call phase) : Settled keys files' call phase := by
  cases phase with
  | start => trivial
  | itemExists => trivial
  | readItem => trivial
  | targetExists item => trivial
  | readTarget item =>
      obtain ⟨raw, hraw⟩ := h
      obtain ⟨raw', hraw', -⟩ := hkeeps.verdicts _ _ raw hraw
      exact ⟨raw', hraw'⟩
  | writeTemporary item => trivial
  | rename item => trivial
  | returned result =>
      cases result with
      | ok item =>
          obtain ⟨raw, hraw, htext⟩ := h
          obtain ⟨raw', hraw', hsame⟩ := hkeeps.verdicts _ _ raw hraw
          exact ⟨raw', hraw', hsame.trans htext⟩
      | error failure =>
          intro haccepted
          have hbefore : Accepted keys files call := by
            obtain ⟨hvalid, raw, item, hraw, hitem⟩ := haccepted
            exact ⟨hvalid, raw, item, (hkeeps.items _ _).symm.trans hraw, hitem⟩
          rcases h hbefore with hrecorded | ⟨raw, hraw, htext⟩
          · exact .inl hrecorded
          · obtain ⟨raw', hraw', hsame⟩ := hkeeps.verdicts _ _ raw hraw
            exact .inr ⟨raw', hraw', by rwa [hsame]⟩

/-- The verdict of the call is in its temporary file, or was moved from there into
place. -/
def Prepared (files : StorePath → Option JsString) (call : RecordCall) : Prop :=
  files call.temporary = some call.verdict.text ∨ (files call.temporary = none ∧
    ∃ raw, files call.target = some raw ∧ canonicalText raw = some call.verdict.text)

theorem Prepared.mono {files files' : StorePath → Option JsString} (hkeeps : Keeps files files')
    {call : RecordCall} (htemporary : files' call.temporary = files call.temporary)
    (h : Prepared files call) : Prepared files' call := by
  rcases h with hsome | ⟨hnone, raw, hraw, htext⟩
  · exact .inl (htemporary.trans hsome)
  · obtain ⟨raw', hraw', hsame⟩ := hkeeps.verdicts _ _ raw hraw
    exact .inr ⟨htemporary.trans hnone, raw', hraw', hsame.trans htext⟩

/-- The calls that are about to write a verdict for one item write the same one,
which is also the stored one. -/
structure Inv (keys : PublicKeys κ) (calls : ι → RecordCall) (s : Store ι) : Prop where
  writing : ∀ i j, (calls j).target = (calls i).target → (s.phase i).isWriting = true →
    (s.phase j).isWriting = true → (calls j).verdict.text = (calls i).verdict.text
  target : ∀ i raw, (s.phase i).isWriting = true → s.files (calls i).target = some raw →
    canonicalText raw = some (calls i).verdict.text
  prepared : ∀ i item, s.phase i = .rename item → Prepared s.files (calls i)
  settled : ∀ i, Settled keys s.files (calls i) (s.phase i)

omit [DecidableEq ι] in
theorem inv_begin (keys : PublicKeys κ) (calls : ι → RecordCall)
    (files : StorePath → Option JsString) : Inv keys calls (.begin files) :=
  ⟨nofun, nofun, nofun, fun _ ↦ trivial⟩

variable {keys : PublicKeys κ} {calls : ι → RecordCall} {s : Store ι} {i : ι}

/-- The call moves on and does not write. -/
theorem Inv.enter (h : Inv keys calls s) {phase : Phase} (hphase : phase.isWriting = false)
    (hsettled : Settled keys s.files (calls i) phase) : Inv keys calls (s.enter i phase) := by
  have hother : ∀ j, ((s.enter i phase).phase j).isWriting = true → j ≠ i := by
    rintro j hj rfl
    simp [Store.enter, hphase] at hj
  have hsame : ∀ j, j ≠ i → (s.enter i phase).phase j = s.phase j :=
    fun j hj ↦ Function.update_of_ne hj _ _
  refine ⟨fun j k htarget hj hk ↦ ?_, fun j raw hj hraw ↦ ?_, fun j item hj ↦ ?_,
    fun j ↦ ?_⟩
  · rw [hsame j (hother j hj)] at hj
    rw [hsame k (hother k hk)] at hk
    exact h.writing j k htarget hj hk
  · rw [hsame j (hother j hj)] at hj
    exact h.target j raw hj hraw
  · rw [hsame j (hother j (by rw [hj]; rfl))] at hj
    exact h.prepared j item hj
  · by_cases hji : j = i
    · subst hji
      simpa [Store.enter] using hsettled
    · rw [hsame j hji]
      exact h.settled j

/-- The call found no verdict. -/
theorem Inv.enterWriting (h : Inv keys calls s) {item : Json}
    (hchecking : (s.phase i).isChecking = true) (hnone : s.files (calls i).target = none)
    (hrace : NoRace calls s i) : Inv keys calls (s.enter i (.writeTemporary item)) := by
  have hjoins := hrace hchecking hnone
  have hsame : ∀ j, j ≠ i → (s.enter i (.writeTemporary item)).phase j = s.phase j :=
    fun j hj ↦ Function.update_of_ne hj _ _
  refine ⟨fun j k htarget hj hk ↦ ?_, fun j raw hj hraw ↦ ?_, fun j item' hj ↦ ?_,
    fun j ↦ ?_⟩
  · by_cases hji : j = i
    · by_cases hki : k = i
      · rw [hji, hki]
      · rw [hsame k hki] at hk
        rw [hji] at htarget ⊢
        exact hjoins k htarget hk
    · rw [hsame j hji] at hj
      by_cases hki : k = i
      · rw [hki] at htarget ⊢
        exact (hjoins j htarget.symm hj).symm
      · rw [hsame k hki] at hk
        exact h.writing j k htarget hj hk
  · by_cases hji : j = i
    · rw [hji] at hraw
      exact absurd (hnone.symm.trans hraw) nofun
    · rw [hsame j hji] at hj
      exact h.target j raw hj hraw
  · by_cases hji : j = i
    · subst hji
      simp [Store.enter] at hj
    · rw [hsame j hji] at hj
      exact h.prepared j item' hj
  · by_cases hji : j = i
    · subst hji
      simp [Store.enter, Settled]
    · rw [hsame j hji]
      exact h.settled j

theorem target_of_temporary {call call' : RecordCall} (h : call.temporary = call'.temporary) :
    call.target = call'.target := by
  simp only [RecordCall.temporary, StorePath.verdictTemporary.injEq] at h
  simp [RecordCall.target, h]

theorem Inv.writeTemporary (h : Inv keys calls s) {item : Json}
    (hphase : s.phase i = .writeTemporary item) :
    Inv keys calls ((s.write (calls i).temporary (some (calls i).verdict.text)).enter i
      (.rename item)) := by
  have hi : (s.phase i).isWriting = true := by rw [hphase]; rfl
  have hwriting : ∀ j, (Function.update s.phase i (.rename item) j).isWriting = true →
      (s.phase j).isWriting = true := by
    intro j hj
    by_cases hji : j = i
    · rw [hji]
      exact hi
    · rwa [Function.update_of_ne hji] at hj
  have hkeeps : Keeps s.files
      (Function.update s.files (calls i).temporary (some (calls i).verdict.text)) := by
    refine ⟨fun _ _ ↦ Function.update_of_ne (by simp [RecordCall.temporary]) _ _,
      fun _ _ raw hraw ↦ ⟨raw, ?_, rfl⟩⟩
    rwa [Function.update_of_ne (by simp [RecordCall.temporary])]
  refine ⟨fun j k htarget hj hk ↦ h.writing j k htarget (hwriting j hj) (hwriting k hk),
    fun j raw hj hraw ↦ ?_, fun j item' hj ↦ ?_, fun j ↦ ?_⟩
  · apply h.target j raw (hwriting j hj)
    simpa [Store.enter, Store.write, Function.update_of_ne, RecordCall.target,
      RecordCall.temporary] using hraw
  · have hj' : (s.phase j).isWriting = true := hwriting j (by
      rw [show Function.update s.phase i (.rename item) j = .rename item' from hj]
      rfl)
    by_cases htemporary : (calls j).temporary = (calls i).temporary
    · have htarget : (calls j).target = (calls i).target := target_of_temporary htemporary
      left
      rw [h.writing i j htarget hi hj', htemporary]
      exact Function.update_self ..
    · have hji : j ≠ i := fun heq ↦ htemporary (heq ▸ rfl)
      apply (h.prepared j item' _).mono hkeeps
      · exact Function.update_of_ne htemporary _ _
      · simpa [Store.enter, Store.write, Function.update_of_ne hji] using hj
  · by_cases hji : j = i
    · subst hji
      simp [Store.enter, Settled]
    · have hj := (h.settled j).mono hkeeps
      simpa [Store.enter, Store.write, Function.update_of_ne hji] using hj

theorem Inv.rename (h : Inv keys calls s) {item : Json} (hphase : s.phase i = .rename item)
    {content : JsString} (hcontent : s.files (calls i).temporary = some content) :
    Inv keys calls (((s.write (calls i).temporary none).write (calls i).target
      (some content)).enter i (.returned (.ok item))) := by
  have hi : (s.phase i).isWriting = true := by rw [hphase]; rfl
  obtain rfl : content = (calls i).verdict.text := by
    rcases h.prepared i item hphase with hsome | ⟨hnone, -⟩
    · exact Option.some.inj (hcontent.symm.trans hsome)
    · exact absurd (hnone.symm.trans hcontent) nofun
  set files' := Function.update (Function.update s.files (calls i).temporary none)
    (calls i).target (some (calls i).verdict.text) with hfiles'
  have hstored : files' (calls i).target = some (calls i).verdict.text := Function.update_self ..
  have hgone : files' (calls i).temporary = none := by
    rw [hfiles', Function.update_of_ne (by simp [RecordCall.target, RecordCall.temporary]),
      Function.update_self]
  have hframe : ∀ path, path ≠ (calls i).target → path ≠ (calls i).temporary →
      files' path = s.files path := by
    intro path htarget htemporary
    rw [hfiles', Function.update_of_ne htarget, Function.update_of_ne htemporary]
  have hkeeps : Keeps s.files files' := by
    constructor
    · exact fun _ _ ↦ hframe _ (by simp [RecordCall.target]) (by simp [RecordCall.temporary])
    · intro tenantId itemId raw hraw
      by_cases htarget : StorePath.verdict tenantId itemId = (calls i).target
      · rw [htarget] at hraw ⊢
        exact ⟨_, hstored, by rw [canonicalText_text, h.target i raw hi hraw]⟩
      · exact ⟨raw, (hframe _ htarget (by simp [RecordCall.temporary])).trans hraw, rfl⟩
  have hother : ∀ j, (Function.update s.phase i (.returned (.ok item)) j).isWriting = true →
      j ≠ i ∧ (s.phase j).isWriting = true := by
    intro j hj
    by_cases hji : j = i
    · rw [hji, Function.update_self] at hj
      cases hj
    · rw [Function.update_of_ne hji] at hj
      exact ⟨hji, hj⟩
  refine ⟨fun j k htarget hj hk ↦ h.writing j k htarget (hother j hj).2 (hother k hk).2,
    fun j raw hj hraw ↦ ?_, fun j item' hj ↦ ?_, fun j ↦ ?_⟩
  · have hwriting := (hother j hj).2
    by_cases htarget : (calls j).target = (calls i).target
    · have hsame : some (calls i).verdict.text = some raw := by
        rw [← hstored, ← htarget]
        exact hraw
      rw [← Option.some.inj hsame, canonicalText_text, h.writing i j htarget hi hwriting]
    · apply h.target j raw hwriting
      rw [← hframe _ htarget (by simp [RecordCall.target, RecordCall.temporary])]
      exact hraw
  · obtain ⟨hji, hwriting⟩ := hother j (by
      rw [show Function.update s.phase i (.returned (.ok item)) j = .rename item' from hj]
      rfl)
    by_cases htemporary : (calls j).temporary = (calls i).temporary
    · have htarget : (calls j).target = (calls i).target := target_of_temporary htemporary
      have hmoved : Prepared files' (calls j) := by
        refine .inr ⟨htemporary ▸ hgone, _, htarget ▸ hstored, ?_⟩
        rw [canonicalText_text, h.writing i j htarget hi hwriting]
      exact hmoved
    · apply (h.prepared j item' _).mono hkeeps
      · exact hframe _ (by simp [RecordCall.target, RecordCall.temporary]) htemporary
      · simpa [Store.enter, Store.write, Function.update_of_ne hji] using hj
  · by_cases hji : j = i
    · subst hji
      have hsettled : Settled keys files' (calls j) (.returned (.ok item)) :=
        ⟨_, hstored, canonicalText_text _⟩
      simpa [Store.enter, Store.write] using hsettled
    · have hj := (h.settled j).mono hkeeps
      simpa [Store.enter, Store.write, Function.update_of_ne hji] using hj

theorem settled_compareRecorded {files : StorePath → Option JsString} {call : RecordCall}
    {raw : JsString} (hraw : files call.target = some raw) (item : Json) :
    Settled keys files call (.returned (compareRecorded raw call.verdict item)) := by
  unfold compareRecorded
  cases hparse : Json.parse raw with
  | none => exact fun _ ↦ .inr ⟨raw, hraw, .inl (by rw [canonicalText, hparse]; rfl)⟩
  | some existing =>
      have htext : canonicalText raw = some (canonicalJson existing) := by
        rw [canonicalText, hparse]
        rfl
      by_cases hsame : canonicalJson existing = call.verdict.text
      · rw [hsame] at htext
        have hsettled : Settled keys files call (.returned (.ok item)) := ⟨raw, hraw, htext⟩
        simpa [hsame] using hsettled
      · have hrecorded : Settled keys files call
            (.returned (.error (alreadyRecorded call.verdict))) := fun _ ↦ .inl rfl
        simpa [hsame] using hrecorded

/-- One step of a call keeps the invariant. -/
theorem inv_step (h : Inv keys calls s) (hrace : NoRace calls s i) :
    Inv keys calls (step keys calls s i) := by
  have hsettled := h.settled i
  unfold step
  cases hphase : s.phase i with
  | start =>
      dsimp only
      cases hvalid : validateVerdict keys (calls i).verdict (calls i).tenantId with
      | error failure =>
          apply h.enter rfl
          rintro ⟨hok, -⟩
          rw [hvalid] at hok
          cases hok
      | ok _ => exact h.enter rfl trivial
  | itemExists =>
      dsimp only
      cases hfile : s.files (calls i).itemPath with
      | none =>
          apply h.enter rfl
          rintro ⟨-, raw, item, hraw, -⟩
          exact absurd (hfile.symm.trans hraw) nofun
      | some raw => exact h.enter rfl trivial
  | readItem =>
      dsimp only
      cases hfile : s.files (calls i).itemPath with
      | none =>
          apply h.enter rfl
          rintro ⟨-, raw, item, hraw, -⟩
          exact absurd (hfile.symm.trans hraw) nofun
      | some raw =>
          dsimp only
          cases hparse : parseQueueItem raw with
          | error failure =>
              apply h.enter rfl
              rintro ⟨-, raw', item, hraw, hitem⟩
              obtain rfl := Option.some.inj (hfile.symm.trans hraw)
              rw [hparse] at hitem
              cases hitem
          | ok item => exact h.enter rfl trivial
  | targetExists item =>
      dsimp only
      cases hfile : s.files (calls i).target with
      | none => exact h.enterWriting (by rw [hphase]; rfl) hfile hrace
      | some raw => exact h.enter rfl ⟨raw, hfile⟩
  | readTarget item =>
      rw [hphase] at hsettled
      obtain ⟨raw, hraw⟩ := hsettled
      simp only [hraw]
      exact h.enter rfl (settled_compareRecorded hraw item)
  | writeTemporary item => exact h.writeTemporary hphase
  | rename item =>
      dsimp only
      cases hfile : s.files (calls i).temporary with
      | none =>
          apply h.enter rfl
          intro _
          rcases h.prepared i item hphase with hsome | ⟨-, raw, hraw, htext⟩
          · exact absurd (hfile.symm.trans hsome) nofun
          · exact .inr ⟨raw, hraw, .inr htext⟩
      | some content => exact h.rename hphase hfile
  | returned result => exact h

/-! ## The verdicts of a run -/

theorem files_step_of_not_writing (keys : PublicKeys κ) (calls : ι → RecordCall)
    (h : (s.phase i).isWriting = false) : (step keys calls s i).files = s.files := by
  unfold step
  cases hphase : s.phase i with
  | start => dsimp only; split <;> rfl
  | itemExists => dsimp only; split <;> rfl
  | readItem =>
      dsimp only
      split
      · rfl
      · split <;> rfl
  | targetExists item => dsimp only; split <;> rfl
  | readTarget item => dsimp only; split <;> rfl
  | writeTemporary item => simp [hphase, Phase.isWriting] at h
  | rename item => simp [hphase, Phase.isWriting] at h
  | returned result => rfl

theorem Inv.appendOnly (h : Inv keys calls s) : AppendOnly keys calls s := by
  intro i item hphase
  have hsettled := h.settled i
  rw [hphase] at hsettled
  obtain ⟨raw, hraw, htext⟩ := hsettled
  refine ⟨⟨raw, hraw, htext⟩, fun j htarget hdifferent ↦ ?_⟩
  have hstored : ∀ raw', s.files (calls j).target = some raw' →
      canonicalText raw' ≠ some (calls j).verdict.text ∧ canonicalText raw' ≠ none := by
    intro raw' hraw'
    rw [htarget, hraw] at hraw'
    rw [← Option.some.inj hraw', htext]
    exact ⟨fun heq ↦ hdifferent (Option.some.inj heq).symm, nofun⟩
  constructor
  · apply files_step_of_not_writing
    by_contra hwriting
    exact (hstored raw (htarget ▸ hraw)).1 (h.target j raw (by simpa using hwriting) (htarget ▸ hraw))
  · intro result hresult haccepted
    have hj := h.settled j
    rw [hresult] at hj
    cases result with
    | ok item' =>
        obtain ⟨raw', hraw', htext'⟩ := hj
        exact absurd htext' (hstored raw' hraw').1
    | error failure =>
        rcases hj haccepted with rfl | ⟨raw', hraw', hnone | hsame⟩
        · rfl
        · exact absurd hnone (hstored raw' hraw').2
        · exact absurd hsame (hstored raw' hraw').1

/-- Where no call passes its look for a recorded verdict while another verdict for
the item is about to be written, recorded verdicts are append-only. -/
theorem appendOnly_of_noRace (keys : PublicKeys κ) (calls : ι → RecordCall)
    (files : StorePath → Option JsString) {order : List ι}
    (hrace : MeetsAlong (step keys calls) (NoRace calls) (.begin files) order) :
    Always (step keys calls) (AppendOnly keys calls) (.begin files) order := by
  have hstep : ∀ (s : Store ι) (i : ι), True → NoRace calls s i → Inv keys calls s →
      Inv keys calls (step keys calls s i) := fun _ _ _ hrace h ↦ inv_step h hrace
  have hinv : Always (step keys calls) (Inv keys calls) (.begin files) order :=
    always_of_meetsAlong hstep (inv_begin keys calls files) (fun _ _ ↦ trivial) hrace
  exact fun done hdone ↦ (hinv done hdone).appendOnly

/-! ## Calls one after the other -/

theorem phase_step_of_ne (keys : PublicKeys κ) (calls : ι → RecordCall) {j : ι} (hji : j ≠ i) :
    (step keys calls s i).phase j = s.phase j := by
  unfold step
  cases hphase : s.phase i with
  | returned result => rfl
  | writeTemporary item => exact Function.update_of_ne hji _ _
  | readItem =>
      dsimp only
      split
      · exact Function.update_of_ne hji _ _
      · split <;> exact Function.update_of_ne hji _ _
  | _ => dsimp only; split <;> exact Function.update_of_ne hji _ _

theorem noRace_of_quiet (calls : ι → RecordCall)
    (hquiet : ∀ j, j ≠ i → (s.phase j).isWriting = false) : NoRace calls s i := by
  intro _ _ j _ hwriting
  by_cases hji : j = i
  · rw [hji]
  · rw [hquiet j hji] at hwriting
    cases hwriting

/-- A call that runs while no other is about to write does not race. -/
theorem meetsAlong_replicate (keys : PublicKeys κ) (calls : ι → RecordCall)
    (hquiet : ∀ j, j ≠ i → (s.phase j).isWriting = false) (n : ℕ) :
    MeetsAlong (step keys calls) (NoRace calls) s (List.replicate n i) := by
  induction n generalizing s with
  | zero => trivial
  | succ n ih =>
      refine ⟨noRace_of_quiet calls hquiet, ih fun j hji ↦ ?_⟩
      rw [phase_step_of_ne keys calls hji]
      exact hquiet j hji

/-! ## Two reviewers -/

def reviewerPem : Bool → JsString
  | false => js "-----BEGIN PUBLIC KEY-----\nMCowBQYDK2VwAyEAWUqqoUXOwqP5nTEMpSAR0gF5uXaZaJkB/E" ++
    js "wd9e+tAnM=\n-----END PUBLIC KEY-----\n"
  | true => js "-----BEGIN PUBLIC KEY-----\nMCowBQYDK2VwAyEAWD2lGFJo11xyV55RqyjSQ/b6vofZX2BDU/" ++
    js "m6LFZTW+8=\n-----END PUBLIC KEY-----\n"

def reviewerFingerprint : Bool → JsString
  | false => hexText 64 0xa0d6e7e5c412564ecaceeb4cfb01a010dbe69d8c0f0b4dd34dc2a239f3b025a6
  | true => hexText 64 0x32ed8e27bcdac289f28baa97c16a8aea9793897ef09d76fb36429143bb4a66c3

def reviewerSignature : Bool → JsString
  | false => hexText 64 0x9cc49263d579049a4fe099e52e23f16690b93a32f7d027846e97f08510762faf ++
      hexText 64 0xd0102557888c962118b8b13ac04c83f3b0b3e28391820d19cf674d7424a4d204
  | true => hexText 64 0xa08af5339aac849eaea43b73cfa447427a6aa1ab2746b999d163df3b186c842b ++
      hexText 64 0x2a8fb7b405aff4658afce4383e4c4aafe773b0e310a3d5b134ad280c70a3f207

def reviewerVerdict (reviewer : Bool) : HumanReviewVerdict where
  schemaVersion := verdictSchemaVersion
  contractVersion := Review.HumanReviewQueue.contractVersion
  itemId := js "item-1"
  reviewerPrincipalHash := hexText 64
    (if reviewer then 0x81b637d8fcd2c6da6359e6963113a1170de795e4b725b84d1e0b4cfd9ec58ce9
      else 0x2bd806c97f0e00af1a1fc3328fa763a9269723c8db8fac4f93af71db186d6e90)
  verdict := if reviewer then VerdictLabel.rejected.text else VerdictLabel.approved.text
  rationale := if reviewer then js "misses the limit" else js "covers the rule"
  revisedTestCase := none
  decidedAt := js "2026-01-05T10:00:00Z"
  signatureHex := reviewerSignature reviewer
  publicKeyFingerprintSha256 := reviewerFingerprint reviewer
  publicKeyPem := reviewerPem reviewer
  ordered := nofun

/-- What `node:crypto` does with the keys of the two reviewers, each of whom signed
their own verdict. -/
def reviewerKeys : PublicKeys Bool where
  createPublicKey pem :=
    if pem = reviewerPem false then .ok false
    else if pem = reviewerPem true then .ok true
    else .error (js "error:1E08010C:DECODER routines::unsupported")
  asymmetricKeyType _ := js "ed25519"
  spkiSha256 := reviewerFingerprint
  verify text reviewer signature :=
    text == verdictBodyForSigning (reviewerVerdict reviewer) &&
      signature == reviewerSignature reviewer

def reviewerCall (reviewer : Bool) : RecordCall where
  verdict := reviewerVerdict reviewer
  tenantId := js "tenant-1"
  pid := if reviewer then 42 else 41

def pendingItem : JsString := canonicalJson (.obj
  [(js "schemaVersion", .str queueItemSchemaVersion), (js "contractVersion", .str contractVersion),
    (js "itemId", .str (js "item-1")), (js "tenantId", .str (js "tenant-1")),
    (js "profileId", .str (js "p1")), (js "runId", .str (js "r1")),
    (js "testCaseId", .str (js "tc-1")), (js "enqueuedAt", .str (js "2026-01-05T09:00:00Z")),
    (js "slaDeadlineAt", .str (js "2026-01-06T09:00:00Z")),
    (js "proposedDecision", .str (js "needs_review")),
    (js "judgeDisagreement", .obj [(js "disagreementRate", .num 1), (js "judges", .arr [])])])

/-- The store of a tenant with one pending item. -/
def pendingStore (path : StorePath) : Option JsString :=
  if path = .queueItem (js "tenant-1") (js "item-1") then some pendingItem else none

/-- Both reviewers look before either writes. -/
def raceForItem : List Bool :=
  List.replicate 4 false ++ List.replicate 4 true ++ List.replicate 2 false ++ List.replicate 2 true

section

variable {κ ι : Type} [DecidableEq ι] {keys : PublicKeys κ} {calls : ι → RecordCall}
  {s : Store ι} {i : ι} {item : Json}

/-- Four steps of an accepted call that finds no verdict. -/
theorem run_look (hstart : s.phase i = .start)
    (hvalid : validateVerdict keys (calls i).verdict (calls i).tenantId = .ok ()) {raw : JsString}
    (hraw : s.files (calls i).itemPath = some raw) (hitem : parseQueueItem raw = .ok item)
    (hnone : s.files (calls i).target = none) :
    run (step keys calls) s (List.replicate 4 i) = s.enter i (.writeTemporary item) := by
  have hvalidated : step keys calls s i = s.enter i .itemExists := by simp [step, hstart, hvalid]
  have hexists : step keys calls (s.enter i .itemExists) i = s.enter i .readItem := by
    simp [step, Store.enter, hraw]
  have hread : step keys calls (s.enter i .readItem) i = s.enter i (.targetExists item) := by
    simp [step, Store.enter, hraw, hitem]
  have hlook : step keys calls (s.enter i (.targetExists item)) i =
      s.enter i (.writeTemporary item) := by
    simp [step, Store.enter, hnone]
  simp only [List.replicate_succ, List.replicate_zero, run_cons, hvalidated, hexists, hread, hlook]
  rfl

/-- The two steps that publish a verdict. -/
theorem run_publish (hwriting : s.phase i = .writeTemporary item) :
    run (step keys calls) s (List.replicate 2 i) =
      ((s.write (calls i).temporary none).write (calls i).target
        (some (calls i).verdict.text)).enter i (.returned (.ok item)) := by
  simp [List.replicate_succ, run, step, hwriting, Store.enter, Store.write]

theorem files_enter_write {path : StorePath} {text : Option JsString} {phase : Phase} :
    ((s.write path text).enter i phase).files path = text :=
  Function.update_self (β := fun _ ↦ Option JsString) path text s.files

end

theorem accepted_reviewerCall (reviewer : Bool) :
    validateVerdict reviewerKeys (reviewerVerdict reviewer) (js "tenant-1") = .ok () := by
  cases reviewer with
  | false => decide +kernel
  | true => decide +kernel

theorem exists_pendingItem : ∃ item, parseQueueItem pendingItem = .ok item := by
  have hparsed : (parseQueueItem pendingItem).toOption.isSome = true := by decide +kernel
  cases hitem : parseQueueItem pendingItem with
  | ok item => exact ⟨item, rfl⟩
  | error failure => simp [hitem, Except.toOption] at hparsed

theorem itemPath_reviewerCall (reviewer : Bool) :
    pendingStore (reviewerCall reviewer).itemPath = some pendingItem := if_pos rfl

theorem reviewerCall_target (reviewer : Bool) :
    (reviewerCall reviewer).target = .verdict (js "tenant-1") (js "item-1") := rfl

theorem target_reviewerCall (reviewer : Bool) :
    pendingStore (reviewerCall reviewer).target = none := if_neg nofun

/-- The state after the first reviewer has looked. -/
theorem run_look_first {item : Json} (hitem : parseQueueItem pendingItem = .ok item) :
    run (step reviewerKeys reviewerCall) (.begin pendingStore) (List.replicate 4 false) =
      (Store.begin pendingStore).enter false (.writeTemporary item) :=
  run_look rfl (accepted_reviewerCall false) (itemPath_reviewerCall false) hitem
    (target_reviewerCall false)

theorem appendOnly_lost_in_race :
    ¬ Always (step reviewerKeys reviewerCall) (AppendOnly reviewerKeys reviewerCall)
      (.begin pendingStore) raceForItem := by
  intro halways
  obtain ⟨item, hitem⟩ := exists_pendingItem
  have hdifferent : (reviewerVerdict true).text ≠ (reviewerVerdict false).text := by
    decide +kernel
  have hlook : run (step reviewerKeys reviewerCall)
      ((Store.begin pendingStore).enter false (.writeTemporary item)) (List.replicate 4 true) =
        ((Store.begin pendingStore).enter false (.writeTemporary item)).enter true
          (.writeTemporary item) :=
    run_look rfl (accepted_reviewerCall true) (itemPath_reviewerCall true) hitem
      (target_reviewerCall true)
  have hrun : run (step reviewerKeys reviewerCall) (.begin pendingStore) raceForItem =
      run (step reviewerKeys reviewerCall) (run (step reviewerKeys reviewerCall)
        (run (step reviewerKeys reviewerCall) (run (step reviewerKeys reviewerCall)
          (.begin pendingStore) (List.replicate 4 false)) (List.replicate 4 true))
            (List.replicate 2 false)) (List.replicate 2 true) := by
    rw [raceForItem, run_append, run_append, run_append]
  rw [run_look_first hitem, hlook, run_publish rfl, run_publish rfl] at hrun
  obtain ⟨⟨raw, hraw, htext⟩, -⟩ := halways _ List.prefix_rfl false item (by rw [hrun]; rfl)
  have hlost : (run (step reviewerKeys reviewerCall) (.begin pendingStore) raceForItem).files
      (reviewerCall false).target = some (reviewerVerdict true).text := by
    rw [hrun, reviewerCall_target, ← reviewerCall_target true]
    exact files_enter_write
  rw [hlost] at hraw
  rw [← Option.some.inj hraw, canonicalText_text] at htext
  exact hdifferent (Option.some.inj htext)

/-- The second reviewer finds the verdict of the first. -/
def decideInTurn : List Bool := List.replicate 6 false ++ List.replicate 5 true

theorem appendOnly_decideInTurn :
    Always (step reviewerKeys reviewerCall) (AppendOnly reviewerKeys reviewerCall)
      (.begin pendingStore) decideInTurn := by
  have hdecided : ((run (step reviewerKeys reviewerCall) (.begin pendingStore)
      (List.replicate 6 false)).phase false).isWriting = false := by
    obtain ⟨item, hitem⟩ := exists_pendingItem
    rw [show 6 = 4 + 2 from rfl, List.replicate_add, run_append, run_look_first hitem,
      run_publish rfl]
    rfl
  apply appendOnly_of_noRace
  rw [decideInTurn, meetsAlong_append]
  refine ⟨meetsAlong_replicate _ _ (fun _ _ ↦ rfl) _, meetsAlong_replicate _ _ ?_ _⟩
  intro j hj
  obtain rfl := (Bool.not_eq_true j).mp hj
  exact hdecided

end TestIntelligence.Review.HumanReviewQueue
