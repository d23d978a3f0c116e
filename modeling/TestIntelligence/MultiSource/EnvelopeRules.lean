import TestIntelligence.MultiSource.Envelope

/-!
# The rules of the envelope

What the validator asks of an envelope, stated on the envelope itself, and the proof
that it accepts exactly the candidates that say such an envelope.
-/

namespace TestIntelligence.MultiSource

open Js Security

/-! ## Texts of the enumerations -/

@[simp] theorem TestIntentSourceKind.ofText_text (kind : TestIntentSourceKind) :
    ofText kind.text = some kind := by
  cases kind <;> decide

@[simp] theorem ConflictResolutionPolicy.ofText_text (policy : ConflictResolutionPolicy) :
    ofText policy.text = some policy := by
  cases policy <;> decide

@[simp] theorem TestIntentCustomInputFormat.ofText_text (format : TestIntentCustomInputFormat) :
    ofText format.text = some format := by
  cases format <;> decide

theorem TestIntentSourceKind.text_of_ofText {s : JsString} {kind : TestIntentSourceKind}
    (h : ofText s = some kind) : kind.text = s := by
  have hfound := List.find?_some h
  simpa only [decide_eq_true_eq] using hfound

theorem ConflictResolutionPolicy.text_of_ofText {s : JsString} {policy : ConflictResolutionPolicy}
    (h : ofText s = some policy) : policy.text = s := by
  have hfound := List.find?_some h
  simpa only [decide_eq_true_eq] using hfound

theorem TestIntentCustomInputFormat.text_of_ofText {s : JsString}
    {format : TestIntentCustomInputFormat} (h : ofText s = some format) : format.text = s := by
  have hfound := List.find?_some h
  simpa only [decide_eq_true_eq] using hfound

theorem TestIntentSourceKind.text_injective : Function.Injective TestIntentSourceKind.text := by
  intro kind kind' h
  have hread := TestIntentSourceKind.ofText_text kind
  rw [h, TestIntentSourceKind.ofText_text] at hread
  exact (Option.some.inj hread).symm

theorem ConflictResolutionPolicy.text_injective :
    Function.Injective ConflictResolutionPolicy.text := by
  intro policy policy' h
  have hread := ConflictResolutionPolicy.ofText_text policy
  rw [h, ConflictResolutionPolicy.ofText_text] at hread
  exact (Option.some.inj hread).symm

/-! ## The rules -/

/-- Both Markdown hashes are there. -/
def TestIntentSourceRef.HasMarkdownHashes (ref : TestIntentSourceRef) : Prop :=
  (∃ hash, ref.redactedMarkdownHash = some hash ∧ isHexOfLength 64 hash = true) ∧
    ∃ hash, ref.plainTextDerivativeHash = some hash ∧ isHexOfLength 64 hash = true

/-- Nothing about Markdown is there. -/
structure TestIntentSourceRef.WithoutMarkdown (ref : TestIntentSourceRef) : Prop where
  sectionPath : ref.markdownSectionPath = none
  noteEntry : ref.noteEntryId = none
  redactedHash : ref.redactedMarkdownHash = none
  plainTextHash : ref.plainTextDerivativeHash = none

/-- The format and the Markdown fields fit the kind. -/
def TestIntentSourceRef.ContentRules (ref : TestIntentSourceRef) : Prop :=
  if ref.kind.isSupporting then
    if ref.kind = .customMarkdown then ref.inputFormat = none ∧ ref.HasMarkdownHashes
    else ∃ format, ref.inputFormat = some format ∧
      if format = .markdown then ref.HasMarkdownHashes else ref.WithoutMarkdown
  else ref.inputFormat = none ∧ ref.WithoutMarkdown

structure TestIntentSourceRef.Rules (ref : TestIntentSourceRef) : Prop where
  sourceId : isSourceId ref.sourceId = true
  contentHash : isHexOfLength 64 ref.contentHash = true
  capturedAt : isStrictIsoUtc ref.capturedAt = true
  authorHandle : ∀ handle ∈ ref.authorHandle, isSourceId handle = true
  content : ref.ContentRules
  issueKey : ∀ key ∈ ref.canonicalIssueKey, ref.kind.isJira = true ∧ isJiraIssueKey key = true

/-- A priority order lists the kinds of the sources, each once. -/
def CoversKinds (order : List TestIntentSourceKind) (sources : List TestIntentSourceRef) : Prop :=
  order.Nodup ∧ ∀ kind, kind ∈ order ↔ ∃ ref ∈ sources, ref.kind = kind

structure SourcesRules (sources : List TestIntentSourceRef) : Prop where
  primary : ∃ ref ∈ sources, ref.kind.isPrimary = true
  each : ∀ ref ∈ sources, ref.Rules
  sourceIds : (sources.map (·.sourceId)).Nodup
  issueKeys : (sources.filterMap (·.canonicalIssueKey)).Nodup

/-- The order is there exactly under the policy that reads it. -/
def OrderRules (policy : ConflictResolutionPolicy) (order : Option (List TestIntentSourceKind))
    (sources : List TestIntentSourceRef) : Prop :=
  if policy = .priority then ∃ kinds, order = some kinds ∧ CoversKinds kinds sources
  else order = none

structure MultiSourceTestIntentEnvelope.Rules (sha256 : Bytes → JsString)
    (envelope : MultiSourceTestIntentEnvelope) : Prop where
  sources : SourcesRules envelope.sources
  order : OrderRules envelope.conflictResolutionPolicy envelope.priorityOrder envelope.sources
  plan : ∀ plan ∈ envelope.sourceMixPlan, isValidSourceMixPlan plan = true
  hash : envelope.aggregateContentHash = computeAggregateContentHash sha256 envelope.sources
    envelope.conflictResolutionPolicy envelope.priorityOrder

/-! ## Single checks -/

theorem refuseUnless_eq_nil {ok : Bool} {code : MultiSourceEnvelopeRefusalCode} {path : JsString}
    {detail : Option JsString} : refuseUnless ok code path detail = [] ↔ ok = true := by
  cases ok <;> simp [refuseUnless]

theorem textOf_eq_some {value : Option Json} {s : JsString} :
    textOf value = some s ↔ value = some (.str s) := by
  rcases value with _ | (_ | _ | _ | _ | _ | _) <;> simp [textOf]

@[simp] theorem textOf_str (s : JsString) : textOf (some (.str s)) = some s := rfl

@[simp] theorem textOf_none : textOf none = none := rfl

@[simp] theorem textOf_map_str (s : Option JsString) : textOf (s.map .str) = s := by
  cases s with
  | none => rfl
  | some s => rfl

@[simp] theorem formatOf_map_text (format : Option TestIntentCustomInputFormat) :
    formatOf (format.map (.str ·.text)) = format := by
  cases format with
  | none => rfl
  | some format => exact TestIntentCustomInputFormat.ofText_text format

theorem isTextWith_iff {test : JsString → Bool} {value : Option Json} :
    isTextWith test value = true ↔ ∃ s, value = some (.str s) ∧ test s = true := by
  constructor
  · exact isTextWith_eq_true
  · rintro ⟨s, rfl, hs⟩
    exact hs

theorem kindOf_eq_some {value : Option Json} {kind : TestIntentSourceKind} :
    kindOf value = some kind ↔ value = some (.str kind.text) := by
  rw [kindOf, Option.bind_eq_some_iff]
  constructor
  · rintro ⟨s, hs, hkind⟩
    rw [TestIntentSourceKind.text_of_ofText hkind]
    exact textOf_eq_some.mp hs
  · rintro rfl
    exact ⟨kind.text, rfl, kind.ofText_text⟩

section

variable {ref : List (JsString × Json)} {index : ℕ} {name : String}
  {test : JsString → Bool} {code : MultiSourceEnvelopeRefusalCode} {detail : Option JsString}

theorem requireText_eq_nil :
    requireText ref index name test code = [] ↔
      ∃ s, mapGet ref (js name) = some (.str s) ∧ test s = true :=
  refuseUnless_eq_nil.trans isTextWith_iff

theorem requireAbsent_eq_nil :
    requireAbsent ref index name code detail = [] ↔ mapGet ref (js name) = none :=
  refuseUnless_eq_nil.trans Option.isNone_iff_eq_none

theorem requireTextIfPresent_eq_nil :
    requireTextIfPresent ref index name test code = [] ↔
      mapGet ref (js name) = none ∨
        ∃ s, mapGet ref (js name) = some (.str s) ∧ test s = true := by
  rw [requireTextIfPresent]
  split
  · next h =>
      rw [requireText_eq_nil]
      constructor
      · exact Or.inr
      · rintro (hnone | htext)
        · simp [hnone] at h
        · exact htext
  · next h =>
      simp only [Bool.not_eq_true, Option.isSome_eq_false_iff, Option.isNone_iff_eq_none] at h
      simp [h]

theorem requireMarkdownHashes_eq_nil :
    requireMarkdownHashes ref index = [] ↔
      (∃ hash, mapGet ref (js "redactedMarkdownHash") = some (.str hash) ∧
        isHexOfLength 64 hash = true) ∧
      ∃ hash, mapGet ref (js "plainTextDerivativeHash") = some (.str hash) ∧
        isHexOfLength 64 hash = true := by
  rw [requireMarkdownHashes, List.append_eq_nil_iff, requireText_eq_nil, requireText_eq_nil]

theorem refuseMarkdown_eq_nil :
    refuseMarkdown ref index detail = [] ↔
      mapGet ref (js "markdownSectionPath") = none ∧ mapGet ref (js "noteEntryId") = none ∧
        mapGet ref (js "redactedMarkdownHash") = none ∧
          mapGet ref (js "plainTextDerivativeHash") = none := by
  simp only [refuseMarkdown, List.append_eq_nil_iff, requireAbsent_eq_nil, and_assoc]

theorem validateInputFormat_eq_nil :
    validateInputFormat ref index = [] ↔
      ∃ format : TestIntentCustomInputFormat,
        mapGet ref (js "inputFormat") = some (.str format.text) := by
  rw [validateInputFormat]
  split
  · next h =>
      rw [Option.isNone_iff_eq_none] at h
      simp [h]
  · rw [requireText_eq_nil]
    constructor
    · rintro ⟨s, hs, hformat⟩
      obtain ⟨format, hformat⟩ := Option.isSome_iff_exists.mp hformat
      exact ⟨format, by rw [TestIntentCustomInputFormat.text_of_ofText hformat, hs]⟩
    · rintro ⟨format, hformat⟩
      exact ⟨_, hformat, by simp⟩

end

/-! ## One source -/

/-- Every field of a source reads back from its JSON value. -/
theorem TestIntentSourceRef.mapGet_fields (ref : TestIntentSourceRef) :
    ∀ field ∈ ref.fields, mapGet (presentMembers ref.fields) field.1 = field.2 := by
  have hkeys : (ref.fields.map Prod.fst).Nodup := by
    change (List.map js ["sourceId", "kind", "contentHash", "capturedAt", "authorHandle",
      "inputFormat", "noteEntryId", "markdownSectionPath", "canonicalIssueKey",
      "redactedMarkdownHash", "plainTextDerivativeHash"]).Nodup
    decide
  intro field hfield
  rw [mapGet_presentMembers hkeys, mapGet_eq_some_of_mem hkeys hfield, Option.join_some]

/-- The members say the fields of the source, each under its key. -/
def Says (members : List (JsString × Json)) (ref : TestIntentSourceRef) : Prop :=
  ∀ field ∈ ref.fields, mapGet members field.1 = field.2

section

variable {members : List (JsString × Json)} {ref : TestIntentSourceRef} {index : ℕ}

theorem acceptedSourceRef_of_says (h : Says members ref) : acceptedSourceRef members = some ref := by
  simp only [Says, TestIntentSourceRef.fields, List.forall_mem_cons] at h
  obtain ⟨hid, hkind, hhash, htime, hauthor, hformat, hnote, hpath, hkey, hredacted, hplain, -⟩ := h
  simp only [acceptedSourceRef, hid, hkind, hhash, htime, hauthor, hformat, hnote, hpath, hkey,
    hredacted, hplain, textOf_map_str, formatOf_map_text, textOf_str,
    kindOf_eq_some.mpr rfl, Option.pure_def, Option.bind_eq_bind, Option.bind_some]

theorem validateContentFields_of_says (h : Says members ref) (hrules : ref.ContentRules) :
    validateContentFields members index ref.kind = [] := by
  simp only [Says, TestIntentSourceRef.fields, List.forall_mem_cons] at h
  obtain ⟨-, -, -, -, -, hformat, hnote, hpath, -, hredacted, hplain, -⟩ := h
  have hhashes : ref.HasMarkdownHashes → requireMarkdownHashes members index = [] := by
    rintro ⟨⟨hash, hhash, hhex⟩, ⟨hash', hhash', hhex'⟩⟩
    rw [requireMarkdownHashes_eq_nil, hredacted, hplain, hhash, hhash']
    exact ⟨⟨hash, rfl, hhex⟩, ⟨hash', rfl, hhex'⟩⟩
  have hwithout : ref.WithoutMarkdown → ∀ detail, refuseMarkdown members index detail = [] := by
    intro hnone detail
    rw [refuseMarkdown_eq_nil, hpath, hnote, hredacted, hplain, hnone.sectionPath, hnone.noteEntry,
      hnone.redactedHash, hnone.plainTextHash]
    exact ⟨rfl, rfl, rfl, rfl⟩
  rw [TestIntentSourceRef.ContentRules] at hrules
  rw [validateContentFields]
  split at hrules
  · next hsupporting =>
      rw [if_pos hsupporting]
      split at hrules
      · next hmarkdown =>
          obtain ⟨hnone, hrules⟩ := hrules
          rw [if_pos hmarkdown, List.append_eq_nil_iff, requireAbsent_eq_nil, hformat, hnone]
          exact ⟨rfl, hhashes hrules⟩
      · next hmarkdown =>
          obtain ⟨format, hsome, hrules⟩ := hrules
          rw [hsome] at hformat
          rw [if_neg hmarkdown, List.append_eq_nil_iff, validateInputFormat_eq_nil]
          refine ⟨⟨format, hformat⟩, ?_⟩
          have htest : isTextWith (· == js "markdown") (mapGet members (js "inputFormat")) =
              decide (format = .markdown) := by
            rw [hformat]
            cases format <;> decide
          rw [htest]
          split at hrules
          · next hformat => simpa [hformat] using hhashes hrules
          · next hformat => simpa [hformat] using hwithout hrules _
  · next hsupporting =>
      rw [if_neg hsupporting, List.append_eq_nil_iff, requireAbsent_eq_nil, hformat, hrules.1]
      exact ⟨rfl, hwithout hrules.2 none⟩

theorem validateSourceRef_of_says (h : Says members ref) (hrules : ref.Rules) :
    validateSourceRef members index = [] := by
  have hcontent : validateContentFields members index ref.kind = [] :=
    validateContentFields_of_says h hrules.content
  simp only [Says, TestIntentSourceRef.fields, List.forall_mem_cons] at h
  obtain ⟨hid, hkind, hhash, htime, hauthor, -, -, -, hkey, -⟩ := h
  have hissueKey : validateIssueKey members index ref.kind = [] := by
    rw [validateIssueKey]
    cases hsome : ref.canonicalIssueKey with
    | none =>
        rw [hsome] at hkey
        split
        · exact requireTextIfPresent_eq_nil.mpr (Or.inl hkey)
        · exact requireAbsent_eq_nil.mpr hkey
    | some key =>
        rw [hsome] at hkey
        obtain ⟨hjira, hform⟩ := hrules.issueKey key hsome
        rw [if_pos hjira, requireTextIfPresent_eq_nil]
        exact Or.inr ⟨key, hkey, hform⟩
  have hauthorHandle : requireTextIfPresent members index "authorHandle" isSourceId
      .invalidAuthorHandle = [] := by
    rw [requireTextIfPresent_eq_nil, hauthor]
    cases hsome : ref.authorHandle with
    | none => exact Or.inl rfl
    | some handle => exact Or.inr ⟨handle, rfl, hrules.authorHandle handle hsome⟩
  simp only [validateSourceRef, List.append_eq_nil_iff, requireText_eq_nil]
  refine ⟨⟨⟨⟨⟨⟨_, hid, hrules.sourceId⟩, ⟨_, hkind, by simp⟩⟩, ⟨_, hhash, hrules.contentHash⟩⟩,
    ⟨_, htime, hrules.capturedAt⟩⟩, hauthorHandle⟩, ?_⟩
  rw [kindOf_eq_some.mpr hkind]
  exact List.append_eq_nil_iff.mpr ⟨hcontent, hissueKey⟩

/-- The fields of a source are the texts of the members. -/
structure ReadFrom (members : List (JsString × Json)) (ref : TestIntentSourceRef) : Prop where
  authorHandle : ref.authorHandle = textOf (mapGet members (js "authorHandle"))
  inputFormat : ref.inputFormat = formatOf (mapGet members (js "inputFormat"))
  noteEntryId : ref.noteEntryId = textOf (mapGet members (js "noteEntryId"))
  markdownSectionPath : ref.markdownSectionPath = textOf (mapGet members (js "markdownSectionPath"))
  canonicalIssueKey : ref.canonicalIssueKey = textOf (mapGet members (js "canonicalIssueKey"))
  redactedMarkdownHash :
    ref.redactedMarkdownHash = textOf (mapGet members (js "redactedMarkdownHash"))
  plainTextDerivativeHash :
    ref.plainTextDerivativeHash = textOf (mapGet members (js "plainTextDerivativeHash"))

theorem ReadFrom.hasMarkdownHashes (hread : ReadFrom members ref)
    (h : requireMarkdownHashes members index = []) : ref.HasMarkdownHashes := by
  obtain ⟨⟨hash, hhash, hhex⟩, ⟨hash', hhash', hhex'⟩⟩ := requireMarkdownHashes_eq_nil.mp h
  refine ⟨⟨hash, ?_, hhex⟩, ⟨hash', ?_, hhex'⟩⟩
  · rw [hread.redactedMarkdownHash, hhash, textOf_str]
  · rw [hread.plainTextDerivativeHash, hhash', textOf_str]

theorem ReadFrom.withoutMarkdown (hread : ReadFrom members ref) {detail : Option JsString}
    (h : refuseMarkdown members index detail = []) : ref.WithoutMarkdown := by
  obtain ⟨hpath, hnote, hredacted, hplain⟩ := refuseMarkdown_eq_nil.mp h
  constructor
  · rw [hread.markdownSectionPath, hpath, textOf_none]
  · rw [hread.noteEntryId, hnote, textOf_none]
  · rw [hread.redactedMarkdownHash, hredacted, textOf_none]
  · rw [hread.plainTextDerivativeHash, hplain, textOf_none]

theorem ReadFrom.content (hread : ReadFrom members ref)
    (h : validateContentFields members index ref.kind = []) : ref.ContentRules := by
  have hformatOf : ∀ format : TestIntentCustomInputFormat,
      mapGet members (js "inputFormat") = some (.str format.text) →
        ref.inputFormat = some format := by
    intro format hformat
    rw [hread.inputFormat, hformat]
    exact formatOf_map_text (some format)
  have habsent : mapGet members (js "inputFormat") = none → ref.inputFormat = none := by
    intro hnone
    rw [hread.inputFormat, hnone]
    rfl
  rw [validateContentFields] at h
  rw [TestIntentSourceRef.ContentRules]
  split at h
  · next hsupporting =>
      rw [if_pos hsupporting]
      split at h
      · next hmarkdown =>
          obtain ⟨hnone, hhashes⟩ := List.append_eq_nil_iff.mp h
          rw [if_pos hmarkdown]
          exact ⟨habsent (requireAbsent_eq_nil.mp hnone), hread.hasMarkdownHashes hhashes⟩
      · next hmarkdown =>
          obtain ⟨hformat, hrest⟩ := List.append_eq_nil_iff.mp h
          obtain ⟨format, hformat⟩ := validateInputFormat_eq_nil.mp hformat
          rw [if_neg hmarkdown]
          refine ⟨format, hformatOf format hformat, ?_⟩
          have htest : isTextWith (· == js "markdown") (mapGet members (js "inputFormat")) =
              decide (format = .markdown) := by
            rw [hformat]
            cases format <;> decide
          simp only [htest, decide_eq_true_eq] at hrest
          split at hrest
          · next heq =>
              rw [if_pos heq]
              exact hread.hasMarkdownHashes hrest
          · next hne =>
              rw [if_neg hne]
              exact hread.withoutMarkdown hrest
  · next hsupporting =>
      obtain ⟨hnone, hrest⟩ := List.append_eq_nil_iff.mp h
      rw [if_neg hsupporting]
      exact ⟨habsent (requireAbsent_eq_nil.mp hnone), hread.withoutMarkdown hrest⟩

theorem ReadFrom.issueKey (hread : ReadFrom members ref)
    (h : validateIssueKey members index ref.kind = []) :
    ∀ key ∈ ref.canonicalIssueKey, ref.kind.isJira = true ∧ isJiraIssueKey key = true := by
  intro key hkey
  rw [Option.mem_def, hread.canonicalIssueKey, textOf_eq_some] at hkey
  rw [validateIssueKey] at h
  split at h
  · next hjira =>
      rcases requireTextIfPresent_eq_nil.mp h with hnone | ⟨key', hkey', hform⟩
      · simp [hkey] at hnone
      · obtain rfl : key = key' := by simpa [hkey] using hkey'
        exact ⟨hjira, hform⟩
  · have hnone := requireAbsent_eq_nil.mp h
    simp [hkey] at hnone

theorem ReadFrom.author (hread : ReadFrom members ref)
    (h : requireTextIfPresent members index "authorHandle" isSourceId .invalidAuthorHandle = []) :
    ∀ handle ∈ ref.authorHandle, isSourceId handle = true := by
  intro handle hhandle
  rw [Option.mem_def, hread.authorHandle, textOf_eq_some] at hhandle
  rcases requireTextIfPresent_eq_nil.mp h with hnone | ⟨handle', hhandle', hform⟩
  · simp [hhandle] at hnone
  · obtain rfl : handle = handle' := by simpa [hhandle] using hhandle'
    exact hform

/-- A candidate source without issues says a source that keeps the rules. -/
theorem acceptedSourceRef_of_validate (h : validateSourceRef members index = []) :
    ∃ accepted, acceptedSourceRef members = some accepted ∧ accepted.Rules := by
  simp only [validateSourceRef, List.append_eq_nil_iff, requireText_eq_nil] at h
  obtain ⟨⟨⟨⟨⟨⟨id, hid, hid'⟩, ⟨kindText, hkind, hkind'⟩⟩, ⟨hash, hhash, hhash'⟩⟩,
    ⟨time, htime, htime'⟩⟩, hauthor⟩, hrest⟩ := h
  obtain ⟨kind, hkind'⟩ := Option.isSome_iff_exists.mp hkind'
  obtain rfl := TestIntentSourceKind.text_of_ofText hkind'
  rw [kindOf_eq_some.mpr hkind] at hrest
  obtain ⟨hcontent, hissueKey⟩ := List.append_eq_nil_iff.mp hrest
  let accepted : TestIntentSourceRef :=
    { sourceId := id
      kind := kind
      contentHash := hash
      capturedAt := time
      authorHandle := textOf (mapGet members (js "authorHandle"))
      inputFormat := formatOf (mapGet members (js "inputFormat"))
      noteEntryId := textOf (mapGet members (js "noteEntryId"))
      markdownSectionPath := textOf (mapGet members (js "markdownSectionPath"))
      canonicalIssueKey := textOf (mapGet members (js "canonicalIssueKey"))
      redactedMarkdownHash := textOf (mapGet members (js "redactedMarkdownHash"))
      plainTextDerivativeHash := textOf (mapGet members (js "plainTextDerivativeHash")) }
  have hread : ReadFrom members accepted := ⟨rfl, rfl, rfl, rfl, rfl, rfl, rfl⟩
  refine ⟨accepted, ?_, hid', hhash', htime', hread.author hauthor, hread.content hcontent,
    hread.issueKey hissueKey⟩
  simp only [acceptedSourceRef, hid, hhash, htime, kindOf_eq_some.mpr hkind, textOf_str,
    Option.pure_def, Option.bind_eq_bind, Option.bind_some, accepted]

end

/-! ## All sources -/

/-- The sources of a candidate without issues, in the order of the candidate. -/
theorem collectSources_eq_nil {index : ℕ} {seen : List JsString} {raws : List Json}
    (h : (collectSources index seen raws).1 = []) :
    let refs := (collectSources index seen raws).2.map (·.ref)
    List.Forall₂ (fun raw ref ↦ ∃ members, raw = .obj members ∧
      acceptedSourceRef members = some ref) raws refs ∧
      (∀ ref ∈ refs, ref.Rules) ∧ (refs.map (·.sourceId)).Nodup ∧
        ∀ ref ∈ refs, ref.sourceId ∉ seen := by
  induction raws generalizing index seen with
  | nil => simp [collectSources]
  | cons raw rest ih =>
      cases raw with
      | obj members =>
          rw [collectSources] at h ⊢
          split at h
          · next accepted hissues haccepted =>
              simp only [List.append_eq_nil_iff, ite_eq_right_iff, List.cons_ne_nil, imp_false] at h
              obtain ⟨hseen, htail⟩ := h
              obtain ⟨hforall, hrules, hnodup, hfresh⟩ := ih htail
              obtain ⟨accepted', haccepted', hrules'⟩ := acceptedSourceRef_of_validate hissues
              obtain rfl : accepted = accepted' := Option.some.inj (haccepted ▸ haccepted')
              refine ⟨List.Forall₂.cons ⟨members, rfl, haccepted⟩ hforall, ?_, ?_, ?_⟩
              · exact List.forall_mem_cons.mpr ⟨hrules', hrules⟩
              · refine List.nodup_cons.mpr ⟨?_, hnodup⟩
                intro hmem
                obtain ⟨ref, href, heq⟩ := List.mem_map.mp hmem
                exact hfresh ref href (mem_setAdd.mpr (Or.inr heq))
              · refine List.forall_mem_cons.mpr ⟨hseen, ?_⟩
                exact fun ref href hmem ↦ hfresh ref href (mem_setAdd.mpr (Or.inl hmem))
          · next hnot =>
              simp only [List.append_eq_nil_iff] at h
              obtain ⟨accepted, haccepted, -⟩ := acceptedSourceRef_of_validate h.1
              exact (hnot accepted h.1 haccepted).elim
      | null => simp [collectSources] at h
      | bool b => simp [collectSources] at h
      | num x => simp [collectSources] at h
      | str s => simp [collectSources] at h
      | arr items => simp [collectSources] at h

/-- Sources that keep the rules raise no issue. -/
theorem collectSources_of_rules {refs : List TestIntentSourceRef} {index : ℕ}
    {seen : List JsString} (hrules : ∀ ref ∈ refs, ref.Rules)
    (hnodup : (refs.map (·.sourceId)).Nodup) (hfresh : ∀ ref ∈ refs, ref.sourceId ∉ seen) :
    ∃ entries, collectSources index seen (refs.map TestIntentSourceRef.toJson) = ([], entries) ∧
      entries.map (·.ref) = refs := by
  induction refs generalizing index seen with
  | nil => exact ⟨[], rfl, rfl⟩
  | cons ref refs ih =>
      obtain ⟨hrule, hrules⟩ := List.forall_mem_cons.mp hrules
      obtain ⟨hnew, hfresh⟩ := List.forall_mem_cons.mp hfresh
      obtain ⟨hnot, hnodup⟩ := List.nodup_cons.mp hnodup
      have hfresh' : ∀ ref' ∈ refs, ref'.sourceId ∉ setAdd seen ref.sourceId := by
        intro ref' href' hmem
        rcases mem_setAdd.mp hmem with hseen | heq
        · exact hfresh ref' href' hseen
        · exact hnot (List.mem_map.mpr ⟨ref', href', heq⟩)
      obtain ⟨entries, hcollect, hrefs⟩ := @ih (index + 1) _ hrules hnodup hfresh'
      have hsays : Says (presentMembers ref.fields) ref := ref.mapGet_fields
      refine ⟨⟨ref, index⟩ :: entries, ?_, congrArg (ref :: ·) hrefs⟩
      simp only [List.map_cons, TestIntentSourceRef.toJson, collectSources,
        validateSourceRef_of_says hsays hrule, acceptedSourceRef_of_says hsays, if_neg hnew, hcollect,
        List.nil_append]

def entryKey (entry : SourceEntry) : Option JsString := entry.ref.canonicalIssueKey

theorem issueKeyCollisions_eq_nil {seen : List (JsString × ℕ)} {entries : List SourceEntry} :
    issueKeyCollisions seen entries = [] ↔
      (entries.filterMap entryKey).Nodup ∧
        ∀ key ∈ entries.filterMap entryKey, mapGet seen key = none := by
  induction entries generalizing seen with
  | nil => simp [issueKeyCollisions]
  | cons entry rest ih =>
      rw [issueKeyCollisions]
      cases hkey : entry.ref.canonicalIssueKey with
      | none =>
          rw [List.filterMap_cons_none (show entryKey entry = none from hkey)]
          exact ih
      | some key =>
          rw [List.filterMap_cons_some (show entryKey entry = some key from hkey), List.nodup_cons, List.forall_mem_cons]
          cases hseen : mapGet seen key with
          | some firstIdx => simp [hseen]
          | none =>
              simp only [hseen, ih, mapGet_mapSet]
              constructor
              · rintro ⟨hnodup, hnone⟩
                have hnot : key ∉ rest.filterMap entryKey := by
                  intro hmem
                  simpa using hnone key hmem
                refine ⟨⟨hnot, hnodup⟩, trivial, fun key' hkey' ↦ ?_⟩
                have hne : key' ≠ key := fun heq ↦ hnot (heq ▸ hkey')
                simpa [hne, hne.symm] using hnone key' hkey'
              · rintro ⟨⟨hnot, hnodup⟩, -, hnone⟩
                refine ⟨hnodup, fun key' hkey' ↦ ?_⟩
                have hne : key' ≠ key := fun heq ↦ hnot (heq ▸ hkey')
                simpa [hne, hne.symm] using hnone key' hkey'

/-- Only Jira sources carry issue keys. -/
theorem filterMap_issueKey_filter {entries : List SourceEntry}
    (hrules : ∀ entry ∈ entries, entry.ref.Rules) :
    (entries.filter (·.ref.kind.isJira)).filterMap entryKey =
      entries.filterMap entryKey := by
  induction entries with
  | nil => rfl
  | cons entry rest ih =>
      obtain ⟨hrule, hrules⟩ := List.forall_mem_cons.mp hrules
      rw [List.filter_cons]
      split
      · rw [List.filterMap_cons, List.filterMap_cons, ih hrules]
      · next hjira =>
          have hnone : entryKey entry = none := by
            rw [Option.eq_none_iff_forall_ne_some]
            exact fun key hkey ↦ hjira (hrule.issueKey key hkey).1
          rw [List.filterMap_cons_none hnone, ih hrules]

theorem detectDuplicateJiraPasteCollision_eq_nil {entries : List SourceEntry}
    (hrules : ∀ entry ∈ entries, entry.ref.Rules) :
    detectDuplicateJiraPasteCollision entries = [] ↔
      (entries.filterMap entryKey).Nodup := by
  rw [← filterMap_issueKey_filter hrules, detectDuplicateJiraPasteCollision]
  split
  · next hshort =>
      refine iff_of_true rfl ?_
      have hlength := List.length_filterMap_le entryKey
        (entries.filter (·.ref.kind.isJira))
      rcases hkeys : (entries.filter (·.ref.kind.isJira)).filterMap entryKey with
        _ | ⟨key, _ | ⟨key', keys⟩⟩
      · rw [hkeys]
        exact List.nodup_nil
      · rw [hkeys]
        exact List.nodup_singleton key
      · rw [hkeys] at hlength
        simp only [List.length_cons] at hlength
        omega
  · rw [issueKeyCollisions_eq_nil]
    simp

/-! ## The priority order -/

@[simp] theorem kindOf_text (kind : TestIntentSourceKind) :
    kindOf (some (.str kind.text)) = some kind := kindOf_eq_some.mpr rfl

theorem scanPriorityOrder_kinds {index : ℕ} {seen kinds : List TestIntentSourceKind}
    (hnodup : kinds.Nodup) (hfresh : ∀ kind ∈ kinds, kind ∉ seen) :
    scanPriorityOrder index seen (kinds.map (.str ·.text)) = ([], seen ++ kinds) := by
  induction kinds generalizing index seen with
  | nil => simp [scanPriorityOrder]
  | cons kind kinds ih =>
      obtain ⟨hnot, hnodup⟩ := List.nodup_cons.mp hnodup
      obtain ⟨hnew, hfresh⟩ := List.forall_mem_cons.mp hfresh
      have hadd : setAdd seen kind = seen ++ [kind] := if_neg hnew
      have hfresh' : ∀ kind' ∈ kinds, kind' ∉ setAdd seen kind := by
        intro kind' hkind' hmem
        rcases mem_setAdd.mp hmem with hseen | heq
        · exact hfresh kind' hkind' hseen
        · exact hnot (heq ▸ hkind')
      simp only [List.map_cons, scanPriorityOrder, kindOf_text, ih hnodup hfresh', if_neg hnew]
      simp [hadd]

theorem scanPriorityOrder_eq_nil {index : ℕ} {seen : List TestIntentSourceKind}
    {values : List Json} (h : (scanPriorityOrder index seen values).1 = []) :
    ∃ kinds : List TestIntentSourceKind, values = kinds.map (.str ·.text) ∧ kinds.Nodup ∧
      ∀ kind ∈ kinds, kind ∉ seen := by
  induction values generalizing index seen with
  | nil => exact ⟨[], rfl, by simp, by simp⟩
  | cons value rest ih =>
      rw [scanPriorityOrder] at h
      cases hkind : kindOf (some value) with
      | none => simp [hkind] at h
      | some kind =>
          simp only [hkind, List.append_eq_nil_iff, ite_eq_right_iff, List.cons_ne_nil,
            imp_false] at h
          obtain ⟨hnew, htail⟩ := h
          obtain ⟨kinds, rfl, hnodup, hfresh⟩ := ih htail
          refine ⟨kind :: kinds, ?_, List.nodup_cons.mpr ⟨?_, hnodup⟩, ?_⟩
          · rw [Option.some.inj (kindOf_eq_some.mp hkind)]
            rfl
          · exact fun hmem ↦ hfresh kind hmem (mem_setAdd.mpr (Or.inr rfl))
          · refine List.forall_mem_cons.mpr ⟨hnew, ?_⟩
            exact fun kind' hkind' hmem ↦ hfresh kind' hkind' (mem_setAdd.mpr (Or.inl hmem))

theorem coversKinds_iff {kinds : List TestIntentSourceKind} {sources : List TestIntentSourceRef} :
    CoversKinds kinds sources ↔
      kinds.Nodup ∧ (setOf (sources.map (·.kind))).filter (· ∉ kinds) = [] ∧
        kinds.filter (· ∉ setOf (sources.map (·.kind))) = [] := by
  simp only [CoversKinds, List.filter_eq_nil_iff, mem_setOf, List.mem_map, decide_eq_true_eq,
    not_not]
  constructor
  · rintro ⟨hnodup, hcover⟩
    exact ⟨hnodup, fun kind hkind ↦ (hcover kind).mpr hkind, fun kind hkind ↦ (hcover kind).mp hkind⟩
  · rintro ⟨hnodup, hall, honly⟩
    exact ⟨hnodup, fun kind ↦ ⟨honly kind, hall kind⟩⟩

theorem validatePriorityOrder_eq_nil {policy : ConflictResolutionPolicy} {raw : Option Json}
    {sources : List TestIntentSourceRef} :
    validatePriorityOrder policy raw sources = [] ↔
      ∃ order, raw = order.map kindTexts ∧ OrderRules policy order sources := by
  by_cases hpolicy : policy = .priority
  · simp only [validatePriorityOrder, OrderRules, if_neg (not_not.mpr hpolicy), if_pos hpolicy]
    constructor
    · intro h
      rcases raw with _ | (_ | _ | _ | _ | values | _)
      case some.arr =>
        simp only [List.append_eq_nil_iff, List.map_eq_nil_iff] at h
        obtain ⟨⟨hscan, hmissing⟩, hextra⟩ := h
        obtain ⟨kinds, rfl, hnodup, hfresh⟩ := scanPriorityOrder_eq_nil hscan
        rw [scanPriorityOrder_kinds hnodup hfresh] at hmissing hextra
        exact ⟨some kinds, rfl, kinds, rfl, coversKinds_iff.mpr ⟨hnodup, hmissing, hextra⟩⟩
      all_goals cases h
    · rintro ⟨order, rfl, kinds, rfl, hcovers⟩
      obtain ⟨hnodup, hmissing, hextra⟩ := coversKinds_iff.mp hcovers
      have hscan : scanPriorityOrder 0 [] (kinds.map (.str ·.text)) = ([], [] ++ kinds) :=
        scanPriorityOrder_kinds hnodup (by simp)
      simp only [Option.map_some, kindTexts, hscan, List.nil_append, hmissing, hextra, List.map_nil]
  · simp only [validatePriorityOrder, OrderRules, if_pos (show policy ≠ .priority from hpolicy),
      if_neg hpolicy, refuseUnless_eq_nil, Option.isNone_iff_eq_none]
    constructor
    · rintro rfl
      exact ⟨none, rfl, rfl⟩
    · rintro ⟨order, rfl, rfl⟩
      rfl

@[simp] theorem priorityKinds_map (order : Option (List TestIntentSourceKind)) :
    priorityKinds (order.map kindTexts) = order := by
  cases order with
  | none => rfl
  | some kinds =>
      simp only [Option.map_some, kindTexts, priorityKinds, List.filterMap_map, Function.comp_def,
        kindOf_text, List.filterMap_some]

theorem validateSourceMixPlan_eq_nil {raw : Option Json} :
    validateSourceMixPlan raw = [] ↔
      ∃ plan : Option (List (JsString × Json)), raw = plan.map .obj ∧
        ∀ members ∈ plan, isValidSourceMixPlan members = true := by
  constructor
  · intro h
    rcases raw with _ | value
    · exact ⟨none, rfl, by simp⟩
    · cases value with
      | obj members =>
          refine ⟨some members, rfl, fun members' hmembers ↦ ?_⟩
          cases hmembers
          exact refuseUnless_eq_nil.mp h
      | null => simp [validateSourceMixPlan] at h
      | bool b => simp [validateSourceMixPlan] at h
      | num x => simp [validateSourceMixPlan] at h
      | str s => simp [validateSourceMixPlan] at h
      | arr items => simp [validateSourceMixPlan] at h
  · rintro ⟨plan, rfl, hvalid⟩
    cases plan with
    | none => rfl
    | some members => exact refuseUnless_eq_nil.mpr (hvalid members rfl)

theorem planMembers_map {plan : Option (List (JsString × Json))}
    (h : ∀ members ∈ plan, isValidSourceMixPlan members = true) :
    planMembers (plan.map .obj) = plan := by
  cases plan with
  | none => rfl
  | some members => exact if_pos (h members rfl)

theorem policyOf_eq_some {value : Option Json} {policy : ConflictResolutionPolicy} :
    policyOf value = some policy ↔ value = some (.str policy.text) := by
  rw [policyOf, Option.bind_eq_some_iff]
  constructor
  · rintro ⟨s, hs, hpolicy⟩
    rw [ConflictResolutionPolicy.text_of_ofText hpolicy]
    exact textOf_eq_some.mp hs
  · rintro rfl
    exact ⟨policy.text, rfl, policy.ofText_text⟩

/-! ## The whole candidate -/

section

variable {sha256 : Bytes → JsString}

/-- The members say the envelope, and the sources are the accepted ones. -/
structure AcceptedAs (sha256 : Bytes → JsString) (members : List (JsString × Json))
    (envelope : MultiSourceTestIntentEnvelope) : Prop where
  version : mapGet members (js "version") = some (.str envelopeSchemaVersion)
  sources : ∃ raws entries, mapGet members (js "sources") = some (.arr raws) ∧
    collectSources 0 [] raws = ([], entries) ∧ entries.map (·.ref) = envelope.sources
  policy : mapGet members (js "conflictResolutionPolicy") =
    some (.str envelope.conflictResolutionPolicy.text)
  order : mapGet members (js "priorityOrder") = envelope.priorityOrder.map kindTexts
  plan : mapGet members (js "sourceMixPlan") = envelope.sourceMixPlan.map .obj
  hash : mapGet members (js "aggregateContentHash") = some (.str envelope.aggregateContentHash)
  rules : envelope.Rules sha256

theorem entryKey_map {entries : List SourceEntry} {sources : List TestIntentSourceRef}
    (h : entries.map (·.ref) = sources) :
    entries.filterMap entryKey = sources.filterMap (·.canonicalIssueKey) := by
  rw [← h, List.filterMap_map]
  rfl

theorem sourcesRules_of_structural {members : List (JsString × Json)} {raws : List Json}
    {entries : List SourceEntry} (hcollect : collectSources 0 [] raws = ([], entries))
    (hne : raws ≠ []) (h : (structuralIssues members raws).1 = []) :
    SourcesRules (entries.map (·.ref)) := by
  have hnil : (collectSources 0 [] raws).1 = [] := by rw [hcollect]
  obtain ⟨hforall, hrules, hnodup, -⟩ := collectSources_eq_nil hnil
  rw [hcollect] at hforall hrules hnodup
  simp only [structuralIssues, hcollect, List.nil_append, List.append_eq_nil_iff,
    ite_eq_right_iff, List.cons_ne_nil, imp_false] at h
  obtain ⟨⟨⟨hprimary, hkeys⟩, -⟩, -⟩ := h
  have hentries : ∀ entry ∈ entries, entry.ref.Rules :=
    fun entry hentry ↦ hrules entry.ref (List.mem_map_of_mem hentry)
  rw [detectDuplicateJiraPasteCollision_eq_nil hentries, entryKey_map rfl] at hkeys
  refine ⟨?_, hrules, hnodup, hkeys⟩
  have hsources : entries.map (·.ref) ≠ [] := by
    intro hempty
    rw [hempty] at hforall
    exact hne (List.forall₂_nil_right_iff.mp hforall)
  rw [not_and_not_right] at hprimary
  simpa using hprimary hsources

theorem structuralIssues_of_rules {members : List (JsString × Json)} {raws : List Json}
    {entries : List SourceEntry} {envelope : MultiSourceTestIntentEnvelope}
    (hcollect : collectSources 0 [] raws = ([], entries))
    (hentries : entries.map (·.ref) = envelope.sources)
    (hpolicy : mapGet members (js "conflictResolutionPolicy") =
      some (.str envelope.conflictResolutionPolicy.text))
    (horder : mapGet members (js "priorityOrder") = envelope.priorityOrder.map kindTexts)
    (hplan : mapGet members (js "sourceMixPlan") = envelope.sourceMixPlan.map .obj)
    (hrules : envelope.Rules sha256) :
    structuralIssues members raws = ([], envelope.sources) := by
  have heach : ∀ entry ∈ entries, entry.ref.Rules := by
    intro entry hentry
    apply hrules.sources.each
    rw [← hentries]
    exact List.mem_map_of_mem hentry
  have hkeys : detectDuplicateJiraPasteCollision entries = [] := by
    rw [detectDuplicateJiraPasteCollision_eq_nil heach, entryKey_map hentries]
    exact hrules.sources.issueKeys
  have hprimary : envelope.sources.any (·.kind.isPrimary) = true := by
    simpa using hrules.sources.primary
  have hkinds := validatePriorityOrder_eq_nil.mpr ⟨envelope.priorityOrder, horder, hrules.order⟩
  have hmix := validateSourceMixPlan_eq_nil.mpr ⟨envelope.sourceMixPlan, hplan, hrules.plan⟩
  simp only [structuralIssues, hcollect, hentries, hkeys, hprimary, policyOf_eq_some.mpr hpolicy,
    hkinds, hmix, not_true_eq_false, and_false, if_false, List.append_nil]

theorem headerIssues_eq_nil {members : List (JsString × Json)} :
    headerIssues members = [] ↔
      mapGet members (js "version") = some (.str envelopeSchemaVersion) ∧
        ∃ policy : ConflictResolutionPolicy,
          mapGet members (js "conflictResolutionPolicy") = some (.str policy.text) := by
  rw [headerIssues, List.append_eq_nil_iff, refuseUnless_eq_nil, refuseUnless_eq_nil,
    isTextWith_iff, Option.isSome_iff_exists]
  simp [policyOf_eq_some]

theorem checkAggregateHash_eq_ok {members : List (JsString × Json)}
    {sources : List TestIntentSourceRef} {policy : ConflictResolutionPolicy}
    {envelope : MultiSourceTestIntentEnvelope}
    (h : checkAggregateHash sha256 members sources policy = .ok envelope) :
    ∃ aggregateContentHash, mapGet members (js "aggregateContentHash") =
        some (.str aggregateContentHash) ∧
      computeAggregateContentHash sha256 sources policy
        (priorityKinds (mapGet members (js "priorityOrder"))) = aggregateContentHash ∧
      envelope = ⟨sources, aggregateContentHash, policy,
        priorityKinds (mapGet members (js "priorityOrder")),
        planMembers (mapGet members (js "sourceMixPlan"))⟩ := by
  unfold checkAggregateHash at h
  rcases hhash : mapGet members (js "aggregateContentHash") with _ | (_ | _ | _ | hash | _ | _)
  case some.str =>
    simp only [hhash] at h
    split at h
    · next hexpected =>
        cases h
        exact ⟨hash, rfl, hexpected, rfl⟩
    · cases h
  all_goals simp [hhash] at h

/-- The steps of an accepting run of the validator. -/
theorem validate_obj_eq_ok {members : List (JsString × Json)}
    {envelope : MultiSourceTestIntentEnvelope}
    (h : validateMultiSourceTestIntentEnvelope sha256 (.obj members) = .ok envelope) :
    ∃ raws policy, raws ≠ [] ∧ mapGet members (js "sources") = some (.arr raws) ∧
      headerIssues members = [] ∧ (structuralIssues members raws).1 = [] ∧
      policyOf (mapGet members (js "conflictResolutionPolicy")) = some policy ∧
      checkAggregateHash sha256 members (structuralIssues members raws).2 policy =
        .ok envelope := by
  unfold validateMultiSourceTestIntentEnvelope at h
  rcases hraws : mapGet members (js "sources") with _ | (_ | _ | _ | _ | (_ | ⟨source, raws⟩) | _)
  case some.arr.cons =>
    simp only [hraws] at h
    split at h
    · next policy hissues hpolicy =>
        obtain ⟨hheader, hissues⟩ := List.append_eq_nil_iff.mp hissues
        exact ⟨_, policy, List.cons_ne_nil source raws, rfl, hheader, hissues, hpolicy, h⟩
    · cases h
  all_goals simp [hraws] at h

/-- The validator accepts exactly the candidates that say an envelope that keeps the
rules, and returns it. -/
theorem validate_eq_ok_iff {candidate : Json} {envelope : MultiSourceTestIntentEnvelope} :
    validateMultiSourceTestIntentEnvelope sha256 candidate = .ok envelope ↔
      ∃ members, candidate = .obj members ∧ AcceptedAs sha256 members envelope := by
  constructor
  · intro h
    cases candidate with
    | obj members =>
        obtain ⟨raws, policy, hne, hraws, hheader, hissues, hpolicy, hcheck⟩ := validate_obj_eq_ok h
        obtain ⟨hash, hhash, hexpected, rfl⟩ := checkAggregateHash_eq_ok hcheck
        have hsources : (collectSources 0 [] raws).1 = [] := by
          simp only [structuralIssues, List.append_eq_nil_iff] at hissues
          exact hissues.1.1.1.1
        have hcollect : collectSources 0 [] raws = ([], (collectSources 0 [] raws).2) :=
          Prod.ext hsources rfl
        have hrules := sourcesRules_of_structural hcollect hne hissues
        simp only [structuralIssues, List.append_eq_nil_iff, hpolicy] at hissues hexpected
        obtain ⟨order, horder, hkinds⟩ := validatePriorityOrder_eq_nil.mp hissues.1.2
        obtain ⟨plan, hplan, hvalid⟩ := validateSourceMixPlan_eq_nil.mp hissues.2
        rw [horder, priorityKinds_map] at hexpected
        refine ⟨members, rfl, ?_⟩
        rw [horder, hplan, priorityKinds_map, planMembers_map hvalid]
        exact {
          version := (headerIssues_eq_nil.mp hheader).1
          sources := ⟨raws, _, hraws, hcollect, rfl⟩
          policy := policyOf_eq_some.mp hpolicy
          order := horder
          plan := hplan
          hash := hhash
          rules := ⟨hrules, hkinds, hvalid, hexpected.symm⟩ }
    | null => cases h
    | bool b => cases h
    | num x => cases h
    | str s => cases h
    | arr items => cases h
  · rintro ⟨members, rfl, h⟩
    obtain ⟨raws, entries, hraws, hcollect, hentries⟩ := h.sources
    have hissues := structuralIssues_of_rules hcollect hentries h.policy h.order h.plan h.rules
    have hheader := headerIssues_eq_nil.mpr ⟨h.version, _, h.policy⟩
    obtain ⟨source, sourcesRaw, rfl⟩ : ∃ source sourcesRaw, raws = source :: sourcesRaw := by
      apply List.exists_cons_of_ne_nil
      rintro rfl
      obtain ⟨ref, href, -⟩ := h.rules.sources.primary
      cases hcollect
      rw [← hentries] at href
      exact absurd href List.not_mem_nil
    simp only [validateMultiSourceTestIntentEnvelope, hraws, hissues, hheader, List.append_nil,
      policyOf_eq_some.mpr h.policy, checkAggregateHash, h.order, priorityKinds_map, h.hash, h.plan,
      planMembers_map h.rules.plan]
    rw [if_pos h.rules.hash.symm]

theorem MultiSourceTestIntentEnvelope.mapGet_fields (envelope : MultiSourceTestIntentEnvelope) :
    ∀ field ∈ envelope.fields, mapGet (presentMembers envelope.fields) field.1 = field.2 := by
  have hkeys : (envelope.fields.map Prod.fst).Nodup := by
    change (List.map js ["version", "sources", "aggregateContentHash", "conflictResolutionPolicy",
      "priorityOrder", "sourceMixPlan"]).Nodup
    decide
  intro field hfield
  rw [mapGet_presentMembers hkeys, mapGet_eq_some_of_mem hkeys hfield, Option.join_some]

/-- The validator returns every envelope that keeps the rules as it is. -/
theorem validate_toJson_iff {envelope : MultiSourceTestIntentEnvelope} :
    validateMultiSourceTestIntentEnvelope sha256 envelope.toJson = .ok envelope ↔
      envelope.Rules sha256 := by
  rw [validate_eq_ok_iff]
  constructor
  · rintro ⟨members, -, h⟩
    exact h.rules
  · intro h
    have hget := envelope.mapGet_fields
    refine ⟨_, rfl, ?_⟩
    generalize presentMembers envelope.fields = members at hget ⊢
    simp only [MultiSourceTestIntentEnvelope.fields, List.forall_mem_cons] at hget
    obtain ⟨hversion, hsources, hhash, hpolicy, horder, hplan, -⟩ := hget
    obtain ⟨entries, hcollect, hentries⟩ :=
      @collectSources_of_rules envelope.sources 0 [] h.sources.each h.sources.sourceIds (by simp)
    exact ⟨hversion, ⟨_, entries, hsources, hcollect, hentries⟩, hpolicy, horder, hplan, hhash, h⟩

theorem rules_of_validate {candidate : Json} {envelope : MultiSourceTestIntentEnvelope}
    (h : validateMultiSourceTestIntentEnvelope sha256 candidate = .ok envelope) :
    envelope.Rules sha256 := by
  obtain ⟨members, -, h⟩ := validate_eq_ok_iff.mp h
  exact h.rules

/-- What the validator returns validates again, to itself. -/
theorem validate_returned {candidate : Json} {envelope : MultiSourceTestIntentEnvelope}
    (h : validateMultiSourceTestIntentEnvelope sha256 candidate = .ok envelope) :
    validateMultiSourceTestIntentEnvelope sha256 envelope.toJson = .ok envelope :=
  validate_toJson_iff.mpr (rules_of_validate h)

end

end TestIntelligence.MultiSource
