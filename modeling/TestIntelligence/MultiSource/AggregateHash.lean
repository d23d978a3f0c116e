import TestIntelligence.Js.JsonText
import TestIntelligence.MultiSource.EnvelopeRules
import TestIntelligence.Security.Digests
import TestIntelligence.Security.Records

/-!
# The aggregate content hash

The hash says the pairs of kinds and content hashes with their multiplicities, the
policy and the priority order, and nothing else.
-/

namespace TestIntelligence.MultiSource

open Js Security

/-! ## The order of the sources -/

theorem compareSources_nonpos {a b : TestIntentSourceKind × JsString} :
    compareSources a b ≤ 0 ↔ a.2 < b.2 ∨ a.2 = b.2 ∧ a.1.text ≤ b.1.text := by
  unfold compareSources
  by_cases heq : a.2 = b.2
  · rw [if_neg (not_not.mpr heq)]
    simp only [heq, true_and]
    split
    · next hlt => simp [Std.le_of_lt hlt]
    · next hnot =>
        split
        · next hlt => simp [Std.not_le.mpr hlt]
        · next hnot' => simp [Std.not_lt.mp hnot']
  · rw [if_pos heq]
    split
    · next hlt => simp [hlt]
    · next hnot => simp [hnot, heq]

theorem consistent_compareSources : Consistent compareSources :=
  @consistent_of_texts _ compareSources (·.2) (·.1.text) fun _ _ ↦ compareSources_nonpos

theorem eq_of_compareSources {a b : TestIntentSourceKind × JsString}
    (hab : compareSources a b ≤ 0) (hba : compareSources b a ≤ 0) : a = b := by
  obtain ⟨hhash, hkind⟩ := @texts_eq_of_compare _ compareSources (·.2) (·.1.text)
    (fun _ _ ↦ compareSources_nonpos) a b hab hba
  exact Prod.ext (TestIntentSourceKind.text_injective hkind) hhash

/-! ## What the hash says -/

theorem kindTexts_injective : Function.Injective kindTexts := by
  intro kinds kinds' h
  apply List.map_injective_iff.mpr ?_ (Json.arr.inj h)
  exact fun kind kind' heq ↦ TestIntentSourceKind.text_injective (Json.str.inj heq)

theorem sortValue_printed_kindTexts (kinds : List TestIntentSourceKind) :
    sortValue (kindTexts kinds).printed = kindTexts kinds := by
  have htexts : kindTexts kinds = .arr ((kinds.map (·.text)).map .str) := by
    rw [kindTexts, List.map_map]
    rfl
  rw [htexts]
  exact sortValue_printed_texts _

def pairFields (pair : TestIntentSourceKind × JsString) : List (JsString × Option Json) :=
  [(js "kind", some (.str pair.1.text)), (js "contentHash", some (.str pair.2))]

theorem enumerated_pairFields (pair : TestIntentSourceKind × JsString) :
    Enumerated (pairFields pair) := by
  change (List.map js ["kind", "contentHash"]).Nodup ∧
    (List.map js ["kind", "contentHash"]).Pairwise fun k k' ↦ keyBefore k k' = true
  decide

theorem pairJson_injective_of_sorted {pair pair' : TestIntentSourceKind × JsString}
    (h : sortValue (pairJson pair).printed = sortValue (pairJson pair').printed) : pair = pair' := by
  have hproto : protoKey ∉ (pairFields pair).map Prod.fst := by
    change protoKey ∉ List.map js ["kind", "contentHash"]
    decide
  have hfields : (pairFields pair).map (·.2.map sortValue) =
      (pairFields pair').map (·.2.map sortValue) :=
    fields_eq_of_sortValue_eq rfl (enumerated_pairFields pair) hproto h
  simp only [pairFields, List.map_cons, List.map_nil, Option.map_some, sortValue,
    List.cons.injEq, Option.some.injEq, Json.str.injEq, and_true] at hfields
  exact Prod.ext (TestIntentSourceKind.text_injective hfields.1) hfields.2

def aggregateFields (pairs : List (TestIntentSourceKind × JsString))
    (policy : ConflictResolutionPolicy) (order : List TestIntentSourceKind) :
    List (JsString × Option Json) :=
  [(js "schema", some (.str envelopeSchemaVersion)),
    (js "sources", some (.arr (pairs.map pairJson))),
    (js "conflictResolutionPolicy", some (.str policy.text)),
    (js "priorityOrder", some (kindTexts order))]

theorem enumerated_aggregateFields (pairs : List (TestIntentSourceKind × JsString))
    (policy : ConflictResolutionPolicy) (order : List TestIntentSourceKind) :
    Enumerated (aggregateFields pairs policy order) := by
  change (List.map js ["schema", "sources", "conflictResolutionPolicy", "priorityOrder"]).Nodup ∧
    (List.map js ["schema", "sources", "conflictResolutionPolicy", "priorityOrder"]).Pairwise
      fun k k' ↦ keyBefore k k' = true
  decide

theorem ordered_aggregateFields (pairs : List (TestIntentSourceKind × JsString))
    (policy : ConflictResolutionPolicy) (order : List TestIntentSourceKind) :
    ∀ field ∈ aggregateFields pairs policy order, ∀ v ∈ field.2, v.Ordered := by
  have hpairs : (Json.arr (pairs.map pairJson)).Ordered := by
    rw [Json.ordered_arr]
    intro v hv
    obtain ⟨pair, -, rfl⟩ := List.mem_map.mp hv
    exact Json.ordered_obj.mpr ⟨enumerated_pairFields pair, by simp⟩
  have horder : (kindTexts order).Ordered := by
    simp [kindTexts]
  simp only [aggregateFields, List.forall_mem_cons, Option.mem_def, Option.some.injEq, forall_eq']
  exact ⟨Json.ordered_str _, hpairs, Json.ordered_str _, horder, by simp⟩

/-- Equal texts under the hash come from equal components. -/
theorem components_eq_of_canonicalJson {pairs pairs' : List (TestIntentSourceKind × JsString)}
    {policy policy' : ConflictResolutionPolicy} {order order' : List TestIntentSourceKind}
    (h : canonicalJson (.obj (presentMembers (aggregateFields pairs policy order))) =
      canonicalJson (.obj (presentMembers (aggregateFields pairs' policy' order')))) :
    pairs = pairs' ∧ policy = policy' ∧ order = order' := by
  have hproto : protoKey ∉ (aggregateFields pairs policy order).map Prod.fst := by
    change protoKey ∉ List.map js ["schema", "sources", "conflictResolutionPolicy", "priorityOrder"]
    decide
  have hkeys : (aggregateFields pairs policy order).map Prod.fst =
      (aggregateFields pairs' policy' order').map Prod.fst := rfl
  have hfields := fields_eq_of_canonicalJson_eq hkeys (enumerated_aggregateFields pairs policy order)
    hproto (ordered_aggregateFields pairs policy order)
    (ordered_aggregateFields pairs' policy' order') h
  simp only [aggregateFields, List.map_cons, List.map_nil, Option.map_some, List.cons.injEq,
    Option.some.injEq, sortValue_printed_kindTexts, sortValue_printed_str, Json.str.injEq,
    and_true, true_and] at hfields
  obtain ⟨hpairs, hpolicy, horder⟩ := hfields
  refine ⟨?_, ConflictResolutionPolicy.text_injective hpolicy, kindTexts_injective horder⟩
  rw [Json.printed_arr, Json.printed_arr, sortValue_arr, sortValue_arr, List.map_map, List.map_map,
    List.map_map, List.map_map] at hpairs
  apply List.map_injective_iff.mpr ?_ (Json.arr.inj hpairs)
  exact fun pair pair' ↦ pairJson_injective_of_sorted

variable {sha256 : Bytes → JsString}

theorem sha256Hex_eq_iff (hsha : Function.Injective sha256) {v w : Json} :
    sha256Hex sha256 v = sha256Hex sha256 w ↔ canonicalJson v = canonicalJson w := by
  constructor
  · intro h
    exact (utf8Encode_inj (isWellFormed_stringify _) (isWellFormed_stringify _)).mp (hsha h)
  · intro h
    rw [sha256Hex, sha256Hex, h]

/-- The priority order as the hash reads it. -/
def priorityComponent (policy : ConflictResolutionPolicy)
    (order : Option (List TestIntentSourceKind)) : List TestIntentSourceKind :=
  if policy = .priority then order.getD [] else []

theorem computeAggregateContentHash_eq_iff (hsha : Function.Injective sha256)
    {sources sources' : List TestIntentSourceRef} {policy policy' : ConflictResolutionPolicy}
    {order order' : Option (List TestIntentSourceKind)} :
    computeAggregateContentHash sha256 sources policy order =
        computeAggregateContentHash sha256 sources' policy' order' ↔
      (sources.map sourcePair).Perm (sources'.map sourcePair) ∧ policy = policy' ∧
        priorityComponent policy order = priorityComponent policy' order' := by
  rw [computeAggregateContentHash, computeAggregateContentHash, sha256Hex_eq_iff hsha,
    ← consistent_compareSources.sortBy_eq_iff fun _ _ ↦ eq_of_compareSources]
  constructor
  · exact components_eq_of_canonicalJson
  · rintro ⟨hpairs, rfl, horder⟩
    simp only [priorityComponent] at horder
    simp only [aggregateValue, hpairs, horder]

/-- Under the rules the order is the component that the hash reads. -/
theorem OrderRules.eq_iff {policy : ConflictResolutionPolicy}
    {order order' : Option (List TestIntentSourceKind)} {sources sources' : List TestIntentSourceRef}
    (h : OrderRules policy order sources) (h' : OrderRules policy order' sources') :
    priorityComponent policy order = priorityComponent policy order' ↔ order = order' := by
  unfold OrderRules at h h'
  unfold priorityComponent
  split at h
  · next hpolicy =>
      rw [if_pos hpolicy] at h'
      obtain ⟨kinds, rfl, -⟩ := h
      obtain ⟨kinds', rfl, -⟩ := h'
      simp [hpolicy]
  · next hpolicy =>
      rw [if_neg hpolicy] at h'
      simp [hpolicy, h, h']

/-! ## Built envelopes -/

/-- What the documentation asks of the sources, the policy, the order and the plan. -/
structure EnvelopeInput.Conforms (input : EnvelopeInput) : Prop where
  sources : SourcesRules input.sources
  order : input.conflictResolutionPolicy = .priority →
    ∃ kinds, input.priorityOrder = some kinds ∧ CoversKinds kinds input.sources
  plan : ∀ plan ∈ input.sourceMixPlan, isValidSourceMixPlan plan = true

theorem map_cloneSourceRef (sources : List TestIntentSourceRef) :
    sources.map cloneSourceRef = sources := List.map_id sources

theorem build_sources (input : EnvelopeInput) :
    (buildMultiSourceTestIntentEnvelope sha256 input).sources = input.sources :=
  map_cloneSourceRef input.sources

theorem rules_build_iff {input : EnvelopeInput} :
    (buildMultiSourceTestIntentEnvelope sha256 input).Rules sha256 ↔ input.Conforms := by
  have hsources := @build_sources sha256 input
  constructor
  · intro h
    have horder := h.order
    rw [hsources] at horder
    refine ⟨hsources ▸ h.sources, fun hpolicy ↦ ?_, h.plan⟩
    simpa only [OrderRules, buildMultiSourceTestIntentEnvelope, if_pos hpolicy] using horder
  · intro h
    constructor
    · rw [hsources]
      exact h.sources
    · rw [OrderRules, hsources]
      split
      · next hpolicy =>
          obtain ⟨kinds, hkinds, hcovers⟩ := h.order hpolicy
          refine ⟨kinds, ?_, hcovers⟩
          simp only [buildMultiSourceTestIntentEnvelope] at hpolicy ⊢
          rw [if_pos hpolicy, hkinds]
      · next hpolicy => exact if_neg hpolicy
    · exact h.plan
    · simp only [buildMultiSourceTestIntentEnvelope, computeAggregateContentHash, aggregateValue]
      split <;> rfl

theorem eq_of_forall₂_accepted {sources refs : List TestIntentSourceRef}
    (h : List.Forall₂ (fun raw ref ↦ ∃ members, raw = Json.obj members ∧
      acceptedSourceRef members = some ref) (sources.map TestIntentSourceRef.toJson) refs) :
    refs = sources := by
  rw [List.forall₂_map_left_iff] at h
  induction h with
  | nil => rfl
  | @cons source ref sources refs hsource _ ih =>
      obtain ⟨members, hmembers, haccepted⟩ := hsource
      have hsays : Says members source := by
        rw [← Json.obj.inj hmembers]
        exact source.mapGet_fields
      rw [ acceptedSourceRef_of_says hsays] at haccepted
      rw [ih, Option.some.inj haccepted]

/-- A candidate that says an envelope is accepted as nothing else. -/
theorem eq_of_validate_toJson {envelope envelope' : MultiSourceTestIntentEnvelope}
    (h : validateMultiSourceTestIntentEnvelope sha256 envelope.toJson = .ok envelope') :
    envelope' = envelope := by
  obtain ⟨members, hmembers, haccepted⟩ := validate_eq_ok_iff.mp h
  have hget := envelope.mapGet_fields
  rw [Json.obj.inj hmembers] at hget
  simp only [MultiSourceTestIntentEnvelope.fields, List.forall_mem_cons] at hget
  obtain ⟨-, hsources, hhash, hpolicy, horder, hplan, -⟩ := hget
  obtain ⟨raws, entries, hraws, hcollect, hentries⟩ := haccepted.sources
  obtain rfl : envelope.sources.map TestIntentSourceRef.toJson = raws := by
    simpa [hsources] using hraws
  have hforall := (collectSources_eq_nil (congrArg Prod.fst hcollect)).1
  rw [hcollect, hentries] at hforall
  have hpolicy' : envelope'.conflictResolutionPolicy = envelope.conflictResolutionPolicy := by
    apply ConflictResolutionPolicy.text_injective
    simpa [hpolicy] using haccepted.policy.symm
  have horder' : envelope'.priorityOrder = envelope.priorityOrder :=
    Option.map_injective kindTexts_injective (haccepted.order.symm.trans horder)
  have hplan' : envelope'.sourceMixPlan = envelope.sourceMixPlan :=
    Option.map_injective (fun _ _ ↦ Json.obj.inj) (haccepted.plan.symm.trans hplan)
  have hhash' : envelope'.aggregateContentHash = envelope.aggregateContentHash := by
    simpa [hhash] using haccepted.hash.symm
  cases envelope
  cases envelope'
  simp only [MultiSourceTestIntentEnvelope.mk.injEq]
  exact ⟨eq_of_forall₂_accepted hforall, hhash', hpolicy', horder', hplan'⟩

/-- Sources that keep the documented rules are never refused once built, and only these
are accepted; what the validator returns validates again, to itself; and two accepted
envelopes share a hash if and only if they have the same kinds and content hashes, the
same policy and the same order. -/
theorem envelope_build_validate_hash (hsha : Function.Injective sha256) :
    (∀ input : EnvelopeInput, input.Conforms →
      validateMultiSourceTestIntentEnvelope sha256
          (buildMultiSourceTestIntentEnvelope sha256 input).toJson =
        .ok (buildMultiSourceTestIntentEnvelope sha256 input)) ∧
    (∀ (input : EnvelopeInput) envelope, validateMultiSourceTestIntentEnvelope sha256
      (buildMultiSourceTestIntentEnvelope sha256 input).toJson = .ok envelope → input.Conforms) ∧
    (∀ candidate envelope, validateMultiSourceTestIntentEnvelope sha256 candidate = .ok envelope →
      validateMultiSourceTestIntentEnvelope sha256 envelope.toJson = .ok envelope) ∧
    ∀ candidate candidate' envelope envelope',
      validateMultiSourceTestIntentEnvelope sha256 candidate = .ok envelope →
      validateMultiSourceTestIntentEnvelope sha256 candidate' = .ok envelope' →
      (envelope.aggregateContentHash = envelope'.aggregateContentHash ↔
        (envelope.sources.map sourcePair).Perm (envelope'.sources.map sourcePair) ∧
          envelope.conflictResolutionPolicy = envelope'.conflictResolutionPolicy ∧
          envelope.priorityOrder = envelope'.priorityOrder) := by
  refine ⟨fun input h ↦ validate_toJson_iff.mpr (rules_build_iff.mpr h), ?_,
    fun candidate envelope h ↦ validate_returned h, ?_⟩
  · intro input envelope h
    exact rules_build_iff.mp (eq_of_validate_toJson h ▸ rules_of_validate h)
  · intro candidate candidate' envelope envelope' h h'
    have hrules := rules_of_validate h
    have hrules' := rules_of_validate h'
    rw [hrules.hash, hrules'.hash, computeAggregateContentHash_eq_iff hsha]
    refine and_congr_right fun _ ↦ and_congr_right fun hpolicy ↦ ?_
    have horder := hrules.order
    rw [hpolicy] at horder ⊢
    exact horder.eq_iff hrules'.order

/-! ## Two sources and a custom note -/

def bareSource (sourceId : JsString) (kind : TestIntentSourceKind) (contentHash : ℕ) :
    TestIntentSourceRef where
  sourceId := sourceId
  kind := kind
  contentHash := hexText 64 contentHash
  capturedAt := js "2026-04-26T10:00:00.000Z"
  authorHandle := none
  inputFormat := none
  noteEntryId := none
  markdownSectionPath := none
  canonicalIssueKey := none
  redactedMarkdownHash := none
  plainTextDerivativeHash := none

def figmaSource : TestIntentSourceRef :=
  bareSource (js "src.0") .figmaRest
    0x5b79d0d574eedd091c02692026ecfa1c617af2432c0a9b401e623e67d78a179c

def jiraSource : TestIntentSourceRef :=
  bareSource (js "src.1") .jiraRest
    0x1e32847769dc4a1588004a1dfdf10041407a3494ae910bc76783917fffea7789

def priorityInput (sources : List TestIntentSourceRef) : EnvelopeInput where
  sources := sources
  conflictResolutionPolicy := .priority
  priorityOrder := some [.jiraRest, .figmaRest]
  sourceMixPlan := none

theorem build_priorityInput (sources : List TestIntentSourceRef) :
    (buildMultiSourceTestIntentEnvelope sha256 (priorityInput sources)).sources = sources ∧
      (buildMultiSourceTestIntentEnvelope sha256 (priorityInput sources)).conflictResolutionPolicy =
        .priority ∧
      (buildMultiSourceTestIntentEnvelope sha256 (priorityInput sources)).priorityOrder =
        some [.jiraRest, .figmaRest] := ⟨build_sources (priorityInput sources), rfl, rfl⟩

def envelopeDigests : List (Bytes × JsString) :=
  [(utf8Encode (canonicalJson (aggregateValue [figmaSource, jiraSource] .priority
      (some [.jiraRest, .figmaRest]))),
    hexText 64 0x659ba5692f20cd294a52ab3d64829e1e88c3d3310bd57377e868c69abb4d2a88)]

theorem isDigestTable_envelopeDigests : IsDigestTable envelopeDigests :=
  ⟨List.nodup_singleton _, by
    rw [envelopeDigests, List.forall_mem_singleton]
    decide⟩

theorem rules_bareSource {ref : TestIntentSourceRef} (h : ref = figmaSource ∨ ref = jiraSource) :
    ref.Rules := by
  rcases h with rfl | rfl
  · exact ⟨by decide, by decide, by decide, by rintro - ⟨⟩,
      ⟨rfl, rfl, rfl, rfl, rfl⟩, by rintro - ⟨⟩⟩
  · exact ⟨by decide, by decide, by decide, by rintro - ⟨⟩,
      ⟨rfl, rfl, rfl, rfl, rfl⟩, by rintro - ⟨⟩⟩

theorem conforms_priorityInput {sources : List TestIntentSourceRef}
    (h : sources.Perm [figmaSource, jiraSource]) : (priorityInput sources).Conforms := by
  have hmem : ∀ ref, ref ∈ sources ↔ ref = figmaSource ∨ ref = jiraSource := by
    intro ref
    rw [h.mem_iff]
    simp
  constructor
  · constructor
    · exact ⟨figmaSource, (hmem _).mpr (Or.inl rfl), rfl⟩
    · exact fun ref href ↦ rules_bareSource ((hmem ref).mp href)
    · exact (h.map _).nodup_iff.mpr (by decide)
    · exact (h.filterMap _).nodup_iff.mpr List.nodup_nil
  · intro _
    refine ⟨_, rfl, by decide, fun kind ↦ ?_⟩
    simp only [priorityInput, hmem]
    constructor
    · intro hkind
      rcases List.mem_pair.mp hkind with rfl | rfl
      · exact ⟨jiraSource, Or.inr rfl, rfl⟩
      · exact ⟨figmaSource, Or.inl rfl, rfl⟩
    · rintro ⟨ref, rfl | rfl, rfl⟩
      · simp [figmaSource, bareSource]
      · simp [jiraSource, bareSource]
  · rintro - ⟨⟩

theorem envelope_build_validate_hash_two :
    let sha256 := tabledSha256 envelopeDigests
    let envelope := buildMultiSourceTestIntentEnvelope sha256 (priorityInput [figmaSource, jiraSource])
    let swapped := buildMultiSourceTestIntentEnvelope sha256 (priorityInput [jiraSource, figmaSource])
    validateMultiSourceTestIntentEnvelope sha256 envelope.toJson = .ok envelope ∧
      envelope.aggregateContentHash = swapped.aggregateContentHash := by
  intro sha256 envelope swapped
  obtain ⟨haccepts, -, -, hhash⟩ :=
    envelope_build_validate_hash (tabledSha256_injective isDigestTable_envelopeDigests)
  have henvelope := haccepts _ (conforms_priorityInput (List.Perm.refl [figmaSource, jiraSource]))
  have hswapped := haccepts _ (conforms_priorityInput (List.Perm.swap figmaSource jiraSource []))
  obtain ⟨hsources, hpolicy, horder⟩ := @build_priorityInput sha256 [figmaSource, jiraSource]
  obtain ⟨hsources', hpolicy', horder'⟩ :=
    @build_priorityInput sha256 [jiraSource, figmaSource]
  refine ⟨henvelope, (hhash _ _ _ _ henvelope hswapped).mpr ⟨?_, ?_, ?_⟩⟩
  · rw [hsources, hsources']
    exact (List.Perm.swap jiraSource figmaSource []).map sourcePair
  · rw [hpolicy, hpolicy']
  · rw [horder, horder']

/-- The builder takes a custom note alone, and the validator asks for a primary source. -/
theorem build_custom_refused :
    ¬ ∀ (sha256 : Bytes → JsString) (input : EnvelopeInput), Function.Injective sha256 →
      ∃ envelope, validateMultiSourceTestIntentEnvelope sha256
        (buildMultiSourceTestIntentEnvelope sha256 input).toJson = .ok envelope := by
  intro h
  let note : TestIntentSourceRef :=
    { figmaSource with kind := .customText, inputFormat := some .plainText }
  have hinj := tabledSha256_injective isDigestTable_envelopeDigests
  obtain ⟨envelope, haccepted⟩ := h _ ⟨[note], .keepBoth, none, none⟩ hinj
  have hrules := eq_of_validate_toJson haccepted ▸ rules_of_validate haccepted
  obtain ⟨ref, href, hprimary⟩ := (rules_build_iff.mp hrules).sources.primary
  obtain rfl := List.mem_singleton.mp href
  cases hprimary

end TestIntelligence.MultiSource
