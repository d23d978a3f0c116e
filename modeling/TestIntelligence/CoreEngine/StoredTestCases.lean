import TestIntelligence.CoreEngine.ValidatorDrift
import TestIntelligence.Zod.Stored

/-!
# Stored test case lists

A list that the structural validator takes is taken again after it was stored.
-/

namespace TestIntelligence.CoreEngine

open Js Security
open Zod (ZodType Durable durable_of_scalar durable_array durable_strictObject)

theorem durable_strictFields {fields : List (String × ZodType)}
    (hproto : "__proto__" ∉ fields.map Prod.fst)
    (h : ∀ field ∈ fields, Durable field.2) : Durable (strictFields fields) := by
  have hkeys : protoKey ∉ (fieldsOf fields).map Prod.fst := by
    intro hmem
    apply hproto
    rw [← List.mem_map_of_injective js_injective]
    simpa [fieldsOf, protoKey] using hmem
  apply durable_strictObject hkeys
  intro field hfield
  obtain ⟨original, horiginal, rfl⟩ := List.mem_map.mp hfield
  exact h original horiginal

/-! ## Scalars -/

theorem durable_string_check (test : Json → Bool) : Durable (Zod.string.check test) :=
  durable_of_scalar (fun _ ↦ rfl) (fun _ ↦ rfl)

theorem durable_string : Durable Zod.string :=
  durable_of_scalar (fun _ ↦ rfl) (fun _ ↦ rfl)

theorem durable_boolean : Durable Zod.boolean :=
  durable_of_scalar (fun _ ↦ rfl) (fun _ ↦ rfl)

theorem durable_literal (text : JsString) : Durable (Zod.literal text) :=
  durable_of_scalar (fun _ ↦ rfl) (fun _ ↦ rfl)

theorem durable_enum (texts : List JsString) : Durable (Zod.enum texts) :=
  durable_of_scalar (fun _ ↦ rfl) (fun _ ↦ rfl)

theorem durable_isNumberWith (check : JsNumber → Bool) : Durable (isNumberWith check) :=
  durable_of_scalar (fun _ ↦ rfl) (fun _ ↦ rfl)

theorem durable_text : Durable zText := durable_string_check _

theorem durable_hash : Durable zHash := durable_string_check _

theorem durable_texts : Durable zTexts := durable_array durable_string

theorem durable_text_maxLength (n : ℕ) : Durable (zText.maxLength n) :=
  durable_of_scalar (fun _ ↦ rfl) (fun _ ↦ rfl)

/-! ## Objects -/

theorem durable_step : Durable (strictFields (stepFields validatorDialect)) := by
  apply durable_strictFields (by simp [stepFields])
  simp only [stepFields, List.forall_mem_cons]
  exact ⟨durable_isNumberWith _, durable_text, durable_text.optional, durable_text.optional,
    durable_text.optional, by simp⟩

theorem durable_traceRef : Durable (strictFields (traceRefFields validatorDialect)) := by
  apply durable_strictFields (by simp [traceRefFields])
  simp only [traceRefFields, List.forall_mem_cons]
  exact ⟨durable_text, durable_text.optional, durable_text.optional, durable_text.optional, by simp⟩

theorem durable_qcMapping : Durable (strictFields (qcMappingFields validatorDialect)) := by
  apply durable_strictFields (by simp [qcMappingFields])
  simp only [qcMappingFields, List.forall_mem_cons]
  exact ⟨durable_text.optional, durable_text.optional, (durable_literal _).optional,
    durable_boolean, (durable_array durable_string).optional, by simp⟩

theorem durable_ambiguity : Durable (strictFields ambiguityFields) := by
  apply durable_strictFields (by simp [ambiguityFields])
  simp only [ambiguityFields, List.forall_mem_cons]
  exact ⟨durable_text, by simp⟩

theorem durable_qualitySignals : Durable (strictFields (qualitySignalFields validatorDialect)) := by
  apply durable_strictFields (by simp [qualitySignalFields])
  simp only [qualitySignalFields, List.forall_mem_cons]
  exact ⟨durable_texts, durable_texts, durable_texts, durable_texts, durable_texts.optional,
    durable_isNumberWith _, durable_ambiguity.optional, by simp⟩

theorem durable_confidenceComponents :
    Durable (strictFields (confidenceComponentFields validatorDialect)) := by
  apply durable_strictFields (by simp [confidenceComponentFields])
  simp only [confidenceComponentFields, List.forall_mem_cons]
  exact ⟨durable_isNumberWith _, durable_isNumberWith _, durable_isNumberWith _,
    durable_isNumberWith _, durable_boolean, durable_isNumberWith _, by simp⟩

theorem durable_snapshotSource : Durable (strictFields (snapshotSourceFields validatorDialect)) := by
  apply durable_strictFields (by simp [snapshotSourceFields])
  simp only [snapshotSourceFields, List.forall_mem_cons]
  exact ⟨durable_text, durable_hash, durable_hash, durable_hash, durable_array durable_string,
    durable_array durable_string, durable_array durable_string, by simp⟩

theorem durable_audit : Durable (strictFields (auditFields validatorDialect)) := by
  apply durable_strictFields (by simp [auditFields])
  simp only [auditFields, List.forall_mem_cons]
  exact ⟨durable_text, durable_string_check _, durable_literal _, durable_literal _,
    durable_literal _, durable_text, durable_text, durable_boolean, durable_text, durable_hash,
    durable_hash, durable_hash, (durable_isNumberWith _).optional,
    durable_snapshotSource.optional, by simp⟩

theorem durable_regulatoryRelevance : Durable (strictFields regulatoryRelevanceFields) := by
  apply durable_strictFields (by simp [regulatoryRelevanceFields])
  simp only [regulatoryRelevanceFields, List.forall_mem_cons]
  exact ⟨durable_enum _, durable_text_maxLength _, by simp⟩

theorem durable_testCase : Durable (strictFields (testCaseFields validatorDialect)) := by
  apply durable_strictFields (by simp [testCaseFields])
  simp only [testCaseFields, List.forall_mem_cons]
  exact ⟨durable_text, durable_text, durable_literal _, durable_literal _, durable_literal _,
    durable_text, durable_text, durable_enum _, durable_enum _, (durable_enum _).optional,
    (durable_enum _).optional, durable_enum _, durable_enum _, durable_enum _, durable_texts,
    durable_texts, (durable_array durable_step).minItems 1, durable_texts,
    durable_array durable_traceRef, durable_texts, durable_texts, durable_qcMapping,
    durable_qualitySignals, (durable_isNumberWith _).optional,
    durable_confidenceComponents.optional, durable_enum _, durable_audit,
    durable_regulatoryRelevance.optional, by simp⟩

theorem durable_list : Durable (listSchema validatorDialect) := by
  apply durable_strictFields (by simp [listFields])
  simp only [listFields, List.forall_mem_cons]
  exact ⟨durable_literal _, durable_text, durable_array durable_testCase, by simp⟩

/-! ## Lists -/

/-- A valid list is an object, keeps its keys in a file and is valid there. -/
theorem valid_stored {testCases : Json} (hordered : testCases.Ordered)
    (hplain : testCases.PlainNumbers)
    (hvalid : (validateGeneratedTestCaseList testCases).valid = true) :
    ProtoFree testCases ∧ (validateGeneratedTestCaseList (stored testCases)).valid = true := by
  rw [validateGeneratedTestCaseList_valid_iff] at hvalid ⊢
  exact durable_list testCases hordered hplain hvalid

end TestIntelligence.CoreEngine
