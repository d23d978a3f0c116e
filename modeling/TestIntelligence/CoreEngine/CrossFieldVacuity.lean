import TestIntelligence.CoreEngine.CrossFieldInvariants
import Mathlib.Data.List.Forall2
import Mathlib.Logic.Relation

/-!
# Satisfied and vacuous invariants

Whether an expression is satisfied does not depend on the order of the operands.  Whether it is
vacuous may: an `or` reports the flag of its first satisfied operand, and `not` passes a flag on
to a result that is not satisfied.  The flags that the orders of the operands can give are
computed from the expression, and with them the exact condition under which the flag is that of
a satisfied rule in every order.
-/

namespace TestIntelligence.CoreEngine

open Js

/-- A reordering of the operands of one node. -/
inductive Permutes : InvariantBoolExpr → InvariantBoolExpr → Prop
  | and {operands operands' : List InvariantBoolExpr} (h : operands.Perm operands') :
      Permutes (.and operands) (.and operands')
  | or {operands operands' : List InvariantBoolExpr} (h : operands.Perm operands') :
      Permutes (.or operands) (.or operands')
  | inAnd (before after : List InvariantBoolExpr) {expr expr' : InvariantBoolExpr}
      (h : Permutes expr expr') :
      Permutes (.and (before ++ expr :: after)) (.and (before ++ expr' :: after))
  | inOr (before after : List InvariantBoolExpr) {expr expr' : InvariantBoolExpr}
      (h : Permutes expr expr') :
      Permutes (.or (before ++ expr :: after)) (.or (before ++ expr' :: after))
  | inNot {expr expr' : InvariantBoolExpr} (h : Permutes expr expr') :
      Permutes (.not expr) (.not expr')
  | inAntecedent (consequent : InvariantBoolExpr) {expr expr' : InvariantBoolExpr}
      (h : Permutes expr expr') : Permutes (.implies expr consequent) (.implies expr' consequent)
  | inConsequent (antecedent : InvariantBoolExpr) {expr expr' : InvariantBoolExpr}
      (h : Permutes expr expr') : Permutes (.implies antecedent expr) (.implies antecedent expr')

/-- Reorderings of operands at any depth. -/
abbrev Permuted : InvariantBoolExpr → InvariantBoolExpr → Prop := Relation.ReflTransGen Permutes

/-- The result and the flags that the orders of the operands can give. -/
structure Outlook where
  satisfied : Bool
  canBeVacuous : Bool
  canBePlain : Bool
  deriving DecidableEq, Repr

namespace Outlook

def ofAnd (operands : List Outlook) : Outlook :=
  if operands.all (·.satisfied) then
    ⟨true, !operands.isEmpty && operands.all (·.canBeVacuous),
      operands.isEmpty || operands.any (·.canBePlain)⟩
  else ⟨false, false, true⟩

def ofOr (operands : List Outlook) : Outlook :=
  if operands.any (·.satisfied) then
    ⟨true, operands.any fun operand ↦ operand.satisfied && operand.canBeVacuous,
      operands.any fun operand ↦ operand.satisfied && operand.canBePlain⟩
  else
    ⟨false, !operands.isEmpty && operands.all (·.canBeVacuous),
      operands.isEmpty || operands.any (·.canBePlain)⟩

def ofNot (operand : Outlook) : Outlook :=
  { operand with satisfied := !operand.satisfied }

def ofImplies (antecedent consequent : Outlook) : Outlook :=
  if antecedent.satisfied then ⟨consequent.satisfied, false, true⟩ else ⟨true, true, false⟩

/-- The flag is one of those that can be given. -/
def Attains (outlook : Outlook) (vacuous : Bool) : Prop :=
  (if vacuous then outlook.canBeVacuous else outlook.canBePlain) = true

/-- Only one flag can be given, and the flag of a vacuous result only to a satisfied one. -/
def Settled (outlook : Outlook) : Prop :=
  (outlook.canBeVacuous && outlook.canBePlain) = false ∧
    (outlook.canBeVacuous = true → outlook.satisfied = true)

end Outlook

section

variable (text : TextFunctions) (valuation : CrossFieldValuation)

/-- No sub-expression throws. -/
inductive Clean : InvariantBoolExpr → Prop
  | leaf {leaf : InvariantLeaf} {satisfied : Bool}
      (h : evaluateLeaf text valuation leaf = .ok satisfied) : Clean (.leaf leaf)
  | and {operands : List InvariantBoolExpr} (h : ∀ operand ∈ operands, Clean operand) :
      Clean (.and operands)
  | or {operands : List InvariantBoolExpr} (h : ∀ operand ∈ operands, Clean operand) :
      Clean (.or operands)
  | not {operand : InvariantBoolExpr} (h : Clean operand) : Clean (.not operand)
  | implies {antecedent consequent : InvariantBoolExpr} (ha : Clean antecedent)
      (hc : Clean consequent) : Clean (.implies antecedent consequent)

mutual

def outlook : InvariantBoolExpr → Outlook
  | .leaf leaf => ⟨(evaluateLeaf text valuation leaf).toOption.getD false, false, true⟩
  | .and operands => .ofAnd (outlooks operands)
  | .or operands => .ofOr (outlooks operands)
  | .not operand => .ofNot (outlook operand)
  | .implies antecedent consequent => .ofImplies (outlook antecedent) (outlook consequent)

def outlooks : List InvariantBoolExpr → List Outlook
  | [] => []
  | operand :: operands => outlook operand :: outlooks operands

end

/-- What the evaluation of an invariant promises. -/
structure Regular (localeCompare : JsString → JsString → ℤ) (expr : InvariantBoolExpr) :
    Prop where
  permuted : ∀ expr', Permuted expr expr' →
    evaluateBoolExpr text valuation expr' = evaluateBoolExpr text valuation expr
  vacuous : ∀ result, evaluateBoolExpr text valuation expr = .ok result →
    result.vacuous = true → result.satisfied = true
  fields : ∀ valuation' : CrossFieldValuation,
    (∀ name ∈ collectInvariantFieldRefs localeCompare expr, valuation' name = valuation name) →
    evaluateBoolExpr text valuation' expr = evaluateBoolExpr text valuation expr

end

/-! ## The loops over the operands -/

/-- The loop of `and`, which expects satisfied operands, and the loop of `or`. -/
def runResults (expected vacuousAll : Bool) :
    List (Except InvariantError InvariantResult) → Except InvariantError InvariantResult
  | [] => .ok ⟨expected, vacuousAll⟩
  | child :: children => do
      let child ← child
      if child.satisfied = expected then
        runResults expected (vacuousAll && child.vacuous) children
      else return ⟨!expected, !expected && child.vacuous⟩

section

variable {expected vacuousAll : Bool} {results before after : List InvariantResult}
  {result : InvariantResult}

theorem runResults_expected (h : ∀ result ∈ results, result.satisfied = expected) :
    runResults expected vacuousAll (results.map .ok) =
      .ok ⟨expected, vacuousAll && results.all (·.vacuous)⟩ := by
  induction results generalizing vacuousAll with
  | nil => simp [runResults]
  | cons result results ih =>
      obtain ⟨hresult, hresults⟩ := List.forall_mem_cons.mp h
      rw [List.map_cons, runResults]
      change (if result.satisfied = expected then
        runResults expected (vacuousAll && result.vacuous) (results.map .ok) else _) = _
      rw [if_pos hresult, ih hresults, List.all_cons, Bool.and_assoc]

theorem runResults_stops (h : ∀ result ∈ before, result.satisfied = expected)
    (hresult : result.satisfied ≠ expected) :
    runResults expected vacuousAll ((before ++ result :: after).map .ok) =
      .ok ⟨!expected, !expected && result.vacuous⟩ := by
  induction before generalizing vacuousAll with
  | nil =>
      change (if result.satisfied = expected then _ else _) = _
      rw [if_neg hresult]
      rfl
  | cons first before ih =>
      obtain ⟨hfirst, hbefore⟩ := List.forall_mem_cons.mp h
      change (if first.satisfied = expected then runResults expected
        (vacuousAll && first.vacuous) ((before ++ result :: after).map .ok) else _) = _
      rw [if_pos hfirst]
      exact ih hbefore

/-- The loop goes through all results, or stops at the first that it does not expect. -/
theorem runResults_cases (expected vacuousAll : Bool) (results : List InvariantResult) :
    ((∀ result ∈ results, result.satisfied = expected) ∧
      runResults expected vacuousAll (results.map .ok) =
        .ok ⟨expected, vacuousAll && results.all (·.vacuous)⟩) ∨
    ∃ result ∈ results, result.satisfied ≠ expected ∧
      runResults expected vacuousAll (results.map .ok) =
        .ok ⟨!expected, !expected && result.vacuous⟩ := by
  by_cases h : ∀ result ∈ results, result.satisfied = expected
  · exact .inl ⟨h, runResults_expected h⟩
  · right
    cases hfind : results.find? (fun result ↦ decide (result.satisfied ≠ expected)) with
    | none =>
        refine absurd (fun result hmem ↦ ?_) h
        simpa using List.find?_eq_none.mp hfind result hmem
    | some result =>
        obtain ⟨hresult, before, after, rfl, hbefore⟩ := List.find?_eq_some_iff_append.mp hfind
        have hne : result.satisfied ≠ expected := of_decide_eq_true hresult
        refine ⟨result, by simp, hne, runResults_stops (fun r hr ↦ ?_) hne⟩
        simpa using hbefore r hr

end

section

variable {text : TextFunctions} {valuation : CrossFieldValuation}
  {operands operands' : List InvariantBoolExpr} {expr expr' : InvariantBoolExpr}

theorem evaluateAnd_eq (vacuousAll : Bool) (operands : List InvariantBoolExpr) :
    evaluateAnd text valuation vacuousAll operands =
      runResults true vacuousAll (operands.map (evaluateBoolExpr text valuation)) := by
  induction operands generalizing vacuousAll with
  | nil => simp [evaluateAnd, runResults]
  | cons operand operands ih =>
      rw [evaluateAnd, List.map_cons, runResults]
      cases evaluateBoolExpr text valuation operand with
      | error error => rfl
      | ok child =>
          change (if !child.satisfied then _ else evaluateAnd text valuation _ operands) =
            (if child.satisfied = true then _ else _)
          rw [ih]
          cases child.satisfied <;> rfl

theorem evaluateOr_eq (vacuousAll : Bool) (operands : List InvariantBoolExpr) :
    evaluateOr text valuation vacuousAll operands =
      runResults false vacuousAll (operands.map (evaluateBoolExpr text valuation)) := by
  induction operands generalizing vacuousAll with
  | nil => simp [evaluateOr, runResults]
  | cons operand operands ih =>
      rw [evaluateOr, List.map_cons, runResults]
      cases evaluateBoolExpr text valuation operand with
      | error error => rfl
      | ok child =>
          change (if child.satisfied then _ else evaluateOr text valuation _ operands) =
            (if child.satisfied = false then _ else _)
          rw [ih]
          cases child.satisfied <;> rfl

theorem outlooks_eq (operands : List InvariantBoolExpr) :
    outlooks text valuation operands = operands.map (outlook text valuation) := by
  induction operands with
  | nil => rw [outlooks, List.map_nil]
  | cons operand operands ih => rw [outlooks, ih, List.map_cons]

/-! ## Every result is within the outlook -/

/-- The results of the operands, each within the outlook of its operand. -/
def Within (text : TextFunctions) (valuation : CrossFieldValuation)
    (operand : InvariantBoolExpr) (result : InvariantResult) : Prop :=
  result.satisfied = (outlook text valuation operand).satisfied ∧
    (outlook text valuation operand).Attains result.vacuous

/-- The result of an expression without errors. -/
def Evaluates (text : TextFunctions) (valuation : CrossFieldValuation)
    (expr : InvariantBoolExpr) : Prop :=
  ∃ result, evaluateBoolExpr text valuation expr = .ok result ∧
    Within text valuation expr result

theorem exists_results (h : ∀ operand ∈ operands, Evaluates text valuation operand) :
    ∃ results, operands.map (evaluateBoolExpr text valuation) = results.map .ok ∧
      List.Forall₂ (Within text valuation) operands results := by
  induction operands with
  | nil => exact ⟨[], rfl, .nil⟩
  | cons operand operands ih =>
      obtain ⟨⟨result, heval, hwithin⟩, hrest⟩ := List.forall_mem_cons.mp h
      obtain ⟨results, hmap, hall⟩ := ih hrest
      exact ⟨result :: results, by rw [List.map_cons, List.map_cons, heval, hmap],
        .cons hwithin hall⟩

section

variable {results : List InvariantResult}

theorem forall_within (h : List.Forall₂ (Within text valuation) operands results)
    {result : InvariantResult} (hmem : result ∈ results) :
    ∃ operand ∈ operands, Within text valuation operand result := by
  induction h with
  | nil => cases hmem
  | cons hwithin _ ih =>
      rcases List.mem_cons.mp hmem with rfl | hmem
      · exact ⟨_, List.mem_cons_self, hwithin⟩
      · obtain ⟨operand, hoperand, hwithin⟩ := ih hmem
        exact ⟨operand, List.mem_cons_of_mem _ hoperand, hwithin⟩

theorem exists_within (h : List.Forall₂ (Within text valuation) operands results)
    {operand : InvariantBoolExpr} (hmem : operand ∈ operands) :
    ∃ result ∈ results, Within text valuation operand result := by
  induction h with
  | nil => cases hmem
  | cons hwithin _ ih =>
      rcases List.mem_cons.mp hmem with rfl | hmem
      · exact ⟨_, List.mem_cons_self, hwithin⟩
      · obtain ⟨result, hresult, hwithin⟩ := ih hmem
        exact ⟨result, List.mem_cons_of_mem _ hresult, hwithin⟩

/-- A loop that meets no surprise gives a flag that all operands can give together. -/
theorem attains_all (h : List.Forall₂ (Within text valuation) operands results)
    (hne : operands ≠ []) :
    (if results.all (·.vacuous) then
      !(operands.map (outlook text valuation)).isEmpty &&
        (operands.map (outlook text valuation)).all (·.canBeVacuous)
    else (operands.map (outlook text valuation)).isEmpty ||
      (operands.map (outlook text valuation)).any (·.canBePlain)) = true := by
  cases hall : results.all (·.vacuous) with
  | true =>
      rw [if_pos rfl, Bool.and_eq_true]
      refine ⟨by simpa using hne, List.all_eq_true.mpr fun o ho ↦ ?_⟩
      obtain ⟨operand, hoperand, rfl⟩ := List.mem_map.mp ho
      obtain ⟨result, hresult, -, hattains⟩ := exists_within h hoperand
      rwa [Outlook.Attains, List.all_eq_true.mp hall result hresult, if_pos rfl] at hattains
  | false =>
      rw [if_neg Bool.false_ne_true, Bool.or_eq_true]
      obtain ⟨result, hresult, hplain⟩ := List.all_eq_false.mp hall
      obtain ⟨operand, hoperand, -, hattains⟩ := forall_within h hresult
      rw [Outlook.Attains, if_neg hplain] at hattains
      exact .inr (List.any_eq_true.mpr ⟨_, List.mem_map.mpr ⟨operand, hoperand, rfl⟩, hattains⟩)

end

theorem evaluates_and (h : ∀ operand ∈ operands, Evaluates text valuation operand) :
    Evaluates text valuation (.and operands) := by
  obtain ⟨results, hmap, hwithin⟩ := exists_results h
  simp only [Evaluates, Within, evaluateBoolExpr, outlook, outlooks_eq, evaluateAnd_eq, hmap]
  by_cases hne : operands = []
  · subst hne
    exact ⟨_, rfl, rfl, rfl⟩
  · rw [if_pos (List.length_pos_iff.mpr hne)]
    rcases runResults_cases true true results with ⟨hall, hrun⟩ | ⟨result, hresult, hunsat, hrun⟩
    · have hsat : (operands.map (outlook text valuation)).all (·.satisfied) = true := by
        refine List.all_eq_true.mpr fun o ho ↦ ?_
        obtain ⟨operand, hoperand, rfl⟩ := List.mem_map.mp ho
        obtain ⟨result, hresult, hsame, -⟩ := exists_within hwithin hoperand
        rw [← hsame, hall result hresult]
      rw [Outlook.ofAnd, if_pos hsat]
      exact ⟨_, hrun, rfl, attains_all hwithin hne⟩
    · have hsat : (operands.map (outlook text valuation)).all (·.satisfied) ≠ true := by
        intro hsat
        obtain ⟨operand, hoperand, hsame, -⟩ := forall_within hwithin hresult
        exact hunsat (hsame.trans (List.all_eq_true.mp hsat _ (List.mem_map_of_mem hoperand)))
      rw [Outlook.ofAnd, if_neg hsat]
      exact ⟨_, hrun, rfl, rfl⟩

theorem evaluates_or (h : ∀ operand ∈ operands, Evaluates text valuation operand) :
    Evaluates text valuation (.or operands) := by
  obtain ⟨results, hmap, hwithin⟩ := exists_results h
  simp only [Evaluates, Within, evaluateBoolExpr, outlook, outlooks_eq, evaluateOr_eq, hmap]
  by_cases hne : operands = []
  · subst hne
    exact ⟨_, rfl, rfl, rfl⟩
  · rw [if_pos (List.length_pos_iff.mpr hne)]
    rcases runResults_cases false true results with ⟨hall, hrun⟩ | ⟨result, hresult, hsat, hrun⟩
    · have hunsat : (operands.map (outlook text valuation)).any (·.satisfied) ≠ true := by
        intro hsat
        obtain ⟨o, ho, hsat⟩ := List.any_eq_true.mp hsat
        obtain ⟨operand, hoperand, rfl⟩ := List.mem_map.mp ho
        obtain ⟨result, hresult, hsame, -⟩ := exists_within hwithin hoperand
        rw [← hsame, hall result hresult] at hsat
        cases hsat
      rw [Outlook.ofOr, if_neg hunsat]
      exact ⟨_, hrun, rfl, attains_all hwithin hne⟩
    · obtain ⟨operand, hoperand, hsame, hattains⟩ := forall_within hwithin hresult
      have hoperand' := List.mem_map_of_mem (f := outlook text valuation) hoperand
      have htrue : (outlook text valuation operand).satisfied = true := by
        rw [← hsame]
        exact (Bool.not_eq_false _).mp hsat
      have hany : (operands.map (outlook text valuation)).any (·.satisfied) = true :=
        List.any_eq_true.mpr ⟨_, hoperand', htrue⟩
      rw [Outlook.ofOr, if_pos hany]
      refine ⟨_, hrun, rfl, ?_⟩
      rw [Outlook.Attains] at hattains ⊢
      cases hvacuous : result.vacuous with
      | true =>
          rw [hvacuous] at hattains
          exact List.any_eq_true.mpr ⟨_, hoperand', by rw [htrue]; exact hattains⟩
      | false =>
          rw [hvacuous] at hattains
          exact List.any_eq_true.mpr ⟨_, hoperand', by rw [htrue]; exact hattains⟩

theorem evaluates_of_clean (h : Clean text valuation expr) : Evaluates text valuation expr := by
  induction h with
  | @leaf leaf satisfied hleaf =>
      refine ⟨⟨satisfied, false⟩, ?_, ?_, ?_⟩
      · rw [evaluateBoolExpr, hleaf]
        rfl
      · rw [outlook, hleaf]
        rfl
      · rw [outlook]
        rfl
  | and _ ih => exact evaluates_and ih
  | or _ ih => exact evaluates_or ih
  | @not operand _ ih =>
      obtain ⟨result, heval, hsame, hattains⟩ := ih
      refine ⟨⟨!result.satisfied, result.vacuous⟩, ?_, ?_, ?_⟩
      · rw [evaluateBoolExpr, heval]
        rfl
      · rw [outlook, Outlook.ofNot, hsame]
      · rw [outlook]
        exact hattains
  | @implies antecedent consequent _ _ iha ihc =>
      obtain ⟨result, heval, hsame, -⟩ := iha
      obtain ⟨result', heval', hsame', -⟩ := ihc
      simp only [Evaluates, Within, evaluateBoolExpr, outlook, heval, heval', Outlook.ofImplies,
        ← hsame, ← hsame']
      cases hsat : result.satisfied with
      | true =>
          refine ⟨⟨result'.satisfied, false⟩, ?_, rfl, rfl⟩
          change (if !result.satisfied then _ else _) = _
          rw [hsat]
          rfl
      | false =>
          refine ⟨⟨true, true⟩, ?_, rfl, rfl⟩
          change (if !result.satisfied then _ else _) = _
          rw [hsat]
          rfl

/-! ## Reorderings -/

theorem all_congr_of_perm {os os' : List Outlook} (h : os.Perm os') (p : Outlook → Bool) :
    os.all p = os'.all p := by
  rw [Bool.eq_iff_iff, List.all_eq_true, List.all_eq_true]
  exact forall_congr' fun o ↦ by rw [h.mem_iff]

theorem any_congr_of_perm {os os' : List Outlook} (h : os.Perm os') (p : Outlook → Bool) :
    os.any p = os'.any p := by
  rw [Bool.eq_iff_iff, List.any_eq_true, List.any_eq_true]
  exact exists_congr fun o ↦ by rw [h.mem_iff]

theorem isEmpty_congr_of_perm {os os' : List Outlook} (h : os.Perm os') :
    os.isEmpty = os'.isEmpty := by
  rw [Bool.eq_iff_iff, List.isEmpty_iff_length_eq_zero, List.isEmpty_iff_length_eq_zero,
    h.length_eq]

theorem outlook_of_permutes (h : Permutes expr expr') :
    outlook text valuation expr' = outlook text valuation expr := by
  induction h with
  | and h =>
      have hmap := h.symm.map (outlook text valuation)
      simp only [outlook, outlooks_eq, Outlook.ofAnd, all_congr_of_perm hmap,
        any_congr_of_perm hmap, isEmpty_congr_of_perm hmap]
  | or h =>
      have hmap := h.symm.map (outlook text valuation)
      simp only [outlook, outlooks_eq, Outlook.ofOr, all_congr_of_perm hmap,
        any_congr_of_perm hmap, isEmpty_congr_of_perm hmap]
  | inAnd before after _ ih | inOr before after _ ih =>
      simp only [outlook, outlooks_eq, List.map_append, List.map_cons, ih]
  | inNot _ ih => simp only [outlook, ih]
  | inAntecedent consequent _ ih | inConsequent antecedent _ ih => simp only [outlook, ih]

theorem clean_of_permutes (h : Permutes expr expr') (hclean : Clean text valuation expr) :
    Clean text valuation expr' := by
  induction h with
  | and h =>
      cases hclean with
      | and hclean => exact .and fun operand hmem ↦ hclean operand (h.mem_iff.mpr hmem)
  | or h =>
      cases hclean with
      | or hclean => exact .or fun operand hmem ↦ hclean operand (h.mem_iff.mpr hmem)
  | inAnd before after _ ih =>
      cases hclean with
      | and hclean =>
          rw [List.forall_mem_append, List.forall_mem_cons] at hclean
          refine .and (List.forall_mem_append.mpr ⟨hclean.1, ?_⟩)
          exact List.forall_mem_cons.mpr ⟨ih hclean.2.1, hclean.2.2⟩
  | inOr before after _ ih =>
      cases hclean with
      | or hclean =>
          rw [List.forall_mem_append, List.forall_mem_cons] at hclean
          refine .or (List.forall_mem_append.mpr ⟨hclean.1, ?_⟩)
          exact List.forall_mem_cons.mpr ⟨ih hclean.2.1, hclean.2.2⟩
  | inNot _ ih =>
      cases hclean with
      | not hclean => exact .not (ih hclean)
  | inAntecedent consequent _ ih =>
      cases hclean with
      | implies ha hc => exact .implies (ih ha) hc
  | inConsequent antecedent _ ih =>
      cases hclean with
      | implies ha hc => exact .implies ha (ih hc)

/-- A reordered expression has no errors either, and the same outlook. -/
theorem evaluates_of_permuted (h : Permuted expr expr') (hclean : Clean text valuation expr) :
    Evaluates text valuation expr' ∧
      outlook text valuation expr' = outlook text valuation expr := by
  have hboth : Clean text valuation expr' ∧
      outlook text valuation expr' = outlook text valuation expr := by
    induction h with
    | refl => exact ⟨hclean, rfl⟩
    | tail _ hstep ih =>
        exact ⟨clean_of_permutes hstep ih.1, (outlook_of_permutes hstep).trans ih.2⟩
  exact ⟨evaluates_of_clean hboth.1, hboth.2⟩

/-! ## Every flag of the outlook is reached -/

/-- Reorderings inside the operands are reorderings of the node. -/
theorem permuted_of_forall₂ {node : List InvariantBoolExpr → InvariantBoolExpr}
    (hnode : ∀ before after expr expr', Permutes expr expr' →
      Permutes (node (before ++ expr :: after)) (node (before ++ expr' :: after)))
    (h : List.Forall₂ Permuted operands operands') : Permuted (node operands) (node operands') := by
  suffices hsuffix : ∀ before, Permuted (node (before ++ operands)) (node (before ++ operands')) by
    exact hsuffix []
  induction h with
  | nil => exact fun before ↦ .refl
  | @cons operand operand' operands operands' hoperand _ ih =>
      intro before
      have hhead : Permuted (node (before ++ operand :: operands))
          (node (before ++ operand' :: operands)) := by
        induction hoperand with
        | refl => exact .refl
        | tail _ hstep ih => exact ih.tail (hnode before operands _ _ hstep)
      have htail := ih (before ++ [operand'])
      rw [List.append_assoc, List.append_assoc, List.singleton_append,
        List.singleton_append] at htail
      exact hhead.trans htail

/-- Some order of the operands gives the flag. -/
def Reaches (text : TextFunctions) (valuation : CrossFieldValuation) (expr : InvariantBoolExpr)
    (vacuous : Bool) : Prop :=
  ∃ expr', Permuted expr expr' ∧ evaluateBoolExpr text valuation expr' =
    .ok ⟨(outlook text valuation expr).satisfied, vacuous⟩

/-- The operands can be reordered to give one flag each. -/
theorem exists_reordered {flags : List Bool}
    (h : List.Forall₂ (Reaches text valuation) operands flags) {expected : Bool}
    (hsat : ∀ operand ∈ operands, (outlook text valuation operand).satisfied = expected) :
    ∃ operands', List.Forall₂ Permuted operands operands' ∧
      runResults expected true (operands'.map (evaluateBoolExpr text valuation)) =
        .ok ⟨expected, flags.all id⟩ := by
  have hresults : ∃ operands', List.Forall₂ Permuted operands operands' ∧
      operands'.map (evaluateBoolExpr text valuation) =
        (flags.map (InvariantResult.mk expected)).map .ok := by
    induction h with
    | nil => exact ⟨[], .nil, rfl⟩
    | cons hreaches _ ih =>
        obtain ⟨operand', hpermuted, heval⟩ := hreaches
        obtain ⟨hfirst, hrest⟩ := List.forall_mem_cons.mp hsat
        obtain ⟨operands', hall, hmap⟩ := ih hrest
        refine ⟨operand' :: operands', .cons hpermuted hall, ?_⟩
        rw [List.map_cons, List.map_cons, List.map_cons, heval, hmap, hfirst]
  obtain ⟨operands', hpermuted, hmap⟩ := hresults
  refine ⟨operands', hpermuted, ?_⟩
  have hexpected : ∀ result ∈ flags.map (InvariantResult.mk expected),
      result.satisfied = expected := by
    intro result hresult
    obtain ⟨flag, -, rfl⟩ := List.mem_map.mp hresult
    rfl
  rw [hmap, runResults_expected hexpected, List.all_map, Bool.true_and]
  rfl

/-- Flags of the operands that together give a flag of the node. -/
theorem exists_flags {vacuous : Bool}
    (hreach : ∀ operand ∈ operands, ∀ flag,
      (outlook text valuation operand).Attains flag → Reaches text valuation operand flag)
    (hsome : ∀ operand ∈ operands, Evaluates text valuation operand) (hne : operands ≠ [])
    (h : (if vacuous then
      !(operands.map (outlook text valuation)).isEmpty &&
        (operands.map (outlook text valuation)).all (·.canBeVacuous)
    else (operands.map (outlook text valuation)).isEmpty ||
      (operands.map (outlook text valuation)).any (·.canBePlain)) = true) :
    ∃ flags, List.Forall₂ (Reaches text valuation) operands flags ∧ flags.all id = vacuous := by
  cases vacuous with
  | true =>
      rw [if_pos rfl, Bool.and_eq_true] at h
      have hall := List.all_eq_true.mp h.2
      refine ⟨operands.map fun _ ↦ true, ?_, by simp⟩
      rw [List.forall₂_map_right_iff, List.forall₂_same]
      exact fun operand hmem ↦ hreach operand hmem true (hall _ (List.mem_map_of_mem hmem))
  | false =>
      rw [if_neg Bool.false_ne_true, Bool.or_eq_true] at h
      have hany := h.resolve_left (by simpa using hne)
      clear h hne
      induction operands with
      | nil => cases hany
      | cons operand operands ih =>
          obtain ⟨hfirst, hrest⟩ := List.forall_mem_cons.mp hreach
          obtain ⟨⟨result, -, -, hattains⟩, hsome'⟩ := List.forall_mem_cons.mp hsome
          rw [List.map_cons, List.any_cons, Bool.or_eq_true] at hany
          rcases hany with hplain | hany
          · have hflags : ∃ flags, List.Forall₂ (Reaches text valuation) operands flags := by
              clear ih
              induction operands with
              | nil => exact ⟨[], .nil⟩
              | cons next operands ih =>
                  obtain ⟨hnext, hrest⟩ := List.forall_mem_cons.mp hrest
                  obtain ⟨⟨result, -, -, hattains⟩, hsome'⟩ := List.forall_mem_cons.mp hsome'
                  obtain ⟨flags, hflags⟩ := ih (List.forall_mem_cons.mpr ⟨hfirst, hrest⟩)
                    (List.forall_mem_cons.mpr ⟨hsome operand List.mem_cons_self, hsome'⟩)
                    hrest hsome'
                  exact ⟨_, .cons (hnext _ hattains) hflags⟩
            obtain ⟨flags, hflags⟩ := hflags
            exact ⟨_, .cons (hfirst false hplain) hflags, by simp⟩
          · obtain ⟨flags, hflags, hfalse⟩ := ih hrest hsome' hany
            exact ⟨_, .cons (hfirst _ hattains) hflags, by rw [List.all_cons, hfalse, Bool.and_false]⟩

theorem reaches_self (h : Evaluates text valuation expr) {vacuous : Bool}
    (hattains : (outlook text valuation expr).Attains vacuous)
    (hone : ¬ (outlook text valuation expr).Attains !vacuous) :
    Reaches text valuation expr vacuous := by
  obtain ⟨⟨satisfied, flag⟩, heval, rfl, hflag⟩ := h
  have hsame : flag = vacuous := by
    by_contra hne
    have hother : flag = !vacuous := by
      cases flag <;> cases vacuous <;> simp_all
    exact hone (hother ▸ hflag)
  exact ⟨expr, .refl, hsame ▸ heval⟩

theorem outlook_and_of_satisfied
    (h : (operands.map (outlook text valuation)).all (·.satisfied) = true) :
    outlook text valuation (.and operands) =
      ⟨true, !(operands.map (outlook text valuation)).isEmpty &&
          (operands.map (outlook text valuation)).all (·.canBeVacuous),
        (operands.map (outlook text valuation)).isEmpty ||
          (operands.map (outlook text valuation)).any (·.canBePlain)⟩ := by
  rw [outlook, outlooks_eq, Outlook.ofAnd, if_pos h]

theorem outlook_or_of_not_satisfied
    (h : (operands.map (outlook text valuation)).any (·.satisfied) ≠ true) :
    outlook text valuation (.or operands) =
      ⟨false, !(operands.map (outlook text valuation)).isEmpty &&
          (operands.map (outlook text valuation)).all (·.canBeVacuous),
        (operands.map (outlook text valuation)).isEmpty ||
          (operands.map (outlook text valuation)).any (·.canBePlain)⟩ := by
  rw [outlook, outlooks_eq, Outlook.ofOr, if_neg h]

theorem attains_plain {satisfied vacuous : Bool}
    (h : (Outlook.mk satisfied false true).Attains vacuous) :
    ¬ (Outlook.mk satisfied false true).Attains !vacuous := by
  cases vacuous with
  | true => exact absurd h Bool.false_ne_true
  | false => exact Bool.false_ne_true

theorem attains_vacuous {satisfied vacuous : Bool}
    (h : (Outlook.mk satisfied true false).Attains vacuous) :
    ¬ (Outlook.mk satisfied true false).Attains !vacuous := by
  cases vacuous with
  | true => exact Bool.false_ne_true
  | false => exact absurd h Bool.false_ne_true

theorem reaches_and (hreach : ∀ operand ∈ operands, ∀ flag,
      (outlook text valuation operand).Attains flag → Reaches text valuation operand flag)
    (hsome : ∀ operand ∈ operands, Evaluates text valuation operand) {vacuous : Bool}
    (h : (outlook text valuation (.and operands)).Attains vacuous) :
    Reaches text valuation (.and operands) vacuous := by
  have hself := evaluates_and hsome
  by_cases hne : operands = []
  · subst hne
    exact reaches_self hself h (attains_plain h)
  · by_cases hsat : (operands.map (outlook text valuation)).all (·.satisfied) = true
    · have houtlook := outlook_and_of_satisfied hsat
      rw [houtlook] at h
      obtain ⟨flags, hflags, hall⟩ := exists_flags hreach hsome hne h
      obtain ⟨operands', hpermuted, hrun⟩ := exists_reordered hflags fun operand hmem ↦
        List.all_eq_true.mp hsat _ (List.mem_map_of_mem hmem)
      refine ⟨.and operands', permuted_of_forall₂ (fun before after _ _ ↦ .inAnd before after)
        hpermuted, ?_⟩
      have hlength : operands'.length > 0 :=
        hpermuted.length_eq ▸ List.length_pos_iff.mpr hne
      rw [houtlook, evaluateBoolExpr, if_pos hlength, evaluateAnd_eq, hrun, hall]
    · refine reaches_self hself h ?_
      rw [outlook, outlooks_eq, Outlook.ofAnd, if_neg hsat] at h ⊢
      exact attains_plain h

theorem reaches_or (hreach : ∀ operand ∈ operands, ∀ flag,
      (outlook text valuation operand).Attains flag → Reaches text valuation operand flag)
    (hsome : ∀ operand ∈ operands, Evaluates text valuation operand) {vacuous : Bool}
    (h : (outlook text valuation (.or operands)).Attains vacuous) :
    Reaches text valuation (.or operands) vacuous := by
  by_cases hne : operands = []
  · subst hne
    exact reaches_self (evaluates_or hsome) h (attains_plain h)
  · by_cases hsat : (operands.map (outlook text valuation)).any (·.satisfied) = true
    · have htrue : (outlook text valuation (.or operands)).satisfied = true := by
        rw [outlook, outlooks_eq, Outlook.ofOr, if_pos hsat]
      rw [outlook, outlooks_eq, Outlook.ofOr, if_pos hsat] at h
      -- The operand that gives the flag is put first.
      obtain ⟨operand, hmem, hholds, hattains⟩ : ∃ operand ∈ operands,
          (outlook text valuation operand).satisfied = true ∧
            (outlook text valuation operand).Attains vacuous := by
        cases vacuous with
        | true =>
            obtain ⟨o, ho, hboth⟩ := List.any_eq_true.mp h
            obtain ⟨operand, hmem, rfl⟩ := List.mem_map.mp ho
            rw [Bool.and_eq_true] at hboth
            exact ⟨operand, hmem, hboth⟩
        | false =>
            obtain ⟨o, ho, hboth⟩ := List.any_eq_true.mp h
            obtain ⟨operand, hmem, rfl⟩ := List.mem_map.mp ho
            rw [Bool.and_eq_true] at hboth
            exact ⟨operand, hmem, hboth⟩
      obtain ⟨before, after, rfl⟩ := List.append_of_mem hmem
      obtain ⟨operand', hpermuted, heval⟩ := hreach operand hmem vacuous hattains
      have hfront : Permuted (.or (before ++ operand :: after)) (.or (operand :: (before ++ after))) :=
        .single (.or List.perm_middle)
      have hinside : Permuted (.or (operand :: (before ++ after)))
          (.or (operand' :: (before ++ after))) := by
        refine permuted_of_forall₂ (fun before after _ _ ↦ .inOr before after)
          (.cons hpermuted ?_)
        exact List.forall₂_same.mpr fun _ _ ↦ .refl
      refine ⟨_, hfront.trans hinside, ?_⟩
      rw [htrue, evaluateBoolExpr, if_pos (by simp), evaluateOr, heval, hholds]
      rfl
    · have houtlook := outlook_or_of_not_satisfied hsat
      rw [houtlook] at h
      obtain ⟨flags, hflags, hall⟩ := exists_flags hreach hsome hne h
      obtain ⟨operands', hpermuted, hrun⟩ := exists_reordered hflags fun operand hmem ↦ by
        rw [← Bool.not_eq_true]
        exact fun htrue ↦ hsat (List.any_eq_true.mpr ⟨_, List.mem_map_of_mem hmem, htrue⟩)
      refine ⟨.or operands', permuted_of_forall₂ (fun before after _ _ ↦ .inOr before after)
        hpermuted, ?_⟩
      have hlength : operands'.length > 0 :=
        hpermuted.length_eq ▸ List.length_pos_iff.mpr hne
      rw [houtlook, evaluateBoolExpr, if_pos hlength, evaluateOr_eq, hrun, hall]

theorem permuted_not (h : Permuted expr expr') : Permuted (.not expr) (.not expr') := by
  induction h with
  | refl => exact .refl
  | tail _ hstep ih => exact ih.tail (.inNot hstep)

/-- The outlook promises no flag that no order gives. -/
theorem reaches_of_attains (hclean : Clean text valuation expr) {vacuous : Bool}
    (h : (outlook text valuation expr).Attains vacuous) :
    Reaches text valuation expr vacuous := by
  induction hclean generalizing vacuous with
  | @leaf leaf satisfied hleaf =>
      refine reaches_self (evaluates_of_clean (.leaf hleaf)) h ?_
      rw [outlook] at h ⊢
      exact attains_plain h
  | and hclean ih =>
      exact reaches_and (fun operand hmem flag ↦ ih operand hmem)
        (fun operand hmem ↦ evaluates_of_clean (hclean operand hmem)) h
  | or hclean ih =>
      exact reaches_or (fun operand hmem flag ↦ ih operand hmem)
        (fun operand hmem ↦ evaluates_of_clean (hclean operand hmem)) h
  | @not operand _ ih =>
      rw [outlook] at h
      obtain ⟨operand', hpermuted, heval⟩ := ih h
      refine ⟨.not operand', permuted_not hpermuted, ?_⟩
      rw [evaluateBoolExpr, heval, outlook]
      rfl
  | implies ha hc _ _ =>
      refine reaches_self (evaluates_of_clean (.implies ha hc)) h ?_
      rw [outlook, Outlook.ofImplies] at h ⊢
      split
      · next hsat =>
          rw [if_pos hsat] at h
          exact attains_plain h
      · next hsat =>
          rw [if_neg hsat] at h
          exact attains_vacuous h

/-! ## The fields that are read -/

theorem evaluateNumberExpr_congr {valuation' : CrossFieldValuation} {expr : InvariantNumberExpr}
    (h : ∀ name ∈ visitNumber expr, valuation' name = valuation name) :
    evaluateNumberExpr text valuation' expr = evaluateNumberExpr text valuation expr := by
  induction expr with
  | numberLit value => rfl
  | fieldNumber fieldRef =>
      rw [evaluateNumberExpr, evaluateNumberExpr, h fieldRef (List.mem_singleton_self _)]
  | add left right ihl ihr | sub left right ihl ihr | mul left right ihl ihr
  | div left right ihl ihr | min left right ihl ihr | max left right ihl ihr =>
      rw [visitNumber, List.forall_mem_append] at h
      rw [evaluateNumberExpr, evaluateNumberExpr, ihl h.1, ihr h.2]

theorem evaluateStringExpr_congr {valuation' : CrossFieldValuation} {expr : InvariantStringExpr}
    (h : ∀ name ∈ visitString expr, valuation' name = valuation name) :
    evaluateStringExpr valuation' expr = evaluateStringExpr valuation expr := by
  cases expr with
  | stringLit value => rfl
  | fieldString fieldRef =>
      rw [evaluateStringExpr, evaluateStringExpr, h fieldRef (List.mem_singleton_self _)]

theorem evaluateLeaf_congr {valuation' : CrossFieldValuation} {leaf : InvariantLeaf}
    (h : ∀ name ∈ visitLeaf leaf, valuation' name = valuation name) :
    evaluateLeaf text valuation' leaf = evaluateLeaf text valuation leaf := by
  cases leaf with
  | boolLit value => rfl
  | lt left right | lte left right | gt left right | gte left right
  | eqNumber left right tolerance =>
      rw [visitLeaf, List.forall_mem_append] at h
      simp only [evaluateLeaf, compareNumbers, evaluateNumberExpr_congr h.1,
        evaluateNumberExpr_congr h.2]
  | eqString left right caseInsensitive =>
      rw [visitLeaf, List.forall_mem_append] at h
      simp only [evaluateLeaf, evaluateStringExpr_congr h.1, evaluateStringExpr_congr h.2]
  | inSetString value set caseInsensitive =>
      rw [visitLeaf] at h
      simp only [evaluateLeaf, evaluateStringExpr_congr h]
  | matchesRegex value pattern flags =>
      rw [visitLeaf] at h
      simp only [evaluateLeaf, evaluateStringExpr_congr h]
  | fieldPresent fieldRef | fieldAbsent fieldRef =>
      rw [evaluateLeaf, evaluateLeaf, h fieldRef (List.mem_singleton_self _)]

theorem visitAll_eq (operands : List InvariantBoolExpr) :
    visitAll operands = operands.flatMap visitBool := by
  induction operands with
  | nil => rw [visitAll, List.flatMap_nil]
  | cons operand operands ih => rw [visitAll, ih, List.flatMap_cons]

theorem evaluateBoolExpr_congr {valuation' : CrossFieldValuation}
    (h : ∀ name ∈ visitBool expr, valuation' name = valuation name) :
    evaluateBoolExpr text valuation' expr = evaluateBoolExpr text valuation expr := by
  induction expr using InvariantBoolExpr.induction with
  | leaf leaf => rw [evaluateBoolExpr, evaluateBoolExpr, evaluateLeaf_congr h]
  | and operands ih | or operands ih =>
      rw [visitBool, visitAll_eq] at h
      have hmap : operands.map (evaluateBoolExpr text valuation') =
          operands.map (evaluateBoolExpr text valuation) :=
        List.map_congr_left fun operand hmem ↦ ih operand hmem fun name hname ↦
          h name (List.mem_flatMap.mpr ⟨operand, hmem, hname⟩)
      simp only [evaluateBoolExpr, evaluateAnd_eq, evaluateOr_eq, hmap]
  | not operand ih => rw [evaluateBoolExpr, evaluateBoolExpr, ih h]
  | implies antecedent consequent iha ihc =>
      rw [visitBool, List.forall_mem_append] at h
      rw [evaluateBoolExpr, evaluateBoolExpr, iha h.1, ihc h.2]

theorem mem_collectInvariantFieldRefs {localeCompare : JsString → JsString → ℤ}
    {name : JsString} : name ∈ collectInvariantFieldRefs localeCompare expr ↔
      name ∈ visitBool expr := by
  rw [collectInvariantFieldRefs, mem_sortBy, mem_setOf]

/-! ## The law -/

/-- The evaluation of an expression without errors is regular exactly where its outlook is
settled. -/
theorem regular_iff_settled (localeCompare : JsString → JsString → ℤ)
    (hclean : Clean text valuation expr) :
    Regular text valuation localeCompare expr ↔ (outlook text valuation expr).Settled := by
  obtain ⟨⟨satisfied, flag⟩, heval, rfl, hflag⟩ := evaluates_of_clean hclean
  constructor
  · rintro ⟨hpermuted, hvacuous, -⟩
    have hreached : ∀ vacuous, (outlook text valuation expr).Attains vacuous →
        flag = vacuous := by
      intro vacuous hattains
      obtain ⟨expr', hto, heval'⟩ := reaches_of_attains hclean hattains
      have hsame := (hpermuted expr' hto).symm.trans heval'
      rw [heval] at hsame
      exact congrArg InvariantResult.vacuous (Except.ok.inj hsame)
    refine ⟨?_, fun hcan ↦ ?_⟩
    · rw [Bool.and_eq_false_iff]
      by_contra hboth
      rw [not_or, Bool.not_eq_false, Bool.not_eq_false] at hboth
      have htrue := hreached true hboth.1
      rw [hreached false hboth.2] at htrue
      cases htrue
    · exact hvacuous _ heval (hreached true hcan)
  · rintro ⟨hone, hcan⟩
    have hunique : ∀ vacuous, (outlook text valuation expr).Attains vacuous → flag = vacuous := by
      intro vacuous hattains
      rw [Outlook.Attains] at hattains hflag
      by_contra hne
      cases flag <;> cases vacuous <;> simp_all
    refine ⟨fun expr' hto ↦ ?_, fun result hresult hvacuous ↦ ?_, fun valuation' hfields ↦ ?_⟩
    · obtain ⟨⟨⟨satisfied', flag'⟩, heval', hsat', hflag'⟩, hsame⟩ :=
        evaluates_of_permuted hto hclean
      rw [hsame] at hsat' hflag'
      dsimp only at hsat' hflag'
      rw [heval', heval, hsat', hunique flag' hflag']
    · rw [heval] at hresult
      obtain rfl := Except.ok.inj hresult
      dsimp only at hvacuous
      rw [hvacuous] at hflag
      exact hcan hflag
    · exact evaluateBoolExpr_congr fun name hname ↦
        hfields name (mem_collectInvariantFieldRefs.mpr hname)

end

/-! ## An `or` of a vacuous and of a plain rule -/

def sampleText : TextFunctions := ⟨fun _ ↦ 0, id, fun _ _ _ ↦ none⟩

def boolLit (value : Bool) : InvariantBoolExpr := .leaf (.boolLit value)

/-- A rule whose antecedent is false. -/
def vacuousRule : InvariantBoolExpr := .implies (boolLit false) (boolLit true)

theorem regular_iff_settled_sample :
    Regular sampleText (fun _ ↦ none) codeUnitCompare (.and [vacuousRule, boolLit true]) ↔
      (outlook sampleText (fun _ ↦ none) (.and [vacuousRule, boolLit true])).Settled := by
  refine regular_iff_settled codeUnitCompare (.and ?_)
  rw [List.forall_mem_cons, List.forall_mem_singleton]
  exact ⟨.implies (.leaf rfl) (.leaf rfl), .leaf rfl⟩

/-- The order of the operands of an `or` decides whether it is vacuous, and the negation of a
vacuous rule is vacuous and not satisfied. -/
theorem vacuity_irregular :
    ¬ Regular sampleText (fun _ ↦ none) codeUnitCompare (.or [vacuousRule, boolLit true]) ∧
      ¬ Regular sampleText (fun _ ↦ none) codeUnitCompare (.not vacuousRule) := by
  constructor
  · intro h
    have hswapped := h.permuted (.or [boolLit true, vacuousRule]) (.single (.or (.swap ..)))
    revert hswapped
    decide
  · intro h
    exact Bool.false_ne_true (h.vacuous ⟨false, true⟩ (by decide) rfl)

end TestIntelligence.CoreEngine
