import TestIntelligence.AgenticHarness.FormalVerification.KripkeSearch

/-!
# Enumerating valuations

The products of choices that survive the domain filter, as `initialValuations` and
`nextValuations` enumerate them: one choice for every declaration, the last one for
a name deciding its value.
-/

namespace TestIntelligence.AgenticHarness.FormalVerification

open Js

/-! ## The product of choices -/

/-- A valuation filled by assignments, a later one replacing an earlier one. -/
def assign (assignments : List (JsString × PrimitiveValue)) (valuation : Valuation) : Valuation :=
  assignments.foldl (fun v a ↦ mapSet v a.1 a.2) valuation

/-- One assignment for each list of choices, taken from it. -/
def Picks (choices : List (JsString × List PrimitiveValue))
    (assignments : List (JsString × PrimitiveValue)) : Prop :=
  List.Forall₂ (fun c a ↦ a.1 = c.1 ∧ a.2 ∈ c.2) choices assignments

theorem mem_combine_iff {choices : List (JsString × List PrimitiveValue)} {acc : List Valuation}
    {valuation : Valuation} :
    valuation ∈ combine choices acc ↔
      ∃ start ∈ acc, ∃ assignments, Picks choices assignments ∧
        valuation = assign assignments start := by
  induction choices generalizing acc with
  | nil =>
      constructor
      · exact fun h ↦ ⟨valuation, h, [], .nil, rfl⟩
      · rintro ⟨start, hstart, _, ⟨⟩, rfl⟩
        exact hstart
  | cons c choices ih =>
      obtain ⟨name, options⟩ := c
      rw [combine, ih]
      constructor
      · rintro ⟨start', hstart', assignments, hpicks, rfl⟩
        obtain ⟨start, hstart, hmem⟩ := List.mem_flatMap.mp hstart'
        obtain ⟨choice, hchoice, rfl⟩ := List.mem_map.mp hmem
        exact ⟨start, hstart, (name, choice) :: assignments, .cons ⟨rfl, hchoice⟩ hpicks, rfl⟩
      · rintro ⟨start, hstart, _, hpicks, rfl⟩
        cases hpicks with
        | @cons _ a _ assignments ha hpicks =>
            refine ⟨mapSet start a.1 a.2, ?_, assignments, hpicks, rfl⟩
            refine List.mem_flatMap.mpr ⟨start, hstart, ?_⟩
            rw [ha.1]
            exact List.mem_map_of_mem ha.2

/-- An assigned name has the value of its last assignment. -/
theorem mapGet_assign (assignments : List (JsString × PrimitiveValue)) (valuation : Valuation)
    (name : JsString) :
    mapGet (assign assignments valuation) name =
      ((assignments.reverse.find? (·.1 = name)).map Prod.snd).or (mapGet valuation name) := by
  induction assignments generalizing valuation with
  | nil => simp [assign]
  | cons a assignments ih =>
      rw [assign, List.foldl_cons]
      refine (ih (mapSet valuation a.1 a.2)).trans ?_
      rw [List.reverse_cons, List.find?_append, mapGet_mapSet]
      cases hfind : assignments.reverse.find? (·.1 = name) with
      | some b => simp
      | none =>
          by_cases hname : name = a.1
          · simp [hname]
          · simp [hname, Ne.symm hname]

/-! ## The domain filter -/

theorem allInDomain_eq_true_iff {valuation : Valuation} {declared : List SpecVariable} :
    allInDomain valuation declared = .ok true ↔
      ∀ v ∈ declared, valueInDomain (readProperty valuation v.name) v = .ok true := by
  induction declared with
  | nil => simp [allInDomain]
  | cons v declared ih =>
      unfold allInDomain
      cases hv : valueInDomain (readProperty valuation v.name) v with
      | error e => simp [hv]
      | ok b =>
          cases b with
          | true => simpa [hv] using ih
          | false => simp [hv]

theorem mem_filterInDomain_iff {declared : List SpecVariable} {valuations kept : List Valuation}
    (h : filterInDomain declared valuations = .ok kept) {valuation : Valuation} :
    valuation ∈ kept ↔ valuation ∈ valuations ∧ allInDomain valuation declared = .ok true := by
  induction valuations generalizing kept with
  | nil =>
      cases h
      simp
  | cons v valuations ih =>
      obtain ⟨keep, hkeep, h⟩ := bind_eq_ok h
      obtain ⟨rest, hrest, h⟩ := bind_eq_ok h
      cases h
      have hih := @ih rest hrest
      cases keep with
      | true =>
          simp only [if_true, List.mem_cons, hih]
          constructor
          · rintro (rfl | ⟨hmem, hall⟩)
            · exact ⟨Or.inl rfl, hkeep⟩
            · exact ⟨Or.inr hmem, hall⟩
          · rintro ⟨rfl | hmem, hall⟩
            · exact Or.inl rfl
            · exact Or.inr ⟨hmem, hall⟩
      | false =>
          simp only [Bool.false_eq_true, if_false, List.mem_cons, hih]
          refine ⟨fun ⟨hmem, hall⟩ ↦ ⟨Or.inr hmem, hall⟩, ?_⟩
          rintro ⟨rfl | hmem, hall⟩
          · rw [hkeep] at hall
            cases hall
          · exact ⟨hmem, hall⟩

/-! ## The enumeration -/

theorem choicesPerVar_spec {rules : List SpecAssignment} {context : EvalContext}
    {otherwise : SpecVariable → Eval (List PrimitiveValue)} {declared : List SpecVariable}
    {choices : List (JsString × List PrimitiveValue)}
    (h : choicesPerVar rules context otherwise declared = .ok choices) :
    List.Forall₂ (fun v c ↦ c.1 = v.name ∧ choicesOf rules context otherwise v = .ok c.2)
      declared choices := by
  induction declared generalizing choices with
  | nil =>
      cases h
      exact .nil
  | cons v declared ih =>
      obtain ⟨options, hoptions, h⟩ := bind_eq_ok h
      obtain ⟨rest, hrest, h⟩ := bind_eq_ok h
      cases h
      exact .cons ⟨rfl, hoptions⟩ (ih hrest)

/-- The picks from the choices of the variables. -/
theorem picks_iff {rules : List SpecAssignment} {context : EvalContext}
    {otherwise : SpecVariable → Eval (List PrimitiveValue)} {declared : List SpecVariable}
    {choices : List (JsString × List PrimitiveValue)}
    (h : choicesPerVar rules context otherwise declared = .ok choices)
    {assignments : List (JsString × PrimitiveValue)} :
    Picks choices assignments ↔ List.Forall₂ (fun v a ↦ a.1 = v.name ∧ ∃ options,
      choicesOf rules context otherwise v = .ok options ∧ a.2 ∈ options) declared assignments := by
  have hspec := choicesPerVar_spec h
  clear h
  induction hspec generalizing assignments with
  | nil => simp [Picks]
  | @cons v c declared choices hvc _ ih =>
      constructor
      · intro hpicks
        cases hpicks with
        | cons ha hpicks => exact .cons ⟨ha.1.trans hvc.1, c.2, hvc.2, ha.2⟩ (ih.mp hpicks)
      · intro hpicks
        cases hpicks with
        | cons ha hpicks =>
            obtain ⟨hname, options, hoptions, hmem⟩ := ha
            rw [hvc.2, Except.ok.injEq] at hoptions
            subst hoptions
            exact .cons ⟨hname.trans hvc.1.symm, hmem⟩ (ih.mpr hpicks)

/-- One choice for every declaration. -/
def Chosen (offers : SpecVariable → Eval (List PrimitiveValue)) (declared : List SpecVariable)
    (assignments : List (JsString × PrimitiveValue)) : Prop :=
  List.Forall₂ (fun v a ↦ a.1 = v.name ∧ ∃ options, offers v = .ok options ∧ a.2 ∈ options)
    declared assignments

/-- The enumerated valuations: a choice for every declaration, within the domains. -/
theorem mem_enumeration_iff {rules : List SpecAssignment} {context : EvalContext}
    {otherwise : SpecVariable → Eval (List PrimitiveValue)} {declared : List SpecVariable}
    {choices : List (JsString × List PrimitiveValue)} {kept : List Valuation}
    (hchoices : choicesPerVar rules context otherwise declared = .ok choices)
    (hkept : filterInDomain declared (combine choices [[]]) = .ok kept) {valuation : Valuation} :
    valuation ∈ kept ↔ (∃ assignments, Chosen (choicesOf rules context otherwise) declared
      assignments ∧ valuation = assign assignments []) ∧
        ∀ v ∈ declared, valueInDomain (readProperty valuation v.name) v = .ok true := by
  rw [mem_filterInDomain_iff hkept, mem_combine_iff, allInDomain_eq_true_iff]
  simp only [List.mem_singleton, exists_eq_left, picks_iff hchoices]
  rfl

/-- The declaration that decides the value of a name: the last one. -/
def lastDeclaration (declared : List SpecVariable) (name : JsString) : Option SpecVariable :=
  declared.reverse.find? (·.name = name)

theorem lastDeclaration_isSome {declared : List SpecVariable} {v : SpecVariable}
    (hv : v ∈ declared) : ∃ last, lastDeclaration declared v.name = some last := by
  refine Option.isSome_iff_exists.mp (List.find?_isSome.mpr ⟨v, ?_, by simp⟩)
  exact List.mem_reverse.mpr hv

theorem mem_of_lastDeclaration {declared : List SpecVariable} {name : JsString}
    {last : SpecVariable} (h : lastDeclaration declared name = some last) :
    last ∈ declared ∧ last.name = name := by
  refine ⟨List.mem_reverse.mp (List.mem_of_find?_eq_some h), ?_⟩
  simpa using List.find?_some h

/-- A name has the choice of its last declaration. -/
theorem readProperty_of_chosen {offers : SpecVariable → Eval (List PrimitiveValue)}
    {declared : List SpecVariable} {assignments : List (JsString × PrimitiveValue)}
    (h : Chosen offers declared assignments) {name : JsString} {last : SpecVariable}
    (hlast : lastDeclaration declared name = some last) :
    ∃ options choice, offers last = .ok options ∧ choice ∈ options ∧
      mapGet (assign assignments []) name = some choice := by
  obtain ⟨a, ha, -, options, hoptions, hmem⟩ := find?_of_forall₂
    (g := fun a : JsString × PrimitiveValue ↦ decide (a.1 = name))
    (fun v a hva ↦ by rw [hva.1]) (List.rel_reverse h) hlast
  refine ⟨options, a.2, hoptions, hmem, ?_⟩
  rw [mapGet_assign, ha]
  rfl

theorem readProperty_of_mapGet {valuation : Valuation} {name : JsString} {value : PrimitiveValue}
    (h : mapGet valuation name = some value) : readProperty valuation name = some value := by
  rw [readProperty, h]

/-! ## The valuations of a specification -/

/-- The values a variable may start with: those of its `init` rule, or its domain. -/
def ParsedSpec.initialChoices (spec : ParsedSpec) : SpecVariable → Eval (List PrimitiveValue) :=
  choicesOf spec.inits ⟨[], collectEnumLiterals spec⟩ variableDomain

/-- The starting valuations: an initial choice for every declaration, within the
domains. -/
theorem mem_initials_iff {spec : ParsedSpec} {vs : List Valuation} (h : spec.initials = .ok vs)
    {valuation : Valuation} :
    valuation ∈ vs ↔ (∃ assignments, Chosen spec.initialChoices spec.specVariables assignments ∧
      valuation = assign assignments []) ∧
        ∀ v ∈ spec.specVariables, valueInDomain (readProperty valuation v.name) v = .ok true := by
  obtain ⟨choices, hchoices, hkept⟩ := bind_eq_ok h
  exact mem_enumeration_iff hchoices hkept

end TestIntelligence.AgenticHarness.FormalVerification
