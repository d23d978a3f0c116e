import TestIntelligence.AgenticHarness.CheckpointChain
import TestIntelligence.Js.Outcome

/-!
# Building, storing and verifying checkpoint chains

The builder sees only the predecessor and the verifier sees the whole chain; they
agree except for the trace edges.  A chain written file by file reads back in its
order, up to the sign of zeros, and verifies as before.
-/

namespace TestIntelligence.AgenticHarness.Checkpoint

open Js Security Chains

/-! ## Files -/

/-- `/^[A-Za-z0-9._-]+$/u` -/
def isSafeJobId (jobId : JsString) : Bool :=
  jobId != [] && jobId.all fun u ↦ isAlphanumeric u || u == 0x2E || u == 0x5F || u == 0x2D

def unsafeJobIdMessage (jobId : JsString) : JsString :=
  js "agent-harness-checkpoint: jobId \"" ++ jobId ++
    js "\" contains unsafe characters; only [A-Za-z0-9._-] are allowed"

def checkpointFilename (chainIndex : JsNumber) : JsString :=
  padStartZero 8 (numberText chainIndex) ++ js ".json"

/-- The entries of `checkpointDir(runDir, jobId)`, or `none` where there is no
such directory. -/
abbrev CheckpointDirectory := Option (List (JsString × JsString))

def temporaryName (name pid uuid : JsString) : JsString :=
  name ++ js "." ++ pid ++ js "." ++ uuid ++ js ".tmp"

section

variable (dateParse : JsString → JsNumber)

/-- `mkdir`, `writeFile` to the temporary name and `rename`. -/
def writeAgentHarnessCheckpoint (runDir pid uuid : JsString) (directory : CheckpointDirectory)
    (checkpoint : AgentHarnessCheckpoint) : Except JsString CheckpointDirectory := do
  if runDir = [] then
    .error (js "writeAgentHarnessCheckpoint: runDir must be a non-empty string")
  assertAgentHarnessCheckpointInvariants dateParse checkpoint (js "writeAgentHarnessCheckpoint")
  if !isSafeJobId checkpoint.jobId then .error (unsafeJobIdMessage checkpoint.jobId)
  let name := checkpointFilename checkpoint.chainIndex
  let serialized := canonicalJson checkpoint.toJson ++ [0x0A]
  let written := mapSet (directory.getD []) (temporaryName name pid uuid) serialized
  .ok (some (mapSet (mapDelete written (temporaryName name pid uuid)) name serialized))

/-- One write for each checkpoint; the process id and the random identifiers of
the temporary names are arbitrary. -/
def writeAll (runDir pid : JsString) (randomUUID : ℕ → JsString) :
    ℕ → CheckpointDirectory → List AgentHarnessCheckpoint → Except JsString CheckpointDirectory
  | _, directory, [] => .ok directory
  | i, directory, checkpoint :: rest => do
      let directory ← writeAgentHarnessCheckpoint dateParse runDir pid (randomUUID i) directory
        checkpoint
      writeAll runDir pid randomUUID (i + 1) directory rest

def textOf : Option Json → Option JsString
  | some (.str s) => some s
  | _ => none

def numberOf : Option Json → Option JsNumber
  | some (.num x) => some x
  | _ => none

/-- A member that may be absent. -/
def optionalTextOf : Option Json → Option (Option JsString)
  | none => some none
  | some (.str s) => some (some s)
  | some _ => none

def nullableTextOf : Option Json → Option (Option JsString)
  | some .null => some none
  | some (.str s) => some (some s)
  | _ => none

def textsOf : Option Json → Option (List JsString)
  | some (.arr items) => items.mapM fun item ↦ textOf (some item)
  | _ => none

/-- The checkpoint in a parsed object, when its members have the declared types
and there are no others. -/
def checkpointOf (members : List (JsString × Json)) : Option AgentHarnessCheckpoint := do
  let member (key : String) : Option Json := mapGet members (js key)
  if !(members.all fun p ↦ fieldKeys.contains p.1) then none
  some {
    schemaVersion := ← textOf (member "schemaVersion")
    jobId := ← textOf (member "jobId")
    roleStepId := ← textOf (member "roleStepId")
    attempt := ← numberOf (member "attempt")
    status := ← textOf (member "status")
    inputHash := ← textOf (member "inputHash")
    outputHash := ← optionalTextOf (member "outputHash")
    nextRoleStepIds := ← textsOf (member "nextRoleStepIds")
    startedAt := ← textOf (member "startedAt")
    completedAt := ← textOf (member "completedAt")
    errorClass := ← optionalTextOf (member "errorClass")
    parentHash := ← textOf (member "parentHash")
    chainIndex := ← numberOf (member "chainIndex")
    runId := ← textOf (member "runId")
    parentRunId := ← nullableTextOf (member "parentRunId")
    promptTokens := ← numberOf (member "promptTokens")
    completionTokens := ← numberOf (member "completionTokens") }

/-- `malformed` stands for the `SyntaxError` of `JSON.parse` and for the failed
checks on members of other types. -/
inductive ReadError
  | malformed (name : JsString)
  | thrown (message : JsString)
  deriving DecidableEq

def readSite : JsString := js "readAgentHarnessCheckpointChain: "

def readCheckpoint (jobId name raw : JsString) : Except ReadError AgentHarnessCheckpoint :=
  match Json.parse raw with
  | none => .error (.malformed name)
  | some (.obj members) =>
      match checkpointOf members with
      | none => .error (.malformed name)
      | some candidate =>
          match assertAgentHarnessCheckpointInvariants dateParse candidate (readSite ++ name) with
          | .error message => .error (.thrown message)
          | .ok () =>
              if candidate.jobId = jobId then .ok candidate
              else .error (.thrown (readSite ++ name ++ js " jobId \"" ++ candidate.jobId ++
                js "\" does not match expected \"" ++ jobId ++ js "\""))
  | some (.arr _) => .error (.malformed name)
  | some _ => .error (.thrown (readSite ++ name ++ js " did not parse to an object"))

/-- The loop over the file names. -/
def readNames (jobId : JsString) (files : List (JsString × JsString)) :
    List JsString → Except ReadError (List AgentHarnessCheckpoint)
  | [] => .ok []
  | name :: rest =>
      match readCheckpoint dateParse jobId name ((mapGet files name).getD []) with
      | .error error => .error error
      | .ok checkpoint =>
          match readNames jobId files rest with
          | .error error => .error error
          | .ok checkpoints => .ok (checkpoint :: checkpoints)

/-- `checkpoints.sort((a, b) => a.chainIndex - b.chainIndex)`; the indexes were
checked to be integers. -/
def sortByChainIndex (checkpoints : List AgentHarnessCheckpoint) : List AgentHarnessCheckpoint :=
  checkpoints.insertionSort fun a b ↦ a.chainIndex.toRat ≤ b.chainIndex.toRat

def readAgentHarnessCheckpointChain (directory : CheckpointDirectory) (jobId : JsString) :
    Except ReadError (List AgentHarnessCheckpoint) :=
  if !isSafeJobId jobId then .error (.thrown (unsafeJobIdMessage jobId))
  else
    match directory with
    | none => .ok []
    | some files =>
        let jsonFiles := sortStrings ((files.map Prod.fst).filter (endsWith · (js ".json")))
        match readNames dateParse jobId files jsonFiles with
        | .error error => .error error
        | .ok checkpoints => .ok (sortByChainIndex checkpoints)

end

/-! ## The builder and the verifier -/

/-- The longest array of the language. -/
def maxArrayLength : ℕ := 2 ^ 32 - 1

variable {sha256 : JsString → JsString} {dateParse : JsString → JsNumber}

/-- A later checkpoint belongs to the trace tree: it reuses an earlier run with
the parent first declared for it, or starts a new run called by an earlier one. -/
def Extends (earlier : List AgentHarnessCheckpoint) (c : AgentHarnessCheckpoint) : Prop :=
  (∃ first, earlier.find? (·.runId = c.runId) = some first ∧
      c.parentRunId = first.parentRunId) ∨
    (earlier.find? (·.runId = c.runId) = none ∧
      ∃ caller ∈ earlier, c.parentRunId = some caller.runId)

theorem traceEdge_iff_extends {earlier : List AgentHarnessCheckpoint} (hearlier : earlier ≠ [])
    {c : AgentHarnessCheckpoint} : TraceEdge earlier c ↔ Extends earlier c := by
  unfold TraceEdge Extends
  cases earlier.find? (·.runId = c.runId) with
  | none => simp [hearlier]
  | some first => simp

/-- What the builder checks of a checkpoint, given those before it. -/
structure BuiltAt (sha256 : JsString → JsString) (dateParse : JsString → JsNumber)
    (earlier : List AgentHarnessCheckpoint) (c : AgentHarnessCheckpoint) : Prop where
  index : c.chainIndex.eqNat earlier.length = true
  valid : Valid dateParse c
  parent : c.parentHash = head (computeAgentHarnessCheckpointHash sha256) rootParentHash earlier

theorem append_ok {previous : Option AgentHarnessCheckpoint}
    {input : AppendAgentHarnessCheckpointInput} {c : AgentHarnessCheckpoint}
    (h : appendAgentHarnessCheckpoint sha256 dateParse previous input = .ok c) :
    Valid dateParse c ∧ ∃ nextRoleStepIds, c = nextCheckpoint sha256 previous input nextRoleStepIds := by
  unfold appendAgentHarnessCheckpoint at h
  obtain ⟨_, -, h⟩ := bind_eq_ok h
  obtain ⟨nextRoleStepIds, -, h⟩ := bind_eq_ok h
  obtain ⟨_, hassert, h⟩ := bind_eq_ok h
  obtain rfl := Except.ok.inj h
  exact ⟨assert_eq_ok_iff.mp hassert, nextRoleStepIds, rfl⟩

theorem builtAt_append {earlier : List AgentHarnessCheckpoint}
    (hearlier : ∀ last ∈ earlier.getLast?, last.chainIndex.eqNat (earlier.length - 1) = true)
    (hlength : earlier.length < maxArrayLength) {input : AppendAgentHarnessCheckpointInput}
    {c : AgentHarnessCheckpoint}
    (h : appendAgentHarnessCheckpoint sha256 dateParse earlier.getLast? input = .ok c) :
    BuiltAt sha256 dateParse earlier c := by
  obtain ⟨hvalid, nextRoleStepIds, rfl⟩ := append_ok h
  rcases List.eq_nil_or_concat' earlier with rfl | ⟨before, last, rfl⟩
  · exact ⟨JsNumber.eqNat_zero, hvalid, rfl⟩
  · have hlast : (before ++ [last]).getLast? = some last := by simp
    have hindex := hearlier last hlast
    simp only [List.length_append, List.length_singleton, Nat.add_sub_cancel] at hindex hlength
    refine ⟨?_, hvalid, ?_⟩
    · simp only [nextCheckpoint, hlast, Option.elim_some, List.length_append,
        List.length_singleton]
      apply JsNumber.eqNat_add_one hindex
      unfold maxArrayLength at hlength
      omega
    · simp [nextCheckpoint]

theorem built_of_appendAll {earlier chain : List AgentHarnessCheckpoint}
    {inputs : List AppendAgentHarnessCheckpointInput}
    (hearlier : ∀ last ∈ earlier.getLast?, last.chainIndex.eqNat (earlier.length - 1) = true)
    (hlength : earlier.length + inputs.length ≤ maxArrayLength)
    (h : appendAll sha256 dateParse earlier.getLast? inputs = .ok chain) :
    ∀ i c, chain[i]? = some c → BuiltAt sha256 dateParse (earlier ++ chain.take i) c := by
  induction inputs generalizing earlier chain with
  | nil =>
      obtain rfl := Except.ok.inj h
      simp
  | cons input inputs ih =>
      obtain ⟨c, hc, h⟩ := bind_eq_ok h
      obtain ⟨rest, hrest, h⟩ := bind_eq_ok h
      obtain rfl := Except.ok.inj h
      rw [List.length_cons] at hlength
      have hbuilt := builtAt_append hearlier (by omega) hc
      have hnext : ∀ last ∈ (earlier ++ [c]).getLast?,
          last.chainIndex.eqNat ((earlier ++ [c]).length - 1) = true := by
        intro last hlast
        obtain rfl : c = last := by simpa using hlast
        simpa using hbuilt.index
      have hsuffix := ih hnext (by simp only [List.length_append, List.length_singleton]; omega)
        (by simpa using hrest)
      intro i d hd
      cases i with
      | zero =>
          obtain rfl : c = d := by simpa using hd
          simpa using hbuilt
      | succ i => simpa using hsuffix i d (by simpa using hd)

theorem built_of_appendAll_none {chain : List AgentHarnessCheckpoint}
    {inputs : List AppendAgentHarnessCheckpointInput} (hlength : inputs.length ≤ maxArrayLength)
    (h : appendAll sha256 dateParse none inputs = .ok chain) {i : ℕ} {c : AgentHarnessCheckpoint}
    (hc : chain[i]? = some c) : BuiltAt sha256 dateParse (chain.take i) c := by
  have hstart : ∀ last ∈ ([] : List AgentHarnessCheckpoint).getLast?,
      last.chainIndex.eqNat (([] : List AgentHarnessCheckpoint).length - 1) = true := by simp
  exact built_of_appendAll hstart (by simpa using hlength) h i c hc

theorem take_ne_nil {chain : List AgentHarnessCheckpoint} {i : ℕ} {c : AgentHarnessCheckpoint}
    (hi : 0 < i) (hc : chain[i]? = some c) : chain.take i ≠ [] := by
  have hlength := (List.getElem?_eq_some_iff.mp hc).1
  simp only [ne_eq, List.take_eq_nil_iff, not_or]
  exact ⟨by omega, List.ne_nil_of_length_pos (by omega)⟩

theorem verify_ok_iff_extends {chain : List AgentHarnessCheckpoint}
    {inputs : List AppendAgentHarnessCheckpointInput} (hlength : inputs.length ≤ maxArrayLength)
    (h : appendAll sha256 dateParse none inputs = .ok chain) :
    (∃ headOfChainHash chainLength, verifyAgentHarnessCheckpointChain sha256 dateParse chain =
        .ok headOfChainHash chainLength) ↔
      ∀ i c, 0 < i → chain[i]? = some c → Extends (chain.take i) c := by
  simp only [verify_ok_iff, accepted_iff_forall, List.nil_append]
  constructor
  · rintro ⟨-, -, hchain, -⟩ i c hi hc
    exact (traceEdge_iff_extends (take_ne_nil hi hc)).mp (hchain i c hc).edge
  · intro hextends
    refine ⟨_, _, fun i c hc ↦ ?_, rfl, rfl⟩
    have hbuilt := built_of_appendAll_none hlength h hc
    refine ⟨hbuilt.index, hbuilt.valid, hbuilt.parent, ?_⟩
    cases i with
    | zero => simp [TraceEdge]
    | succ i =>
        have hi := Nat.succ_pos i
        exact (traceEdge_iff_extends (take_ne_nil hi hc)).mpr (hextends (i + 1) c hi hc)

/-! ## The sign of a zero -/

theorem text_unsigned (c : AgentHarnessCheckpoint) : c.unsigned.text = c.text := by
  have hprinted : c.unsigned.toJson.printed = c.toJson.printed := by
    simp only [AgentHarnessCheckpoint.toJson, printed_presentMembers]
    simp [AgentHarnessCheckpoint.fields, AgentHarnessCheckpoint.unsigned,
      Json.printed_num_unsigned]
  rw [AgentHarnessCheckpoint.text, AgentHarnessCheckpoint.text, ← canonicalJson_printed, hprinted,
    canonicalJson_printed]

theorem invariantErrors_unsigned (c : AgentHarnessCheckpoint) (site : JsString) :
    invariantErrors dateParse c.unsigned site = invariantErrors dateParse c site := by
  simp only [invariantErrors, AgentHarnessCheckpoint.unsigned, isNonNegativeInteger,
    JsNumber.isInteger_unsigned, JsNumber.unsigned_lt_left, JsNumber.unsigned_strictEq_left,
    JsNumber.unsigned_le_right]
  rfl

theorem valid_unsigned {c : AgentHarnessCheckpoint} (h : Valid dateParse c) :
    Valid dateParse c.unsigned := by
  rw [Valid, invariantErrors_unsigned]
  exact h

theorem verifyAt_unsigned (state : VerifierState) (i : ℕ) (c : AgentHarnessCheckpoint) :
    verifyAt sha256 dateParse state i c.unsigned = verifyAt sha256 dateParse state i c := by
  have hassert : ∀ site, assertAgentHarnessCheckpointInvariants dateParse c.unsigned site =
      assertAgentHarnessCheckpointInvariants dateParse c site := by
    intro site
    rw [assertAgentHarnessCheckpointInvariants, invariantErrors_unsigned,
      assertAgentHarnessCheckpointInvariants]
  have hhash : computeAgentHarnessCheckpointHash sha256 c.unsigned =
      computeAgentHarnessCheckpointHash sha256 c := congrArg sha256 (text_unsigned c)
  have hrun : ∀ runs, registerRun runs i c.unsigned = registerRun runs i c := fun _ ↦ rfl
  have hindex : c.unsigned.chainIndex = c.chainIndex.unsigned := rfl
  have hparent : c.unsigned.parentHash = c.parentHash := rfl
  simp only [verifyAt, hassert, hhash, hrun, hindex, hparent, JsNumber.unsigned_unsigned,
    JsNumber.toRat_unsigned, numberText_unsigned, JsNumber.eqNat_unsigned]

theorem verify_unsigned (chain : List AgentHarnessCheckpoint) :
    verifyAgentHarnessCheckpointChain sha256 dateParse
        (chain.map AgentHarnessCheckpoint.unsigned) =
      verifyAgentHarnessCheckpointChain sha256 dateParse chain := by
  have hloop : ∀ (state : VerifierState) (i : ℕ),
      verifyFrom sha256 dateParse state i (chain.map AgentHarnessCheckpoint.unsigned) =
        verifyFrom sha256 dateParse state i chain := by
    induction chain with
    | nil => exact fun _ _ ↦ rfl
    | cons c chain ih =>
        intro state i
        simp only [List.map_cons, verifyFrom, verifyAt_unsigned, ih]
  simp only [verifyAgentHarnessCheckpointChain, hloop, List.length_map]

/-! ## Reading a file back -/

theorem optionalTextOf_str (s : Option JsString) : optionalTextOf (s.map .str) = some s := by
  cases s <;> rfl

theorem nullableTextOf_elim (s : Option JsString) :
    nullableTextOf (some (s.elim .null .str)) = some s := by
  cases s <;> rfl

theorem textsOf_str (items : List JsString) : textsOf (some (.arr (items.map .str))) = some items := by
  rw [textsOf]
  induction items with
  | nil => rfl
  | cons item items ih =>
      rw [List.map_cons, List.mapM_cons, ih]
      rfl

theorem checkpointOf_members {c : AgentHarnessCheckpoint} (hc : Valid dateParse c)
    {members : List (JsString × Json)} (hproto : protoKey ∉ members.map Prod.fst)
    (hget : ∀ key, key ≠ protoKey →
      mapGet members key = (mapGet c.fields key).join.map fun v ↦ sortValue v.printed) :
    checkpointOf members = some c.unsigned := by
  have hkeys : (members.all fun p ↦ fieldKeys.contains p.1) = true := by
    rw [List.all_eq_true]
    intro p hp
    rw [List.contains_iff_mem]
    by_contra hmem
    have hkey : p.1 ≠ protoKey := fun heq ↦ hproto (heq ▸ List.mem_map_of_mem hp)
    have hnone : mapGet c.fields p.1 = none := mapGet_eq_none_iff.mpr (by rwa [keys_fields])
    have habsent := hget p.1 hkey
    rw [hnone, Option.join_none, Option.map_none, mapGet_eq_none_iff] at habsent
    exact habsent (List.mem_map_of_mem hp)
  have hread : ∀ field ∈ c.fields, mapGet members field.1 =
      field.2.map fun v ↦ sortValue v.printed := by
    intro field hfield
    have hkey : field.1 ≠ protoKey := by
      intro heq
      apply protoKey_not_mem_fieldKeys
      rw [← keys_fields c, ← heq]
      exact List.mem_map_of_mem hfield
    rw [hget field.1 hkey, mapGet_eq_some_of_mem (enumerated_fields c).1 hfield]
    rfl
  obtain ⟨hattempt, hindex, hprompt, hcompletion⟩ := hc.finite
  simp only [AgentHarnessCheckpoint.fields, List.forall_mem_cons, List.not_mem_nil, false_imp_iff,
    implies_true, and_true, Option.map_some, Option.map_map, Function.comp_def,
    sortValue_printed_str, sortValue_printed_texts, sortValue_printed_nullable,
    sortValue_printed_num, hattempt, hindex, hprompt, hcompletion] at hread
  obtain ⟨h1, h2, h3, h4, h5, h6, h7, h8, h9, h10, h11, h12, h13, h14, h15, h16, h17⟩ := hread
  simp only [checkpointOf, hkeys, h1, h2, h3, h4, h5, h6, h7, h8, h9, h10, h11, h12, h13, h14, h15,
    h16, h17, textOf, numberOf, optionalTextOf_str, textsOf_str, nullableTextOf_elim]
  rfl

/-- The file that holds a checkpoint. -/
def AgentHarnessCheckpoint.file (c : AgentHarnessCheckpoint) : JsString × JsString :=
  (checkpointFilename c.chainIndex, c.text ++ [0x0A])

theorem readCheckpoint_file {c : AgentHarnessCheckpoint} (hc : Valid dateParse c) (name : JsString) :
    readCheckpoint dateParse c.jobId name (c.text ++ [0x0A]) = .ok c.unsigned := by
  obtain ⟨members, hparse, hproto, hget⟩ := parse_record (enumerated_fields c) (ordered_fields c)
    (show skipSpace [0x0A] = [] by decide) (endsDecimal_cons (by decide))
  have hcheckpoint := checkpointOf_members hc hproto hget
  have hassert := assert_of_valid (valid_unsigned hc)
  unfold readCheckpoint
  rw [AgentHarnessCheckpoint.text, AgentHarnessCheckpoint.toJson, hparse]
  simp only [hcheckpoint, hassert]
  exact if_pos rfl

/-! ## Writing the files -/

theorem getLast?_checkpointFilename (chainIndex : JsNumber) :
    (checkpointFilename chainIndex).getLast? = some 0x6E := by
  rw [checkpointFilename, List.getLast?_append]
  rfl

theorem endsWith_checkpointFilename (chainIndex : JsNumber) :
    endsWith (checkpointFilename chainIndex) (js ".json") = true := by
  rw [endsWith, List.isSuffixOf_iff_suffix]
  exact List.suffix_append _ _

theorem getLast?_temporaryName (name pid uuid : JsString) :
    (temporaryName name pid uuid).getLast? = some 0x70 := by
  rw [temporaryName, List.getLast?_append]
  rfl

/-- The files of distinct positions have distinct names. -/
theorem chainIndex_eq_of_filename_eq {x y : JsNumber} {m n : ℕ} (hx : x.eqNat m = true)
    (hy : y.eqNat n = true) (h : checkpointFilename x = checkpointFilename y) : m = n := by
  obtain ⟨hxfinite, hxrat⟩ := JsNumber.eqNat_iff.mp hx
  obtain ⟨hyfinite, hyrat⟩ := JsNumber.eqNat_iff.mp hy
  have hpadded := List.append_cancel_right h
  have htext : numberText x = numberText y := by
    apply padStartZero_injective _ _ hpadded
    · exact noLeadingZeros_numberText hxfinite (by rw [hxrat]; positivity)
    · exact noLeadingZeros_numberText hyfinite (by rw [hyrat]; positivity)
  obtain ⟨d, hd⟩ := JsNumber.exists_unsigned_eq_finite hxfinite
  obtain ⟨e, he⟩ := JsNumber.exists_unsigned_eq_finite hyfinite
  have hnumber : JsNumber.finite d = .finite e := by
    rw [← stringToNumber_numberText d, ← stringToNumber_numberText e, ← hd, ← he,
      numberText_unsigned, numberText_unsigned, htext]
  have hrat : x.toRat = y.toRat := by
    rw [← JsNumber.toRat_unsigned, ← JsNumber.toRat_unsigned y, hd, he, hnumber]
  rw [hxrat, hyrat] at hrat
  exact_mod_cast hrat

theorem write_next {runDir : JsString} (pid uuid : JsString) {earlier : List AgentHarnessCheckpoint}
    {directory : CheckpointDirectory}
    (hdirectory : directory.getD [] = earlier.map AgentHarnessCheckpoint.file)
    {c : AgentHarnessCheckpoint} (hvalid : Valid dateParse c) (hrunDir : runDir ≠ [])
    (hsafe : isSafeJobId c.jobId = true)
    (hnew : checkpointFilename c.chainIndex ∉ earlier.map fun d ↦ checkpointFilename d.chainIndex) :
    writeAgentHarnessCheckpoint dateParse runDir pid uuid directory c =
      .ok (some ((earlier ++ [c]).map AgentHarnessCheckpoint.file)) := by
  have hkeys : (earlier.map AgentHarnessCheckpoint.file).map Prod.fst =
      earlier.map fun d ↦ checkpointFilename d.chainIndex := by
    rw [List.map_map]
    rfl
  have htemporary : temporaryName (checkpointFilename c.chainIndex) pid uuid ∉
      (earlier.map AgentHarnessCheckpoint.file).map Prod.fst := by
    rw [hkeys]
    intro hmem
    obtain ⟨d, -, heq⟩ := List.mem_map.mp hmem
    have hlast := getLast?_checkpointFilename d.chainIndex
    rw [heq, getLast?_temporaryName] at hlast
    exact absurd hlast (by decide)
  have hrename : mapDelete (mapSet (earlier.map AgentHarnessCheckpoint.file)
      (temporaryName (checkpointFilename c.chainIndex) pid uuid) (c.text ++ [0x0A]))
        (temporaryName (checkpointFilename c.chainIndex) pid uuid) =
      earlier.map AgentHarnessCheckpoint.file := by
    rw [mapSet_of_not_mem htemporary, mapDelete, List.filter_append]
    have hkept : (earlier.map AgentHarnessCheckpoint.file).filter
        (·.1 ≠ temporaryName (checkpointFilename c.chainIndex) pid uuid) =
          earlier.map AgentHarnessCheckpoint.file := by
      rw [List.filter_eq_self]
      intro p hp
      simp only [ne_eq, decide_not, Bool.not_eq_true', decide_eq_false_iff_not]
      rintro heq
      exact htemporary (heq ▸ List.mem_map_of_mem hp)
    rw [hkept]
    simp
  have hassert := assert_of_valid hvalid
  unfold writeAgentHarnessCheckpoint
  simp only [if_neg hrunDir, hassert, hsafe, ok_bind, hdirectory]
  rw [AgentHarnessCheckpoint.text] at hrename
  simp only [hrename]
  rw [mapSet_of_not_mem (by rwa [hkeys])]
  simp [AgentHarnessCheckpoint.file, AgentHarnessCheckpoint.text]

/-- The position of each checkpoint is its index, and every checkpoint is valid. -/
def Positioned (dateParse : JsString → JsNumber) (chain : List AgentHarnessCheckpoint) : Prop :=
  ∀ i c, chain[i]? = some c → c.chainIndex.eqNat i = true ∧ Valid dateParse c

theorem Positioned.filename_injective {chain : List AgentHarnessCheckpoint}
    (h : Positioned dateParse chain) {i j : ℕ} {c d : AgentHarnessCheckpoint}
    (hc : chain[i]? = some c) (hd : chain[j]? = some d)
    (heq : checkpointFilename c.chainIndex = checkpointFilename d.chainIndex) : i = j :=
  chainIndex_eq_of_filename_eq (h i c hc).1 (h j d hd).1 heq

theorem writeAll_files {runDir pid jobId : JsString} {randomUUID : ℕ → JsString}
    {earlier rest : List AgentHarnessCheckpoint} (hpositioned : Positioned dateParse (earlier ++ rest))
    (hrunDir : runDir ≠ []) (hsafe : isSafeJobId jobId = true)
    (hjob : ∀ c ∈ rest, c.jobId = jobId) {directory : CheckpointDirectory}
    (hdirectory : directory.getD [] = earlier.map AgentHarnessCheckpoint.file) (i : ℕ) :
    ∃ written, writeAll dateParse runDir pid randomUUID i directory rest = .ok written ∧
      written.getD [] = (earlier ++ rest).map AgentHarnessCheckpoint.file := by
  induction rest generalizing earlier directory i with
  | nil => exact ⟨directory, rfl, by simpa using hdirectory⟩
  | cons c rest ih =>
      have hc : (earlier ++ c :: rest)[earlier.length]? = some c := by simp
      have hnew : checkpointFilename c.chainIndex ∉
          earlier.map fun d ↦ checkpointFilename d.chainIndex := by
        intro hmem
        obtain ⟨d, hd, heq⟩ := List.mem_map.mp hmem
        obtain ⟨j, hj⟩ := List.mem_iff_getElem?.mp hd
        have hlt := (List.getElem?_eq_some_iff.mp hj).1
        have hd' : (earlier ++ c :: rest)[j]? = some d := by
          rw [List.getElem?_append_left hlt, hj]
        have := hpositioned.filename_injective hd' hc heq
        omega
      have hwrite := write_next pid (randomUUID i) hdirectory
        (hpositioned _ _ hc).2 hrunDir (by rw [hjob c (by simp)]; exact hsafe) hnew
      have hlonger : Positioned dateParse ((earlier ++ [c]) ++ rest) := by simpa using hpositioned
      obtain ⟨written, hrest, hfiles⟩ := ih hlonger (fun d hd ↦ hjob d (by simp [hd]))
        (show (some ((earlier ++ [c]).map AgentHarnessCheckpoint.file)).getD [] = _ from rfl) (i + 1)
      refine ⟨written, ?_, by simpa using hfiles⟩
      rw [writeAll, hwrite, ok_bind]
      exact hrest

/-! ## Reading the files -/

theorem readNames_files {jobId : JsString} {chain picked : List AgentHarnessCheckpoint}
    (hpositioned : Positioned dateParse chain) (hjob : ∀ c ∈ chain, c.jobId = jobId)
    (hpicked : ∀ c ∈ picked, c ∈ chain) :
    readNames dateParse jobId (chain.map AgentHarnessCheckpoint.file)
        (picked.map fun c ↦ checkpointFilename c.chainIndex) =
      .ok (picked.map AgentHarnessCheckpoint.unsigned) := by
  have hnodup : ((chain.map AgentHarnessCheckpoint.file).map Prod.fst).Nodup := by
    rw [List.map_map, List.nodup_iff_getElem?_ne_getElem?]
    intro i j hij hj heq
    simp only [List.length_map] at hj
    obtain ⟨c, hc⟩ : ∃ c, chain[i]? = some c := ⟨_, List.getElem?_eq_getElem (by omega)⟩
    obtain ⟨d, hd⟩ : ∃ d, chain[j]? = some d := ⟨_, List.getElem?_eq_getElem hj⟩
    rw [List.getElem?_map, List.getElem?_map, hc, hd] at heq
    have := hpositioned.filename_injective hc hd (Option.some.inj heq)
    omega
  induction picked with
  | nil => rfl
  | cons c picked ih =>
      have hc := hpicked c (by simp)
      obtain ⟨i, hi⟩ := List.mem_iff_getElem?.mp hc
      have hraw : mapGet (chain.map AgentHarnessCheckpoint.file) (checkpointFilename c.chainIndex) =
          some (c.text ++ [0x0A]) :=
        mapGet_eq_some_of_mem hnodup (List.mem_map.mpr ⟨c, hc, rfl⟩)
      have hread := readCheckpoint_file (hpositioned i c hi).2 (checkpointFilename c.chainIndex)
      rw [hjob c hc] at hread
      rw [List.map_cons, readNames, hraw, Option.getD_some, hread]
      simp only [ih fun d hd ↦ hpicked d (by simp [hd]), List.map_cons]

theorem pairwise_chainIndex {chain : List AgentHarnessCheckpoint}
    (hpositioned : Positioned dateParse chain) :
    chain.Pairwise fun a b ↦ a.chainIndex.toRat < b.chainIndex.toRat := by
  rw [List.pairwise_iff_getElem]
  intro i j hi hj hij
  have hindex (k : ℕ) (hk : k < chain.length) : chain[k].chainIndex.toRat = k :=
    (JsNumber.eqNat_iff.mp (hpositioned k chain[k] (List.getElem?_eq_getElem hk)).1).2
  rw [hindex i hi, hindex j hj]
  exact_mod_cast hij

/-- Sorting by index puts the checkpoints back in their order. -/
theorem sortByChainIndex_of_perm {chain found : List AgentHarnessCheckpoint}
    (hpositioned : Positioned dateParse chain) (hperm : found.Perm chain) :
    sortByChainIndex (found.map AgentHarnessCheckpoint.unsigned) =
      chain.map AgentHarnessCheckpoint.unsigned := by
  have hsorted : (sortByChainIndex (found.map AgentHarnessCheckpoint.unsigned)).Pairwise
      fun a b ↦ a.chainIndex.toRat ≤ b.chainIndex.toRat :=
    List.pairwise_insertionSort _ _
  have hchain : (chain.map AgentHarnessCheckpoint.unsigned).Pairwise
      fun a b ↦ a.chainIndex.toRat < b.chainIndex.toRat := by
    rw [List.pairwise_map]
    apply (pairwise_chainIndex hpositioned).imp
    intro a b hab
    simpa [AgentHarnessCheckpoint.unsigned] using hab
  have hsame : (sortByChainIndex (found.map AgentHarnessCheckpoint.unsigned)).Perm
      (chain.map AgentHarnessCheckpoint.unsigned) :=
    (List.perm_insertionSort _ _).trans (hperm.map _)
  apply hsame.eq_of_pairwise _ hsorted (hchain.imp le_of_lt)
  intro a b ha hb hab hba
  have hkeys : ((chain.map AgentHarnessCheckpoint.unsigned).map
      fun c ↦ c.chainIndex.toRat).Nodup := by
    rw [List.Nodup, List.pairwise_map]
    exact hchain.imp ne_of_lt
  exact List.inj_on_of_nodup_map hkeys (hsame.mem_iff.mp ha) hb (le_antisymm hab hba)

theorem read_files {jobId : JsString} {chain : List AgentHarnessCheckpoint}
    (hpositioned : Positioned dateParse chain) (hsafe : isSafeJobId jobId = true)
    (hjob : ∀ c ∈ chain, c.jobId = jobId) {directory : CheckpointDirectory}
    (hdirectory : directory.getD [] = chain.map AgentHarnessCheckpoint.file) :
    readAgentHarnessCheckpointChain dateParse directory jobId =
      .ok (chain.map AgentHarnessCheckpoint.unsigned) := by
  unfold readAgentHarnessCheckpointChain
  rw [if_neg (by simp [hsafe])]
  cases directory with
  | none =>
      have hnil : chain = [] := by simpa [eq_comm] using hdirectory
      rw [hnil]
      rfl
  | some files =>
      obtain rfl : files = chain.map AgentHarnessCheckpoint.file := hdirectory
      let found := sortOn (fun c : AgentHarnessCheckpoint ↦ checkpointFilename c.chainIndex) chain
      have hnames : sortStrings (((chain.map AgentHarnessCheckpoint.file).map Prod.fst).filter
          (endsWith · (js ".json"))) = found.map fun c ↦ checkpointFilename c.chainIndex := by
        rw [List.map_map, List.filter_eq_self.mpr]
        · exact (map_sortOn _ chain).symm
        · intro name hname
          obtain ⟨c, -, rfl⟩ := List.mem_map.mp hname
          exact endsWith_checkpointFilename c.chainIndex
      have hread := readNames_files hpositioned hjob fun c (hc : c ∈ found) ↦ by simpa [found] using hc
      simp only [hnames, hread]
      exact congrArg Except.ok
        (sortByChainIndex_of_perm hpositioned (List.perm_insertionSort _ chain))

def sampleRootInput : AppendAgentHarnessCheckpointInput where
  jobId := js "job-1"
  roleStepId := js "planner"
  attempt := 1
  status := js "started"
  inputHash := List.replicate 64 0x61
  outputHash := none
  nextRoleStepIds := some [js "judge"]
  startedAt := js "2026-01-01T00:00:00Z"
  completedAt := js "2026-01-01T00:00:00Z"
  errorClass := none
  runId := js "11111111-1111-4111-8111-111111111111"
  parentRunId := none
  promptTokens := 0
  completionTokens := 0

def sampleNextInput : AppendAgentHarnessCheckpointInput :=
  { sampleRootInput with
    roleStepId := js "judge"
    status := js "completed"
    nextRoleStepIds := none
    runId := js "22222222-2222-4222-8222-222222222222"
    parentRunId := some (js "11111111-1111-4111-8111-111111111111")
    promptTokens := 12 }

end TestIntelligence.AgenticHarness.Checkpoint
