import TestIntelligence.AgenticHarness.ConsolidationLock
import TestIntelligence.Chains.HashChain
import TestIntelligence.Chains.NumberedFiles

/-!
# The files of the consolidation lock

A lock body reads back from its file exactly when it passes the checks of the
reader.  The log of lock events is a hash chain in a directory of numbered files;
an append extends the chain by one event or leaves it as it was.
-/

namespace TestIntelligence.AgenticHarness.ConsolidationLock

open Js Security Chains
open Checkpoint (textOf numberOf optionalTextOf temporaryName natText isHex64 isNonEmptyString
  rootParentHash optionalTextOf_str getLast?_temporaryName maxArrayLength)

/-! ## Number checks do not see the sign of a zero -/

theorem isPositiveInteger_unsigned (x : JsNumber) :
    isPositiveInteger x.unsigned = isPositiveInteger x := by
  simp only [isPositiveInteger, JsNumber.isInteger_unsigned, JsNumber.unsigned_le_right]

theorem isNonNegativeFinite_unsigned (x : JsNumber) :
    isNonNegativeFinite x.unsigned = isNonNegativeFinite x := by
  simp only [isNonNegativeFinite, JsNumber.isFinite_unsigned, JsNumber.unsigned_lt_left]

theorem isFinite_of_isPositiveInteger {x : JsNumber} (h : isPositiveInteger x = true) :
    x.isFinite = true :=
  JsNumber.isFinite_of_isInteger (Bool.and_eq_true_iff.mp h).1

theorem isFinite_of_isNonNegativeFinite {x : JsNumber} (h : isNonNegativeFinite x = true) :
    x.isFinite = true :=
  (Bool.and_eq_true_iff.mp h).1

theorem isNumberWith_printed {check : JsNumber → Bool} {x : JsNumber}
    (hfinite : check x = true → x.isFinite = true) (hunsigned : check x.unsigned = check x) :
    isNumberWith check (some (sortValue (Json.num x).printed)) = check x := by
  by_cases hx : x.isFinite = true
  · rw [sortValue_printed_num hx]
    exact hunsigned
  · have hfails : check x = false := by
      by_contra hcheck
      exact hx (hfinite (by simpa using hcheck))
    rw [Json.printed, if_neg hx, hfails]
    rfl

/-! ## Lock bodies -/

structure ConsolidationLockBody.Valid (body : ConsolidationLockBody) : Prop where
  schema : body.schemaVersion = ConsolidationLock.schemaVersion
  state : body.state ∈ consolidationLockStates
  holderId : body.holderId ≠ []
  holderPid : isPositiveInteger body.holderPid = true
  holderHost : body.holderHost ≠ []
  acquiredAtMs : isNonNegativeFinite body.acquiredAtMs = true

def ConsolidationLockBody.unsigned (body : ConsolidationLockBody) : ConsolidationLockBody :=
  { body with
    holderPid := body.holderPid.unsigned
    acquiredAtMs := body.acquiredAtMs.unsigned }

theorem released_ne_held : LockState.released.text ≠ LockState.held.text := by decide

theorem ConsolidationLockBody.Valid.held_or_released {body : ConsolidationLockBody}
    (h : body.Valid) :
    body.state = LockState.held.text ∨ body.state = LockState.released.text := by
  simpa [consolidationLockStates] using h.state

theorem lockText_unsigned (body : ConsolidationLockBody) :
    lockText body.unsigned = lockText body := by
  have hprinted : (Json.obj (presentMembers body.unsigned.fields)).printed =
      (Json.obj (presentMembers body.fields)).printed := by
    simp only [printed_presentMembers]
    simp [ConsolidationLockBody.fields, ConsolidationLockBody.unsigned, Json.printed_num_unsigned]
  rw [lockText, lockText, ← canonicalJson_printed, hprinted, canonicalJson_printed]

theorem assertLockBody_eq_ok_iff {member : String → Option Json} {site : JsString} :
    assertLockBody member site = .ok () ↔ ∀ error ∈ lockBodyErrors member site, error = none := by
  have hnone : (lockBodyErrors member site).findSome? id = none ↔
      ∀ error ∈ lockBodyErrors member site, error = none := List.findSome?_eq_none_iff
  rw [← hnone, assertLockBody]
  cases (lockBodyErrors member site).findSome? id with
  | none => simp
  | some message => simp

theorem keys_bodyFields (body : ConsolidationLockBody) : body.fields.map Prod.fst =
    ["schemaVersion", "state", "holderId", "holderPid", "holderHost", "acquiredAtMs"].map js := rfl

/-- The members of a parsed lock file. -/
theorem parse_lockText (body : ConsolidationLockBody) :
    ∃ members, Json.parse (lockText body) = some (.obj members) ∧
      mapGet members (js "schemaVersion") = some (.str body.schemaVersion) ∧
      mapGet members (js "state") = some (.str body.state) ∧
      mapGet members (js "holderId") = some (.str body.holderId) ∧
      mapGet members (js "holderPid") = some (sortValue (Json.num body.holderPid).printed) ∧
      mapGet members (js "holderHost") = some (.str body.holderHost) ∧
      mapGet members (js "acquiredAtMs") =
        some (sortValue (Json.num body.acquiredAtMs).printed) := by
  have hfields : Enumerated body.fields := by
    rw [Enumerated, keys_bodyFields]
    decide
  have hproto : protoKey ∉ body.fields.map Prod.fst := by
    rw [keys_bodyFields]
    decide
  have hvalues : ∀ field ∈ body.fields, ∀ v ∈ field.2, v.Ordered := by
    simp [ConsolidationLockBody.fields]
  have hends : EndsDecimal [] := by simp [EndsDecimal]
  obtain ⟨members, hparse, hread⟩ := parse_fields hfields hproto hvalues (by rfl) hends
  rw [List.append_nil] at hparse
  refine ⟨members, hparse, ?_⟩
  simpa only [ConsolidationLockBody.fields, List.forall_mem_cons, List.not_mem_nil, false_imp_iff,
    implies_true, and_true, Option.map_some, sortValue_printed_str] using hread

/-- A lock file reads back exactly when its body passes the checks. -/
theorem parseLockBody_of_parse {raw : JsString} {members : List (JsString × Json)}
    (h : Json.parse raw = some (.obj members)) :
    parseLockBody raw = (assertLockBody (fun key ↦ mapGet members (js key))
      (js "readLockBody")).map fun _ ↦ lockBodyOf fun key ↦ mapGet members (js key) := by
  rw [parseLockBody, h]
  dsimp only
  cases assertLockBody (fun key ↦ mapGet members (js key)) (js "readLockBody") <;> rfl

theorem parseLockBody_lockText_eq_ok_iff {body found : ConsolidationLockBody} :
    parseLockBody (lockText body) = .ok found ↔ body.Valid ∧ found = body.unsigned := by
  obtain ⟨members, hparse, hschema, hstate, hid, hpid, hhost, hacquired⟩ := parse_lockText body
  let member (key : String) : Option Json := mapGet members (js key)
  have hvalid : (∀ error ∈ lockBodyErrors member (js "readLockBody"), error = none) ↔
      body.Valid := by
    simp only [member, lockBodyErrors, List.forall_mem_cons, List.not_mem_nil, false_imp_iff,
      implies_true, and_true, ite_eq_left_iff, reduceCtorEq, imp_false, hschema, hstate, hid, hpid,
      hhost, hacquired, isNumberWith_printed isFinite_of_isPositiveInteger
        (isPositiveInteger_unsigned _), isNumberWith_printed isFinite_of_isNonNegativeFinite
        (isNonNegativeFinite_unsigned _), isTextWith]
    constructor
    · rintro ⟨h1, h2, h3, h4, h5, h6⟩
      exact ⟨by simpa using h1, by simpa using h2, by simpa [isNonEmptyString] using h3,
        by simpa using h4, by simpa [isNonEmptyString] using h5, by simpa using h6⟩
    · rintro ⟨h1, h2, h3, h4, h5, h6⟩
      exact ⟨by simpa using h1, by simpa using h2, by simpa [isNonEmptyString] using h3,
        by simpa using h4, by simpa [isNonEmptyString] using h5, by simpa using h6⟩
  have hbody : body.Valid → lockBodyOf member = body.unsigned := by
    intro h
    have hpid' := sortValue_printed_num (isFinite_of_isPositiveInteger h.holderPid)
    have hacquired' := sortValue_printed_num (isFinite_of_isNonNegativeFinite h.acquiredAtMs)
    simp only [lockBodyOf, member, hschema, hstate, hid, hpid, hhost, hacquired, hpid', hacquired',
      textOf, numberOf]
    rfl
  have hread : parseLockBody (lockText body) =
      (assertLockBody member (js "readLockBody")).map fun _ ↦ lockBodyOf member :=
    parseLockBody_of_parse hparse
  rw [hread, ← hvalid, ← assertLockBody_eq_ok_iff]
  cases hassert : assertLockBody member (js "readLockBody") with
  | error error => simp [Except.map]
  | ok _ =>
      have h := hbody (hvalid.mp (assertLockBody_eq_ok_iff.mp hassert))
      simp [h, eq_comm, Except.map]

/-- Whatever a lock file holds, a body that is read from it passes the checks. -/
theorem valid_of_parseLockBody {raw : JsString} {body : ConsolidationLockBody}
    (h : parseLockBody raw = .ok body) : body.Valid := by
  unfold parseLockBody at h
  split at h
  · cases h
  · cases h
  · next parsed _ =>
      dsimp only at h
      split at h
      · cases h
      · next hassert =>
          obtain rfl := Except.ok.inj h
          have hchecks := assertLockBody_eq_ok_iff.mp hassert
          simp only [lockBodyErrors, List.forall_mem_cons, ite_eq_left_iff, reduceCtorEq, imp_false,
            not_not] at hchecks
          obtain ⟨hschema, hstate, hid, hpid, hhost, hacquired, -⟩ := hchecks
          obtain ⟨schema, hschemaEq, hschema⟩ := isTextWith_eq_true hschema
          obtain ⟨state, hstateEq, hstate⟩ := isTextWith_eq_true hstate
          obtain ⟨holderId, hidEq, hid⟩ := isTextWith_eq_true hid
          obtain ⟨pid, hpidEq, hpid⟩ := isNumberWith_eq_true hpid
          obtain ⟨host, hhostEq, hhost⟩ := isTextWith_eq_true hhost
          obtain ⟨acquired, hacquiredEq, hacquired⟩ := isNumberWith_eq_true hacquired
          simp only [lockBodyOf, hschemaEq, hstateEq, hidEq, hpidEq, hhostEq, hacquiredEq, textOf,
            numberOf, Option.getD_some]
          exact ⟨by simpa using hschema, by simpa using hstate,
            by simpa [isNonEmptyString] using hid, hpid, by simpa [isNonEmptyString] using hhost,
            hacquired⟩

theorem readLockBody_eq_ok_none_iff {lock : Option LockFile} :
    readLockBody lock = .ok none ↔ lock = none := by
  cases lock with
  | none => simp [readLockBody]
  | some file =>
      simp only [readLockBody, reduceCtorEq, iff_false]
      cases parseLockBody file.text with
      | error error => simp
      | ok body => simp

theorem readLockBody_eq_ok_some_iff {lock : Option LockFile} {body : ConsolidationLockBody}
    {mtimeMs : JsNumber} : readLockBody lock = .ok (some (body, mtimeMs)) ↔
      ∃ file, lock = some file ∧ parseLockBody file.text = .ok body ∧ file.mtimeMs = mtimeMs := by
  cases lock with
  | none => simp [readLockBody]
  | some file =>
      rw [readLockBody]
      cases hparse : parseLockBody file.text with
      | error error => simp [hparse]
      | ok found =>
          simp only [Except.ok.injEq, Option.some.injEq, Prod.mk.injEq, exists_eq_left', hparse]

/-! ## Lock events -/

def ValidEvent (event : ConsolidationLockEvent) : Prop :=
  ∀ error ∈ lockEventErrors event [], error = none

theorem assertLockEvent_eq_ok_iff {event : ConsolidationLockEvent} {site : JsString} :
    assertLockEvent event site = .ok () ↔ ValidEvent event := by
  have hsite : (∀ error ∈ lockEventErrors event site, error = none) ↔ ValidEvent event := by
    simp only [ValidEvent, lockEventErrors, List.forall_mem_cons, List.not_mem_nil, false_imp_iff,
      implies_true, ite_eq_left_iff, reduceCtorEq, imp_false]
  have hnone : (lockEventErrors event site).findSome? id = none ↔ ValidEvent event :=
    List.findSome?_eq_none_iff.trans hsite
  rw [← hnone, assertLockEvent]
  cases (lockEventErrors event site).findSome? id with
  | none => simp
  | some message => simp

def ConsolidationLockEvent.unsigned (event : ConsolidationLockEvent) : ConsolidationLockEvent :=
  { event with
    holderPid := event.holderPid.unsigned
    priorHolderPid := event.priorHolderPid.map JsNumber.unsigned
    priorAcquiredAtMs := event.priorAcquiredAtMs.map JsNumber.unsigned
    occurredAtMs := event.occurredAtMs.unsigned
    chainIndex := event.chainIndex.unsigned }

theorem unsigned_unsigned_event (event : ConsolidationLockEvent) :
    event.unsigned.unsigned = event.unsigned := by
  simp [ConsolidationLockEvent.unsigned, Function.comp_def]

theorem text_unsigned_event (event : ConsolidationLockEvent) :
    event.unsigned.text = event.text := by
  have hprinted : (Json.obj (presentMembers event.unsigned.fields)).printed =
      (Json.obj (presentMembers event.fields)).printed := by
    simp only [printed_presentMembers]
    simp [ConsolidationLockEvent.fields, ConsolidationLockEvent.unsigned,
      Json.printed_num_unsigned, Function.comp_def]
  rw [ConsolidationLockEvent.text, ConsolidationLockEvent.text, ← canonicalJson_printed, hprinted,
    canonicalJson_printed]

theorem validEvent_unsigned {event : ConsolidationLockEvent} (h : ValidEvent event) :
    ValidEvent event.unsigned := by
  have herrors : lockEventErrors event.unsigned [] = lockEventErrors event [] := by
    have hpid : (event.priorHolderPid.map JsNumber.unsigned).all isPositiveInteger =
        event.priorHolderPid.all isPositiveInteger := by
      cases event.priorHolderPid with
      | none => rfl
      | some x => exact isPositiveInteger_unsigned x
    simp only [lockEventErrors, ConsolidationLockEvent.unsigned, isPositiveInteger_unsigned,
      isNonNegativeFinite_unsigned, JsNumber.isInteger_unsigned, JsNumber.unsigned_lt_left,
      JsNumber.unsigned_strictEq_left, hpid]
    rfl
  rw [ValidEvent, herrors]
  exact h

/-- An event as it stands in a file: it passes the checks, its numbers are finite
and no zero has a sign. -/
structure StoredEvent (event : ConsolidationLockEvent) : Prop where
  valid : ValidEvent event
  priorPid : event.priorHolderPid.all JsNumber.isFinite = true
  priorAcquired : event.priorAcquiredAtMs.all JsNumber.isFinite = true
  plain : event.unsigned = event

theorem ValidEvent.finite {event : ConsolidationLockEvent} (h : ValidEvent event) :
    event.holderPid.isFinite = true ∧ event.occurredAtMs.isFinite = true ∧
      event.chainIndex.isFinite = true := by
  simp only [ValidEvent, lockEventErrors, List.forall_mem_cons, ite_eq_left_iff, reduceCtorEq,
    imp_false, not_not, Bool.and_eq_true] at h
  obtain ⟨-, -, -, hpid, -, hoccurred, -, ⟨hindex, -⟩, -⟩ := h
  exact ⟨isFinite_of_isPositiveInteger hpid, isFinite_of_isNonNegativeFinite hoccurred,
    JsNumber.isFinite_of_isInteger hindex⟩

theorem optionalNumberOf_printed {x : Option JsNumber} (hx : x.all JsNumber.isFinite = true) :
    optionalNumberOf (x.map fun y ↦ sortValue (Json.num y).printed) =
      some (x.map JsNumber.unsigned) := by
  cases x with
  | none => rfl
  | some y =>
      rw [Option.map_some, sortValue_printed_num hx]
      rfl

theorem keys_eventFields (event : ConsolidationLockEvent) : event.fields.map Prod.fst =
    ["schemaVersion", "eventType", "holderId", "holderPid", "holderHost", "priorHolderId",
      "priorHolderPid", "priorHolderHost", "priorAcquiredAtMs", "occurredAtMs", "parentHash",
      "chainIndex"].map js := rfl

/-- The file that holds an event. -/
def ConsolidationLockEvent.file (event : ConsolidationLockEvent) : JsString × JsString :=
  (numberedName event.chainIndex, event.text ++ [0x0A])

theorem readLockEvent_text {event : ConsolidationLockEvent} (h : StoredEvent event)
    (name : JsString) : readLockEvent name (event.text ++ [0x0A]) = .ok event := by
  have hfields : Enumerated event.fields := by
    rw [Enumerated, keys_eventFields]
    decide
  have hproto : protoKey ∉ event.fields.map Prod.fst := by
    rw [keys_eventFields]
    decide
  have hvalues : ∀ field ∈ event.fields, ∀ v ∈ field.2, v.Ordered := by
    simp [ConsolidationLockEvent.fields]
  obtain ⟨members, hparse, hread⟩ := parse_fields hfields hproto hvalues
    (show skipSpace [0x0A] = [] by decide) (endsDecimal_cons (by decide))
  obtain ⟨hpid, hoccurred, hindex⟩ := h.valid.finite
  simp only [ConsolidationLockEvent.fields, List.forall_mem_cons, List.not_mem_nil, false_imp_iff,
    implies_true, and_true, Option.map_some, Option.map_map, Function.comp_def,
    sortValue_printed_str, sortValue_printed_num, hpid, hoccurred, hindex] at hread
  obtain ⟨h1, h2, h3, h4, h5, h6, h7, h8, h9, h10, h11, h12⟩ := hread
  have hevent : lockEventOf members = some event.unsigned := by
    simp only [lockEventOf, h1, h2, h3, h4, h5, h6, h7, h8, h9, h10, h11, h12, textOf, numberOf,
      optionalTextOf_str, optionalNumberOf_printed h.priorPid,
      optionalNumberOf_printed h.priorAcquired]
    rfl
  rw [ConsolidationLockEvent.text, readLockEvent, hparse]
  simp only [hevent, h.plain]

/-! ## The log -/

section

variable (sha256 : JsString → JsString)

/-- The directory holds the events of a chain, each in the file of its position. -/
structure Log (directory : EventDirectory) (events : List ConsolidationLockEvent) : Prop where
  files : directory.getD [] = events.map ConsolidationLockEvent.file
  inOrder : InOrder (·.chainIndex) events
  stored : ∀ event ∈ events, StoredEvent event
  linked : Linked (·.parentHash) (computeEventHash sha256) rootParentHash events

variable {sha256} {directory : EventDirectory} {events : List ConsolidationLockEvent}

theorem log_empty : Log sha256 none [] where
  files := rfl
  inOrder := inOrder_nil
  stored := by simp
  linked := trivial

theorem Log.readEventChain_eq (h : Log sha256 directory events) :
    readEventChain directory = .ok events := by
  have hnumbered : events.map ConsolidationLockEvent.file =
      events.map fun event ↦ (numberedName event.chainIndex, event.text ++ [0x0A]) := rfl
  cases hdirectory : directory with
  | none =>
      have hfiles := h.files
      rw [hdirectory, Option.getD_none, eq_comm, List.map_eq_nil_iff] at hfiles
      rw [hfiles]
      rfl
  | some files =>
      obtain rfl : files = events.map ConsolidationLockEvent.file := by
        simpa [hdirectory] using h.files
      have hread := h.inOrder.mapM_read (fun event ↦ event.text ++ [0x0A]) readLockEvent
        (fun event hevent ↦ readLockEvent_text (h.stored event hevent) _)
        fun event (hevent : event ∈ sortOn (fun event ↦ numberedName event.chainIndex) events) ↦
          mem_sortOn.mp hevent
      have hnames := sorted_names (fun event : ConsolidationLockEvent ↦ event.chainIndex) events
        fun event ↦ event.text ++ [0x0A]
      rw [readEventChain, hnumbered]
      simp only [hnames, hread]
      exact congrArg Except.ok (h.inOrder.insertionSort_of_perm (sortOn_perm _ events))

theorem verifyFrom_eq_ok {rest : List ConsolidationLockEvent} {i : ℕ} {seen : List JsNumber}
    {previousHash : JsString}
    (hindex : ∀ (j : ℕ) (event : ConsolidationLockEvent), rest[j]? = some event →
      event.chainIndex.eqNat (i + j) = true)
    (hvalid : ∀ event ∈ rest, ValidEvent event)
    (hlinked : Linked (·.parentHash) (computeEventHash sha256) previousHash rest)
    (hroot : i = 0 → previousHash = rootParentHash) (hseen : ∀ x ∈ seen, x.toRat < i) :
    verifyFrom sha256 seen previousHash i rest =
      .ok (head (computeEventHash sha256) previousHash rest) := by
  induction rest generalizing i seen previousHash with
  | nil => rfl
  | cons event rest ih =>
      have hposition : event.chainIndex.eqNat i = true := hindex 0 event rfl
      have hrat := (JsNumber.eqNat_iff.mp hposition).2
      have hfresh : event.chainIndex.unsigned ∉ seen := by
        intro hmem
        have hlt := hseen _ hmem
        rw [JsNumber.toRat_unsigned, hrat] at hlt
        exact lt_irrefl _ hlt
      have hstep : verifyAt sha256 seen previousHash i event = .ok (computeEventHash sha256 event) := by
        rw [verifyAt, if_neg hfresh, if_neg (by simp [hposition]),
          assertLockEvent_eq_ok_iff.mpr (hvalid event List.mem_cons_self)]
        dsimp only
        rw [if_neg, if_neg]
        · exact fun h ↦ h.2 hlinked.1
        · exact fun h ↦ h.2 (hlinked.1.trans (hroot h.1))
      rw [verifyFrom, hstep]
      refine ih ?_ (fun e he ↦ hvalid e (List.mem_cons_of_mem event he)) hlinked.2 nofun ?_
      · intro j e he
        have hnext := hindex (j + 1) e he
        rwa [show i + (j + 1) = i + 1 + j by omega] at hnext
      · intro x hx
        rcases mem_setAdd.mp hx with hold | rfl
        · have hlt := hseen x hold
          push_cast
          linarith
        · rw [JsNumber.toRat_unsigned, hrat]
          push_cast
          linarith

/-- The verifier accepts the whole log. -/
theorem Log.verify_eq (h : Log sha256 directory events) :
    verifyConsolidationLockEventChain sha256 events =
      .ok (head (computeEventHash sha256) rootParentHash events) events.length := by
  have hloop : verifyFrom sha256 [] rootParentHash 0 events =
      .ok (head (computeEventHash sha256) rootParentHash events) := by
    apply verifyFrom_eq_ok
    · intro j event hevent
      rw [Nat.zero_add]
      exact h.inOrder j event hevent
    · exact fun event hevent ↦ (h.stored event hevent).valid
    · exact h.linked
    · exact fun _ ↦ rfl
    · simp
  rw [verifyConsolidationLockEventChain]
  split
  · next hzero =>
      rw [List.length_eq_zero_iff.mp hzero]
      rfl
  · rw [hloop]

/-! ## Appending an event -/

structure LockEventSeed.Valid (seed : LockEventSeed) : Prop where
  holderId : seed.holderId ≠ []
  holderPid : isPositiveInteger seed.holderPid = true
  holderHost : seed.holderHost ≠ []
  occurredAtMs : isNonNegativeFinite seed.occurredAtMs = true

/-- The displaced holder was read from a lock file; every takeover has one. -/
structure LockEventSeed.PriorRead (seed : LockEventSeed) : Prop where
  valid : ∀ body ∈ seed.prior, body.Valid
  takeover : seed.eventType = .lockTakeover → seed.prior.isSome = true

theorem Log.nextIndex (h : Log sha256 directory events) (hlength : events.length < maxArrayLength)
    (seed : LockEventSeed) :
    (nextLockEvent sha256 events.getLast? seed).chainIndex.eqNat events.length = true := by
  rcases List.eq_nil_or_concat' events with rfl | ⟨before, last, rfl⟩
  · exact JsNumber.eqNat_zero
  · have hlast := h.inOrder before.length last (by simp)
    simp only [nextLockEvent, List.getLast?_concat, Option.elim_some, List.length_append,
      List.length_singleton] at hlength ⊢
    apply JsNumber.eqNat_add_one hlast
    unfold maxArrayLength at hlength
    omega

theorem parentHash_next (events : List ConsolidationLockEvent) (seed : LockEventSeed) :
    (nextLockEvent sha256 events.getLast? seed).parentHash =
      head (computeEventHash sha256) rootParentHash events := by
  rcases List.eq_nil_or_concat' events with rfl | ⟨before, last, rfl⟩
  · rfl
  · simp [nextLockEvent]

theorem isHex64_head (hsha : ∀ text, isHex64 (sha256 text) = true)
    (events : List ConsolidationLockEvent) :
    isHex64 (head (computeEventHash sha256) rootParentHash events) = true := by
  rcases List.eq_nil_or_concat' events with rfl | ⟨before, last, rfl⟩
  · rw [head_nil]
    decide
  · rw [head_concat]
    exact hsha _

/-- The checks of an append depend only on the seed. -/
theorem Log.validEvent_next_iff (h : Log sha256 directory events)
    (hsha : ∀ text, isHex64 (sha256 text) = true) (hlength : events.length < maxArrayLength)
    {seed : LockEventSeed} (hprior : seed.PriorRead) :
    ValidEvent (nextLockEvent sha256 events.getLast? seed) ↔ seed.Valid := by
  have hindex := h.nextIndex hlength seed
  have hroot : (!(nextLockEvent sha256 events.getLast? seed).chainIndex.strictEq 0 ||
      head (computeEventHash sha256) rootParentHash events == rootParentHash) = true := by
    cases hzero : (nextLockEvent sha256 events.getLast? seed).chainIndex.strictEq 0 with
    | false => rfl
    | true =>
        have hnil := List.length_eq_zero_iff.mp (JsNumber.eq_zero_of_strictEq_zero hindex hzero)
        simp [hnil]
  have htype : consolidationLockEventTypes.contains seed.eventType.text = true := by
    cases seed.eventType <;> decide
  have htakeover : (seed.eventType.text == LockEventType.lockTakeover.text) =
      decide (seed.eventType = .lockTakeover) := by
    cases seed.eventType <;> decide
  have hpriorId : seed.eventType = .lockTakeover →
      (seed.prior.map (·.holderId)).any isNonEmptyString = true := by
    intro htype
    obtain ⟨body, hbody⟩ := Option.isSome_iff_exists.mp (hprior.takeover htype)
    have hid := (hprior.valid body hbody).holderId
    rw [hbody]
    simpa [isNonEmptyString] using hid
  have hpriorPid : (seed.prior.map (·.holderPid)).all isPositiveInteger = true := by
    cases hbody : seed.prior with
    | none => rfl
    | some body => exact (hprior.valid body hbody).holderPid
  have hpriorHost : (seed.prior.map (·.holderHost)).all isNonEmptyString = true := by
    cases hbody : seed.prior with
    | none => rfl
    | some body => simpa [isNonEmptyString] using (hprior.valid body hbody).holderHost
  simp only [ValidEvent, lockEventErrors, List.forall_mem_cons, List.not_mem_nil, false_imp_iff,
    implies_true, and_true, ite_eq_left_iff, reduceCtorEq, imp_false, not_not, parentHash_next,
    hroot, JsNumber.isInteger_of_eqNat hindex, JsNumber.not_lt_zero_of_eqNat hindex,
    isHex64_head hsha]
  simp only [nextLockEvent, htype, htakeover, hpriorPid, hpriorHost, beq_self_eq_true,
    Bool.or_true, Bool.and_true, Bool.not_false, Bool.or_eq_true, Bool.not_eq_true',
    decide_eq_false_iff_not, true_and, and_true]
  constructor
  · rintro ⟨hid, hpid, hhost, hoccurred, -⟩
    exact ⟨by simpa [isNonEmptyString] using hid, hpid, by simpa [isNonEmptyString] using hhost,
      hoccurred⟩
  · rintro ⟨hid, hpid, hhost, hoccurred⟩
    refine ⟨by simpa [isNonEmptyString] using hid, hpid, by simpa [isNonEmptyString] using hhost,
      hoccurred, ?_⟩
    by_cases htype : seed.eventType = .lockTakeover
    · exact .inr (hpriorId htype)
    · exact .inl htype

/-- An append extends the log by one event when its seed passes the checks, and
otherwise leaves it as it was. -/
theorem Log.append (h : Log sha256 directory events) (hsha : ∀ text, isHex64 (sha256 text) = true)
    (hlength : events.length < maxArrayLength) (pid uuid : JsString) {seed : LockEventSeed}
    (hprior : seed.PriorRead) :
    (seed.Valid ∧ ∃ event directory', appendLockEvent sha256 pid uuid directory seed =
        (.ok event, directory') ∧ Log sha256 directory' (events ++ [event.unsigned])) ∨
      (¬ seed.Valid ∧ ∃ error directory', appendLockEvent sha256 pid uuid directory seed =
        (.error error, directory') ∧ Log sha256 directory' events) := by
  have hfiles : Log sha256 (some (directory.getD [])) events :=
    ⟨h.files, h.inOrder, h.stored, h.linked⟩
  have hread := hfiles.readEventChain_eq
  have hvalid := h.validEvent_next_iff hsha hlength hprior
  unfold appendLockEvent
  simp only [hread]
  by_cases hseed : seed.Valid
  · left
    refine ⟨hseed, nextLockEvent sha256 events.getLast? seed, ?_⟩
    set event := nextLockEvent sha256 events.getLast? seed with hevent
    have hindex : event.chainIndex.eqNat events.length = true := h.nextIndex hlength seed
    have hassert : assertLockEvent event (js "appendLockEvent") = .ok () :=
      assertLockEvent_eq_ok_iff.mpr (hvalid.mpr hseed)
    simp only [hassert]
    refine ⟨_, rfl, ?_, ?_, ?_, ?_⟩
    · have hnames : (events.map ConsolidationLockEvent.file).map Prod.fst =
          events.map fun event ↦ numberedName event.chainIndex := by
        rw [List.map_map]
        rfl
      have hname := h.inOrder.name_not_mem hindex
      have htemporary : temporaryName (eventFilename event.chainIndex) pid uuid ∉
          events.map fun event ↦ numberedName event.chainIndex := by
        intro hmem
        obtain ⟨other, -, heq⟩ := List.mem_map.mp hmem
        exact numberedName_ne_append (getLast?_temporaryName _ _ _) _ heq
      have hfile : event.unsigned.file = (eventFilename event.chainIndex, event.text ++ [0x0A]) := by
        rw [ConsolidationLockEvent.file, text_unsigned_event]
        simp [ConsolidationLockEvent.unsigned, numberedName, eventFilename, numberText_unsigned]
      rw [Option.getD_some, h.files, rename_eq_append (by rwa [hnames]) (by rwa [hnames])]
      simp [hfile]
    · exact h.inOrder.concat ((JsNumber.eqNat_unsigned _ _).trans hindex)
    · intro e he
      rcases List.mem_append.mp he with hold | hnew
      · exact h.stored e hold
      · obtain rfl := List.mem_singleton.mp hnew
        refine ⟨validEvent_unsigned (hvalid.mpr hseed), ?_, ?_, unsigned_unsigned_event event⟩
        · cases hbody : seed.prior with
          | none => simp [hevent, nextLockEvent, ConsolidationLockEvent.unsigned, hbody]
          | some body =>
              have hpid := isFinite_of_isPositiveInteger (hprior.valid body hbody).holderPid
              simpa [hevent, nextLockEvent, ConsolidationLockEvent.unsigned, hbody] using hpid
        · cases hbody : seed.prior with
          | none => simp [hevent, nextLockEvent, ConsolidationLockEvent.unsigned, hbody]
          | some body =>
              have hfinite := isFinite_of_isNonNegativeFinite (hprior.valid body hbody).acquiredAtMs
              simpa [hevent, nextLockEvent, ConsolidationLockEvent.unsigned, hbody] using hfinite
    · rw [linked_concat]
      exact ⟨h.linked, parentHash_next events seed⟩
  · right
    refine ⟨hseed, ?_⟩
    cases hassert : assertLockEvent (nextLockEvent sha256 events.getLast? seed)
        (js "appendLockEvent") with
    | ok _ => exact absurd (hvalid.mp (assertLockEvent_eq_ok_iff.mp hassert)) hseed
    | error message => exact ⟨_, _, rfl, hfiles⟩

end

end TestIntelligence.AgenticHarness.ConsolidationLock
