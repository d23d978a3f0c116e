import TestIntelligence.AgenticHarness.FormalVerification.Evaluator
import TestIntelligence.ModelGateway.CircuitBreaker
import TestIntelligence.Security.Records
import TestIntelligence.Systems.ReadModifyWrite

/-!
# The state file of the circuit breakers

All breakers keep their state in one file.  A write reads the file, sets the entry of its
own breaker and replaces the file, without a lock.  A file is the text that it decodes to.
-/

namespace TestIntelligence.ProductionRunner

open Js Security Systems ReadModifyWrite
open ModelGateway.CircuitBreaker (LlmCircuitState LlmCircuitPersistentState)
open AgenticHarness.FormalVerification (inheritedNames)

def circuitStateText : LlmCircuitState → JsString
  | .closed => js "closed"
  | .opened => js "open"
  | .halfOpen => js "half_open"

structure PersistentCircuitBreakerStateEntry where
  updatedAt : JsString
  snapshot : LlmCircuitPersistentState
  deriving DecidableEq

def snapshotFields (snapshot : LlmCircuitPersistentState) : List (JsString × Option Json) :=
  [(js "state", some (.str (circuitStateText snapshot.state))),
    (js "consecutiveFailures", some (.num snapshot.consecutiveFailures)),
    (js "openedAtMs", snapshot.openedAtMs.map .num)]

def PersistentCircuitBreakerStateEntry.toJson (entry : PersistentCircuitBreakerStateEntry) :
    Json :=
  .obj [(js "updatedAt", .str entry.updatedAt),
    (js "snapshot", .obj (presentMembers (snapshotFields entry.snapshot)))]

inductive StateFileError
  | syntaxError
  | typeError (message : JsString)
  deriving DecidableEq

/-- The entries of the file; a file is always given the schema version `1.0.0`. -/
def decodePersistentCircuitBreakerStateFile :
    Json → Except StateFileError (List (JsString × Json))
  | .obj candidate =>
      match mapGet candidate (js "entries") with
      | some (.obj entries) => .ok entries
      | _ =>
          .error (.typeError (js "persistent circuit breaker state file entries must be an object"))
  | _ => .error (.typeError (js "persistent circuit breaker state file must be an object"))

def parseStateFile (raw : JsString) : Except StateFileError (List (JsString × Json)) :=
  match Json.parse raw with
  | none => .error .syntaxError
  | some parsed => decodePersistentCircuitBreakerStateFile parsed

inductive LoadedEntry
  | undefined
  | own (value : Json)
  | inherited (name : JsString)

/-- `entries[key]` -/
def readEntryOf (entries : List (JsString × Json)) (key : JsString) : LoadedEntry :=
  match mapGet entries key with
  | some value => .own value
  | none => if key ∈ inheritedNames then .inherited key else .undefined

def loadPersistentCircuitBreakerState (file : Option JsString) (key : JsString) :
    Except StateFileError LoadedEntry :=
  match file with
  | none => .ok .undefined
  | some raw => (parseStateFile raw).map fun entries ↦ readEntryOf entries key

/-- The entries that a write starts from: a file that is absent or no JSON counts as empty. -/
def entriesToUpdate (file : Option JsString) : Except StateFileError (List (JsString × Json)) :=
  match file with
  | none => .ok []
  | some raw =>
      match parseStateFile raw with
      | .error .syntaxError => .ok []
      | outcome => outcome

/-- `entries[key] = entry` on an object that inherits from `Object.prototype`. -/
def assignEntry (entries : List (JsString × Json)) (key : JsString) (entry : Json) :
    List (JsString × Json) :=
  if key = protoKey ∧ key ∉ entries.map Prod.fst then entries else defineProperty entries key entry

def stateFileJson (entries : List (JsString × Json)) : Json :=
  .obj [(js "schemaVersion", .str (js "1.0.0")), (js "entries", .obj entries)]

structure BreakerWrite where
  key : JsString
  entry : PersistentCircuitBreakerStateEntry

/-- The text that a write replaces the file with. -/
def writePersistentCircuitBreakerState (file : Option JsString) (write : BreakerWrite) :
    Except StateFileError JsString :=
  (entriesToUpdate file).map fun entries ↦
    canonicalJson (stateFileJson (assignEntry entries write.key write.entry.toJson))

section

variable {ι : Type} (writes : ι → BreakerWrite)

/-- A write that throws leaves the file alone; the others write to a temporary file of their
own and rename it. -/
def breakerWrites : Calls ι Unit (Option JsString) where
  cell := fun _ ↦ ()
  check := fun _ ↦ none
  update := fun i file ↦ (writePersistentCircuitBreakerState file (writes i)).toOption.map some

/-- The write is at its end and has not thrown. -/
def Succeeded (s : Store ι Unit (Option JsString)) (i : ι) : Prop :=
  ∃ seen text, s.phase i = .returned seen ∧
    writePersistentCircuitBreakerState seen (writes i) = .ok text

/-- The value is found under the key. -/
def Loads (file : Option JsString) (key : JsString) (value : Json) : Prop :=
  ∃ found, loadPersistentCircuitBreakerState file key = .ok (.own found) ∧ found.Same value

/-- Once all writes have succeeded, each of their entries is found, and so is every entry of
another key that was there before. -/
def NoStateLost (file : Option JsString) (s : Store ι Unit (Option JsString)) : Prop :=
  (∀ i, Succeeded writes s i) →
    (∀ i, Loads (s.cells ()) (writes i).key (writes i).entry.toJson) ∧
    ∀ key value, loadPersistentCircuitBreakerState file key = .ok (.own value) →
      (∀ i, (writes i).key ≠ key) → Loads (s.cells ()) key value

/-- JSON can hold the entry under its key, and what the file holds besides. -/
structure Storable (i : ι) (file : Option JsString) : Prop where
  key : (writes i).key ≠ protoKey
  entry : (writes i).entry.toJson.PlainNumbers
  others : ∀ entries, entriesToUpdate file = .ok entries →
    (Json.obj entries).PlainNumbers ∧ ProtoFree (.obj entries)

end

/-! ## Texts of the file -/

/-- The fields of a snapshot are texts and numbers. -/
theorem mem_snapshotFields {snapshot : LlmCircuitPersistentState} {field : JsString × Option Json}
    (hfield : field ∈ snapshotFields snapshot) {v : Json} (hv : v ∈ field.2) :
    v.Ordered ∧ ProtoFree v := by
  simp only [snapshotFields, List.mem_cons, List.not_mem_nil, or_false] at hfield
  rcases hfield with rfl | rfl | rfl
  · obtain rfl := Option.some.inj hv
    exact ⟨trivial, trivial⟩
  · obtain rfl := Option.some.inj hv
    exact ⟨trivial, trivial⟩
  · obtain ⟨x, -, rfl⟩ := Option.map_eq_some_iff.mp hv
    exact ⟨trivial, trivial⟩

theorem ordered_entry (entry : PersistentCircuitBreakerStateEntry) : entry.toJson.Ordered := by
  have hfields : Enumerated [(js "state", ()), (js "consecutiveFailures", ()),
      (js "openedAtMs", ())] := by
    unfold Enumerated
    decide
  have hmembers : Enumerated [(js "updatedAt", ()), (js "snapshot", ())] := by
    unfold Enumerated
    decide
  have hsnapshot : (Json.obj (presentMembers (snapshotFields entry.snapshot))).Ordered := by
    apply ordered_presentMembers (enumerated_of_keys hfields rfl)
    exact fun field hfield v hv ↦ (mem_snapshotFields hfield hv).1
  rw [PersistentCircuitBreakerStateEntry.toJson, Json.ordered_obj]
  refine ⟨enumerated_of_keys hmembers rfl, ?_⟩
  simp only [List.forall_mem_cons]
  exact ⟨trivial, hsnapshot, by simp⟩

theorem protoFree_entry (entry : PersistentCircuitBreakerStateEntry) : ProtoFree entry.toJson := by
  have hfields : protoKey ∉ [js "state", js "consecutiveFailures", js "openedAtMs"] := by decide
  have hmembers : protoKey ∉ [js "updatedAt", js "snapshot"] := by decide
  have hsnapshot : ProtoFree (.obj (presentMembers (snapshotFields entry.snapshot))) := by
    rw [protoFree_obj]
    refine ⟨fun hmem ↦ hfields ((keys_presentMembers_sublist _).subset hmem), fun p hp ↦ ?_⟩
    obtain ⟨field, hfield, hp⟩ := List.mem_filterMap.mp hp
    obtain ⟨v, hv, rfl⟩ := Option.map_eq_some_iff.mp hp
    exact (mem_snapshotFields hfield hv).2
  rw [PersistentCircuitBreakerStateEntry.toJson, protoFree_obj]
  refine ⟨hmembers, ?_⟩
  simp only [List.forall_mem_cons]
  exact ⟨trivial, hsnapshot, by simp⟩

theorem ordered_of_parseStateFile {raw : JsString} {entries : List (JsString × Json)}
    (h : parseStateFile raw = .ok entries) : (Json.obj entries).Ordered := by
  rw [parseStateFile] at h
  split at h
  · cases h
  · next parsed hparse =>
      have hordered := Json.ordered_of_parse hparse
      unfold decodePersistentCircuitBreakerStateFile at h
      split at h
      · next candidate =>
          split at h
          · next found hget =>
              obtain rfl := Except.ok.inj h
              exact (Json.ordered_obj.mp hordered).2 _ (mem_of_mapGet hget)
          · cases h
      · cases h

theorem ordered_entriesToUpdate {file : Option JsString} {entries : List (JsString × Json)}
    (h : entriesToUpdate file = .ok entries) : (Json.obj entries).Ordered := by
  have hempty : (Json.obj []).Ordered := by simp [Enumerated]
  unfold entriesToUpdate at h
  split at h
  · obtain rfl := Except.ok.inj h
    exact hempty
  · split at h
    · obtain rfl := Except.ok.inj h
      exact hempty
    · exact ordered_of_parseStateFile h

theorem entriesToUpdate_of_parse {raw : JsString} {entries : List (JsString × Json)}
    (h : parseStateFile raw = .ok entries) : entriesToUpdate (some raw) = .ok entries := by
  rw [entriesToUpdate, h]

theorem ordered_assignEntry {entries : List (JsString × Json)} {key : JsString} {entry : Json}
    (hentries : (Json.obj entries).Ordered) (hentry : entry.Ordered) :
    (Json.obj (assignEntry entries key entry)).Ordered := by
  obtain ⟨henum, hvalues⟩ := Json.ordered_obj.mp hentries
  rw [assignEntry]
  split
  · exact hentries
  · rw [Json.ordered_obj]
    refine ⟨henum.defineProperty key entry, fun p hp ↦ ?_⟩
    rcases mem_defineProperty hp with rfl | hp
    · exact hentry
    · exact hvalues p hp

/-- Reading the text that was written. -/
theorem parseStateFile_written {entries : List (JsString × Json)}
    (h : (Json.obj entries).Ordered) :
    parseStateFile (canonicalJson (stateFileJson entries)) = .ok (storedMembers entries) := by
  have hmembers : Enumerated [(js "schemaVersion", ()), (js "entries", ())] := by
    unfold Enumerated
    decide
  have henum : Enumerated [(js "schemaVersion", Json.str (js "1.0.0")),
      (js "entries", Json.obj entries)] := enumerated_of_keys hmembers rfl
  have hkey : js "entries" ≠ protoKey := by decide
  have hordered : (stateFileJson entries).Ordered := by
    rw [stateFileJson, Json.ordered_obj]
    refine ⟨henum, ?_⟩
    simp only [List.forall_mem_cons]
    exact ⟨trivial, h, by simp⟩
  have hentries : mapGet (storedMembers [(js "schemaVersion", .str (js "1.0.0")),
      (js "entries", .obj entries)]) (js "entries") = some (stored (.obj entries)) := by
    rw [mapGet_storedMembers henum.1 hkey, mapGet_cons, if_neg (by decide), mapGet_cons,
      if_pos rfl, Option.map_some]
  rw [parseStateFile, parse_canonicalJson_stored hordered, stateFileJson, stored_obj]
  simp only [decodePersistentCircuitBreakerStateFile, hentries, stored_obj]

/-- What a write leaves under a key. -/
theorem mapGet_written {entries : List (JsString × Json)} {key key' : JsString} {entry : Json}
    (hentries : (Json.obj entries).Ordered) (hkey : key ≠ protoKey) (hkey' : key' ≠ protoKey) :
    mapGet (storedMembers (assignEntry entries key entry)) key' =
      if key' = key then some (stored entry) else (mapGet entries key').map stored := by
  have hnodup := ((Json.ordered_obj.mp hentries).1.defineProperty key entry).1
  rw [assignEntry, if_neg (by simp [hkey]), mapGet_storedMembers hnodup hkey',
    mapGet_defineProperty]
  split <;> rfl

/-! ## Whole runs -/

section

variable {ι : Type} {writes : ι → BreakerWrite} {file : Option JsString}

/-- The file after the listed writes, each run to its end before the next. -/
def fileAfter (writes : ι → BreakerWrite) (file : Option JsString) (order : List ι) :
    Option JsString :=
  serial (breakerWrites writes) (fun _ ↦ file) () order

theorem fileAfter_append (order : List ι) (i : ι) :
    fileAfter writes file (order ++ [i]) =
      ((writePersistentCircuitBreakerState (fileAfter writes file order) (writes i)).toOption.map
        some).getD (fileAfter writes file order) := by
  rw [fileAfter, serial_append, if_pos rfl]
  rfl

theorem update_breakerWrites {entries : List (JsString × Json)} {i : ι}
    (h : entriesToUpdate file = .ok entries) : (breakerWrites writes).update i file =
      some (some (canonicalJson (stateFileJson
        (assignEntry entries (writes i).key (writes i).entry.toJson)))) := by
  change (writePersistentCircuitBreakerState file (writes i)).toOption.map some = _
  rw [writePersistentCircuitBreakerState, h]
  rfl

/-- A file that no write can read stays as it is. -/
theorem fileAfter_of_error {error : StateFileError} (h : entriesToUpdate file = .error error)
    (order : List ι) : fileAfter writes file order = file := by
  induction order using List.reverseRecOn with
  | nil => rfl
  | append_singleton order i ih =>
      rw [fileAfter_append, ih, writePersistentCircuitBreakerState, h]
      rfl

/-- The entries in the file after writes that have succeeded one after the other. -/
structure Holds (writes : ι → BreakerWrite) (before : List (JsString × Json)) (order : List ι)
    (entries : List (JsString × Json)) : Prop where
  written : ∀ i ∈ order, ∃ value, mapGet entries (writes i).key = some value ∧
    value.Same (writes i).entry.toJson
  others : ∀ key value, mapGet before key = some value → (∀ i, (writes i).key ≠ key) →
    ∃ found, mapGet entries key = some found ∧ found.Same value

theorem Holds.write {before entries : List (JsString × Json)} {order : List ι} {i : ι}
    (h : Holds writes before order entries) (hkeys : Function.Injective fun i ↦ (writes i).key)
    (hentries : (Json.obj entries).Ordered) (hkey : (writes i).key ≠ protoKey)
    (hentry : (writes i).entry.toJson.PlainNumbers) (hplain : (Json.obj entries).PlainNumbers)
    (hfree : ProtoFree (.obj entries)) :
    Holds writes before (order ++ [i])
      (storedMembers (assignEntry entries (writes i).key (writes i).entry.toJson)) := by
  have hvalues := (Json.ordered_obj.mp hentries).2
  rw [Json.plainNumbers_obj] at hplain
  obtain ⟨hproto, hfree⟩ := protoFree_obj.mp hfree
  have hwritten := @mapGet_written entries (writes i).key (writes i).key (writes i).entry.toJson
    hentries hkey hkey
  rw [if_pos rfl] at hwritten
  have hown : (stored (writes i).entry.toJson).Same (writes i).entry.toJson :=
    stored_same (ordered_entry _) hentry (protoFree_entry _)
  have hother : ∀ key value, key ≠ (writes i).key → mapGet entries key = some value →
      mapGet (storedMembers (assignEntry entries (writes i).key (writes i).entry.toJson)) key =
        some (stored value) ∧ (stored value).Same value := by
    intro key value hne hget
    have hmem := mem_of_mapGet hget
    have hkey' : key ≠ protoKey := fun heq ↦ hproto (heq ▸ List.mem_map_of_mem hmem)
    rw [mapGet_written hentries hkey hkey', if_neg hne, hget]
    exact ⟨rfl, stored_same (hvalues _ hmem) (hplain _ hmem) (hfree _ hmem)⟩
  refine ⟨fun j hj ↦ ?_, fun key value hget hnone ↦ ?_⟩
  · by_cases hji : (writes j).key = (writes i).key
    · obtain rfl := hkeys hji
      exact ⟨_, hwritten, hown⟩
    · have hj' : j ∈ order := by
        rcases List.mem_append.mp hj with hj | hj
        · exact hj
        · exact absurd (congrArg (fun k ↦ (writes k).key) (List.mem_singleton.mp hj)) hji
      obtain ⟨value, hget, hsame⟩ := h.written j hj'
      obtain ⟨hget', hsame'⟩ := hother _ value hji hget
      exact ⟨_, hget', same_trans hsame' hsame⟩
  · obtain ⟨found, hfound, hsame⟩ := h.others key value hget hnone
    obtain ⟨hget', hsame'⟩ := hother key found (hnone i).symm hfound
    exact ⟨_, hget', same_trans hsame' hsame⟩

theorem holds_nil {before : List (JsString × Json)} (h : (Json.obj before).Ordered) :
    Holds writes before [] before := by
  refine ⟨fun i hi ↦ by simp at hi, fun key value hget _ ↦ ⟨value, hget, same_refl ?_⟩⟩
  exact (Json.ordered_obj.mp h).2 _ (mem_of_mapGet hget)

theorem holds_fileAfter {before : List (JsString × Json)}
    (hbefore : entriesToUpdate file = .ok before)
    (hkeys : Function.Injective fun i ↦ (writes i).key) {order : List ι}
    (hfits : ∀ done i rest, order = done ++ i :: rest →
      Storable writes i (fileAfter writes file done)) :
    ∃ entries, entriesToUpdate (fileAfter writes file order) = .ok entries ∧
      (order ≠ [] → ∃ raw, fileAfter writes file order = some raw ∧
        parseStateFile raw = .ok entries) ∧ Holds writes before order entries := by
  induction order using List.reverseRecOn with
  | nil =>
      have hholds := @holds_nil ι writes before (ordered_entriesToUpdate hbefore)
      exact ⟨before, hbefore, fun h ↦ absurd rfl h, hholds⟩
  | append_singleton order i ih =>
      obtain ⟨entries, hread, -, hholds⟩ :=
        ih fun done j rest h ↦ hfits done j (rest ++ [i]) (by rw [h]; simp)
      have hfit := hfits order i [] rfl
      obtain ⟨hplain, hfree⟩ := hfit.others entries hread
      have hentries := ordered_entriesToUpdate hread
      have hfile : fileAfter writes file (order ++ [i]) = some (canonicalJson (stateFileJson
          (assignEntry entries (writes i).key (writes i).entry.toJson))) := by
        rw [fileAfter_append]
        exact congrArg (Option.getD · _) (update_breakerWrites hread)
      have hassigned : (Json.obj (assignEntry entries (writes i).key
          (writes i).entry.toJson)).Ordered := ordered_assignEntry hentries (ordered_entry _)
      have hparse := parseStateFile_written hassigned
      refine ⟨_, ?_, fun _ ↦ ⟨_, hfile, hparse⟩,
        hholds.write hkeys hentries hfit.key hfit.entry hplain hfree⟩
      rw [hfile]
      exact entriesToUpdate_of_parse hparse

theorem loads_of_mapGet {raw key : JsString} {entries : List (JsString × Json)} {value : Json}
    (hparse : parseStateFile raw = .ok entries)
    (h : ∃ found, mapGet entries key = some found ∧ found.Same value) :
    Loads (some raw) key value := by
  obtain ⟨found, hget, hsame⟩ := h
  refine ⟨found, ?_, hsame⟩
  rw [loadPersistentCircuitBreakerState, hparse, Except.map, readEntryOf, hget]

/-- What a load finds is among the entries of the file. -/
theorem entries_of_load {key : JsString} {value : Json}
    (h : loadPersistentCircuitBreakerState file key = .ok (.own value)) :
    ∃ entries, entriesToUpdate file = .ok entries ∧ mapGet entries key = some value := by
  cases file with
  | none => cases h
  | some raw =>
      rw [loadPersistentCircuitBreakerState] at h
      cases hparse : parseStateFile raw with
      | error error =>
          rw [hparse] at h
          cases h
      | ok entries =>
          rw [hparse, Except.map, readEntryOf] at h
          refine ⟨entries, entriesToUpdate_of_parse hparse, ?_⟩
          cases hget : mapGet entries key with
          | some found =>
              rw [hget] at h
              exact congrArg some (LoadedEntry.own.inj (Except.ok.inj h))
          | none =>
              rw [hget] at h
              simp only at h
              split at h <;> cases h

variable [DecidableEq ι]

omit [DecidableEq ι] in
theorem noStateLost_of_inv (hkeys : Function.Injective fun i ↦ (writes i).key)
    {s : Store ι Unit (Option JsString)}
    (h : Inv (breakerWrites writes) (fun _ ↦ file) (Storable writes) s) :
    NoStateLost writes file s := by
  have hcell : s.cells () = fileAfter writes file s.landed := h.serial ()
  have hfits : ∀ done i rest, s.landed = done ++ i :: rest →
      Storable writes i (fileAfter writes file done) :=
    fun done i rest hlanded ↦ (h.landed done i rest hlanded).2
  intro hsucceeded
  rw [hcell]
  refine ⟨fun i ↦ ?_, fun key value hload hnone ↦ ?_⟩
  · obtain ⟨seen, text, hphase, hwrite⟩ := hsucceeded i
    have hi := h.returned i seen hphase
    cases hread : entriesToUpdate file with
    | error error =>
        obtain ⟨done, rest, hlanded⟩ := List.append_of_mem hi
        have hseen := (h.landed done i rest hlanded).1
        rw [hphase, Phase.returned.injEq] at hseen
        have hfile : seen = file := hseen.trans (fileAfter_of_error hread done)
        rw [hfile, writePersistentCircuitBreakerState, hread] at hwrite
        cases hwrite
    | ok before =>
        obtain ⟨entries, -, hfile, hholds⟩ := holds_fileAfter hread hkeys hfits
        obtain ⟨raw, hraw, hparse⟩ := hfile (List.ne_nil_of_mem hi)
        rw [hraw]
        exact loads_of_mapGet hparse (hholds.written i hi)
  · obtain ⟨before, hread, hget⟩ := entries_of_load hload
    obtain ⟨entries, -, hfile, hholds⟩ := holds_fileAfter hread hkeys hfits
    by_cases hnil : s.landed = []
    · rw [hnil]
      have hvalue := (Json.ordered_obj.mp (ordered_entriesToUpdate hread)).2 _ (mem_of_mapGet hget)
      exact ⟨value, hload, same_refl hvalue⟩
    · obtain ⟨raw, hraw, hparse⟩ := hfile hnil
      rw [hraw]
      exact loads_of_mapGet hparse (hholds.others key value hget hnone)

/-- In every run in which a write reads the file only while no other write is about to replace
it, and only entries that JSON can hold are written and found, no state is lost. -/
theorem noStateLost_of_readsAlone (hkeys : Function.Injective fun i ↦ (writes i).key)
    {actions : List ι}
    (halone : MeetsAlong (ReadModifyWrite.step (breakerWrites writes))
      (ReadsAlone (breakerWrites writes) (Storable writes))
      (.begin (breakerWrites writes) fun _ ↦ file) actions) :
    Always (ReadModifyWrite.step (breakerWrites writes)) (NoStateLost writes file)
      (.begin (breakerWrites writes) fun _ ↦ file) actions :=
  fun done hdone ↦ noStateLost_of_inv hkeys (always_inv halone done hdone)

end

/-! ## Two writes at once -/

def closedEntry : PersistentCircuitBreakerStateEntry where
  updatedAt := js "2026-05-01T00:00:00.000Z"
  snapshot := ⟨.closed, 1, none⟩

def twoBreakers : Bool → BreakerWrite
  | false => ⟨js "a", closedEntry⟩
  | true => ⟨js "b", closedEntry⟩

theorem twoBreakers_injective : Function.Injective fun i ↦ (twoBreakers i).key := by
  rintro (_ | _) (_ | _) h
  · rfl
  · exact absurd h (by decide)
  · exact absurd h (by decide)
  · rfl

theorem plainNumbers_closedEntry : closedEntry.toJson.PlainNumbers := by
  have hone : (Json.num 1).PlainNumbers :=
    ⟨_, JsNumber.ofRat_of_round64 JsNumber.round64_one (by decide)⟩
  have htext : ∀ text : JsString, (Json.str text).PlainNumbers := fun _ ↦ trivial
  have hsnapshot :
      (Json.obj (presentMembers (snapshotFields closedEntry.snapshot))).PlainNumbers := by
    apply plainNumbers_presentMembers
    simp [snapshotFields, closedEntry, hone, htext]
  rw [PersistentCircuitBreakerStateEntry.toJson, Json.plainNumbers_obj]
  simp only [List.forall_mem_cons]
  exact ⟨trivial, hsnapshot, by simp⟩

theorem written_of_absent (write : BreakerWrite) :
    writePersistentCircuitBreakerState none write = .ok (canonicalJson (stateFileJson
      (assignEntry [] write.key write.entry.toJson))) := rfl

/-- The file that one write has created. -/
theorem parseStateFile_of_absent (write : BreakerWrite) :
    parseStateFile (canonicalJson (stateFileJson (assignEntry [] write.key write.entry.toJson))) =
      .ok (storedMembers (assignEntry [] write.key write.entry.toJson)) := by
  apply parseStateFile_written
  apply ordered_assignEntry
  · simp [Enumerated]
  · exact ordered_entry _

/-- Both writes read the absent file, and the second rename replaces the first file. -/
theorem state_overwritten :
    ¬ ∀ (ι : Type) [DecidableEq ι] (writes : ι → BreakerWrite) (file : Option JsString)
        (actions : List ι), Function.Injective (fun i ↦ (writes i).key) →
      Always (ReadModifyWrite.step (breakerWrites writes)) (NoStateLost writes file)
        (.begin (breakerWrites writes) fun _ ↦ file) actions := by
  intro h
  obtain ⟨hcell, -, hfirst, hsecond⟩ := @run_overlap_unchecked Bool Unit (Option JsString) _ _
    (breakerWrites twoBreakers) (fun _ ↦ none) false true (by decide) rfl rfl rfl _ _ rfl rfl
  have hlost := h Bool twoBreakers none [false, true, false, true, false, true]
    twoBreakers_injective _ (List.prefix_refl _)
  have hsucceeded : ∀ i, Succeeded twoBreakers (run (ReadModifyWrite.step (breakerWrites twoBreakers))
      (.begin (breakerWrites twoBreakers) fun _ ↦ none)
      [false, true, false, true, false, true]) i := by
    intro i
    cases i with
    | false => exact ⟨none, _, hfirst, written_of_absent _⟩
    | true => exact ⟨none, _, hsecond, written_of_absent _⟩
  obtain ⟨found, hload, -⟩ := (hlost hsucceeded).1 false
  have hfile : (run (ReadModifyWrite.step (breakerWrites twoBreakers))
      (.begin (breakerWrites twoBreakers) fun _ ↦ none)
      [false, true, false, true, false, true]).cells () = some (canonicalJson (stateFileJson
        (assignEntry [] (js "b") closedEntry.toJson))) := hcell
  obtain ⟨entries, hentries, hget⟩ := entries_of_load hload
  have hread := entriesToUpdate_of_parse (parseStateFile_of_absent (twoBreakers true))
  rw [hfile] at hentries
  obtain rfl := Except.ok.inj (hread.symm.trans hentries)
  have hnone := @mapGet_written [] (js "b") (js "a") closedEntry.toJson (by simp [Enumerated])
    (by decide) (by decide)
  rw [if_neg (by decide)] at hnone
  exact absurd (hnone.symm.trans hget) (by simp)

theorem storable_twoBreakers {file : Option JsString} (i : Bool)
    (h : ∀ entries, entriesToUpdate file = .ok entries →
      (Json.obj entries).PlainNumbers ∧ ProtoFree (.obj entries)) :
    Storable twoBreakers i file := by
  refine ⟨?_, ?_, h⟩
  · cases i <;> decide
  · cases i <;> exact plainNumbers_closedEntry

/-- Two writes one after the other lose nothing. -/
theorem noStateLost_apart :
    Always (ReadModifyWrite.step (breakerWrites twoBreakers)) (NoStateLost twoBreakers none)
      (.begin (breakerWrites twoBreakers) fun _ ↦ none)
      [false, false, false, true, true, true] := by
  apply noStateLost_of_readsAlone twoBreakers_injective
  have hread := entriesToUpdate_of_parse (parseStateFile_of_absent (twoBreakers false))
  have hfirst : (breakerWrites twoBreakers).update false none = _ := update_breakerWrites rfl
  have hsecond : (breakerWrites twoBreakers).update true _ = _ := update_breakerWrites hread
  have hcell : (breakerWrites twoBreakers).cell true = (breakerWrites twoBreakers).cell false := rfl
  apply meetsAlong_apart Bool.false_ne_true hcell (fun _ ↦ rfl) hfirst hsecond
  · apply storable_twoBreakers
    intro entries hentries
    obtain rfl := Except.ok.inj hentries
    simp
  · apply storable_twoBreakers
    intro entries hentries
    obtain rfl := Except.ok.inj (hread.symm.trans hentries)
    have hordered : (Json.obj (assignEntry [] (js "a") closedEntry.toJson)).Ordered :=
      ordered_assignEntry (by simp [Enumerated]) (ordered_entry _)
    rw [← stored_obj]
    exact ⟨plainNumbers_stored hordered, protoFree_stored hordered⟩

end TestIntelligence.ProductionRunner
