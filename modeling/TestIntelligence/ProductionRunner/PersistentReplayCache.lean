import TestIntelligence.Caches.Lru
import TestIntelligence.Js.Dates
import TestIntelligence.Js.Sorting
import TestIntelligence.ModelGateway.ReplayCache

/-!
# The persistent replay cache

`createPersistentReplayCache` on one scope directory, whose files are listed in the order in
which they are read.  Each call reads the clock once.  A store evicts the entry files with
the oldest times until the others are within the byte budget, and a hit sets the time of its
file.
-/

namespace TestIntelligence.ProductionRunner

open Js Security CoreEngine ModelGateway Systems Caches

structure CacheFile where
  name : JsString
  content : Bytes
  mtimeMs : ℕ

abbrev CacheDirectory := List CacheFile

namespace CacheDirectory

def readFile (directory : CacheDirectory) (name : JsString) : Option Bytes :=
  (directory.find? (·.name = name)).map (·.content)

def writeFile (directory : CacheDirectory) (name : JsString) (content : Bytes) (now : ℕ) :
    CacheDirectory :=
  directory.filter (·.name ≠ name) ++ [⟨name, content, now⟩]

def rename (directory : CacheDirectory) (source target : JsString) : CacheDirectory :=
  match directory.find? (·.name = source) with
  | none => directory
  | some file =>
      directory.filter (fun other ↦ other.name ≠ source ∧ other.name ≠ target) ++
        [{ file with name := target }]

def utimes (directory : CacheDirectory) (name : JsString) (now : ℕ) : CacheDirectory :=
  directory.map fun file ↦ if file.name = name then { file with mtimeMs := now } else file

end CacheDirectory

structure PersistentReplayCacheOptions where
  byteBudget : JsNumber
  staleThresholdMs : JsNumber

/-- `n <= x` -/
def natLe (n : ℕ) : JsNumber → Bool
  | .nan => false
  | .infinity negative => !negative
  | x => decide ((n : ℚ) ≤ x.toRat)

/-- `n > x` -/
def natGt (n : ℕ) : JsNumber → Bool
  | .nan => false
  | x => !natLe n x

/-- A call, the reading of the clock and the suffix of its temporary file. -/
structure TimedCall where
  call : ReplayCacheCall
  now : ℕ
  suffix : JsString

def endsWith (text ending : JsString) : Bool := ending.isSuffixOf text

def cleanStaleTmpFiles (directory : CacheDirectory) (thresholdMs : JsNumber) (now : ℕ) :
    CacheDirectory :=
  directory.filter fun file ↦
    !(endsWith file.name (js ".tmp") && natGt (now - file.mtimeMs) thresholdMs)

/-- The files that the loop of `evictLru` removes, oldest first. -/
def filesToEvict (byteBudget : JsNumber) : ℕ → List CacheFile → List CacheFile
  | _, [] => []
  | remaining, info :: rest =>
      if natLe remaining byteBudget then []
      else info :: filesToEvict byteBudget (remaining - info.content.length) rest

def totalBytes (files : List CacheFile) : ℕ := (files.map (·.content.length)).sum

def evictLru (directory : CacheDirectory) (byteBudget : JsNumber) : CacheDirectory :=
  let infos := directory.filter fun file ↦ endsWith file.name (js ".json")
  let sorted := sortBy (fun a b ↦ (a.mtimeMs : ℤ) - b.mtimeMs) infos
  let names := (filesToEvict byteBudget (totalBytes infos) sorted).map (·.name)
  directory.filter fun file ↦ file.name ∉ names

/-- `${digest}.${pid}.${random}.tmp`; the suffix is `${pid}.${random}`. -/
def tmpFileFor (digest suffix : JsString) : JsString := digest ++ js "." ++ suffix ++ js ".tmp"

/-- `${path}.corrupt-${Date.now().toString(36)}` -/
def quarantinePath (path : JsString) (now : ℕ) : JsString :=
  path ++ js ".corrupt-" ++ (Nat.toDigits 36 now).map fun digit ↦ digit.toNat.toUInt16

section

variable (sha256 : Bytes → JsString) (options : PersistentReplayCacheOptions)

/-- The calls on the cache of `createPersistentReplayCache`; errors in an entry file are
caught. -/
def persistentReplayCache (directory : CacheDirectory) (timed : TimedCall) :
    CacheDirectory × ReplayCacheAnswer :=
  match timed.call with
  | .lookup key =>
      let digest := computeReplayCacheKeyDigest sha256 key
      match directory.readFile (fileFor digest) with
      | none => (directory, .found (.miss digest))
      | some raw =>
          match readEntry digest (some raw) with
          | .found (.hit entry) =>
              (directory.utimes (fileFor digest) timed.now, .found (.hit entry))
          | _ =>
              (directory.rename (fileFor digest) (quarantinePath (fileFor digest) timed.now),
                .found (.miss digest))
  | .store key testCases =>
      match refusal testCases with
      | some error => (directory, .invalid error)
      | none =>
          let digest := computeReplayCacheKeyDigest sha256 key
          let entry : ReplayCacheEntry := ⟨digest, toISOString timed.now, testCases⟩
          let cleaned := cleanStaleTmpFiles directory options.staleThresholdMs timed.now
          let tmpPath := tmpFileFor digest timed.suffix
          let written := cleaned.writeFile tmpPath (entryFile entry) timed.now
          (evictLru (written.rename tmpPath (fileFor digest)) options.byteBudget, .stored)

/-! ## The cache that it has to be -/

structure CachedList where
  storedAt : JsString
  testCases : Json
  usedAt : ℕ

/-- The lists under the canonical texts of their keys, the least recently used one first. -/
abbrev LruReplayCache := List (JsString × CachedList)

/-- The entry file that belongs to an item. -/
def fileOf (item : JsString × CachedList) : CacheFile :=
  let digest := sha256 (utf8Encode item.1)
  ⟨fileFor digest, entryFile ⟨digest, item.2.storedAt, item.2.testCases⟩, item.2.usedAt⟩

def fileSize (item : JsString × CachedList) : ℕ := (fileOf sha256 item).content.length

def newItem (testCases : Json) (now : ℕ) : CachedList := ⟨toISOString now, testCases, now⟩

/-- A store puts its list, and a hit uses the list that it finds. -/
def lruReplayCache (items : LruReplayCache) (timed : TimedCall) :
    LruReplayCache × Option CachedList :=
  match timed.call with
  | .store key testCases =>
      if (validateGeneratedTestCaseList testCases).valid then
        (Lru.put (fileSize sha256) (natLe · options.byteBudget) items (canonicalJson key)
          (newItem testCases timed.now), none)
      else (items, none)
  | .lookup key =>
      match Lru.get items (canonicalJson key) with
      | none => (items, none)
      | some found =>
          (Lru.refresh items (canonicalJson key) { found with usedAt := timed.now }, some found)

/-- What a call has to answer and to leave in the directory, given the items before it. -/
structure KeepsToLru (items : LruReplayCache) (timed : TimedCall) (directory' : CacheDirectory)
    (answer : ReplayCacheAnswer) : Prop where
  /-- The files are those of the items, with the times of their last use. -/
  files : directory'.Perm ((lruReplayCache sha256 options items timed).1.map (fileOf sha256))
  /-- A store answers whether the list is valid; a lookup finds the latest list. -/
  answer : match timed.call with
    | .store _ testCases =>
        if (validateGeneratedTestCaseList testCases).valid then answer = .stored
        else answer = refusedWith testCases
    | .lookup key =>
        match Lru.get items (canonicalJson key) with
        | none => answer = .found (.miss (computeReplayCacheKeyDigest sha256 key))
        | some cached => ∃ found, found.Same cached.testCases ∧ answer = .found (.hit
            ⟨computeReplayCacheKeyDigest sha256 key, cached.storedAt, found⟩)
  /-- After a store, the entries are within the budget or none is left. -/
  budget : ∀ key testCases, timed.call = .store key testCases →
    (validateGeneratedTestCaseList testCases).valid = true →
      natLe (totalBytes directory') options.byteBudget = true ∨ directory' = []
  /-- A store removes the oldest entries, and none of them once the others fit. -/
  evicts : ∀ key testCases, timed.call = .store key testCases →
    (validateGeneratedTestCaseList testCases).valid = true →
      ∃ removed, Lru.refresh items (canonicalJson key) (newItem testCases timed.now) =
          removed ++ (lruReplayCache sha256 options items timed).1 ∧
        ∀ n < removed.length, natLe (Lru.total (fileSize sha256)
          ((Lru.refresh items (canonicalJson key) (newItem testCases timed.now)).drop n))
            options.byteBudget = false
  /-- The entry that was just stored stays whenever it fits by itself. -/
  survives : ∀ key testCases, timed.call = .store key testCases →
    (validateGeneratedTestCaseList testCases).valid = true →
      natLe (fileSize sha256 (canonicalJson key, newItem testCases timed.now))
          options.byteBudget = true →
        fileOf sha256 (canonicalJson key, newItem testCases timed.now) ∈ directory'

structure IsLru (calls : List TimedCall) : Prop where
  /-- Every call keeps to the least recently used cache. -/
  keeps : ∀ before timed, before ++ [timed] <+: calls →
    KeepsToLru sha256 options
      (stateAfter (lruReplayCache sha256 options) [] before) timed
      (persistentReplayCache sha256 options
        (stateAfter (persistentReplayCache sha256 options) [] before) timed).1
      (persistentReplayCache sha256 options
        (stateAfter (persistentReplayCache sha256 options) [] before) timed).2
  /-- What that cache holds under a key is the list of the latest store of the key. -/
  latest : ∀ before key cached, before <+: calls →
    Lru.get (stateAfter (lruReplayCache sha256 options) [] before) (canonicalJson key) =
      some cached → latest key (before.map (·.call)) = some cached.testCases

end

/-! ## Files with distinct names -/

namespace CacheDirectory

variable {directory : CacheDirectory} {file : CacheFile}

theorem find?_of_mem (h : (directory.map (·.name)).Nodup) (hfile : file ∈ directory) :
    directory.find? (·.name = file.name) = some file := by
  induction directory with
  | nil => simp at hfile
  | cons other rest ih =>
      rw [List.map_cons, List.nodup_cons] at h
      rcases List.mem_cons.mp hfile with rfl | hfile
      · simp
      · have hne : other.name ≠ file.name := fun heq ↦ h.1 (heq ▸ List.mem_map_of_mem hfile)
        rw [List.find?_cons_of_neg (by simpa using hne)]
        exact ih h.2 hfile

theorem readFile_of_mem (h : (directory.map (·.name)).Nodup) (hfile : file ∈ directory) :
    directory.readFile file.name = some file.content := by
  rw [readFile, find?_of_mem h hfile]
  rfl

theorem readFile_eq_none {name : JsString} (h : ∀ file ∈ directory, file.name ≠ name) :
    directory.readFile name = none := by
  have hfind : directory.find? (·.name = name) = none := by simpa using h
  rw [readFile, hfind]
  rfl

/-- Writing a temporary file and renaming it. -/
theorem rename_writeFile {tmpPath path : JsString} (content : Bytes) (now : ℕ)
    (htmp : ∀ file ∈ directory, file.name ≠ tmpPath) :
    (directory.writeFile tmpPath content now).rename tmpPath path =
      directory.filter (·.name ≠ path) ++ [⟨path, content, now⟩] := by
  have hkept : directory.filter (·.name ≠ tmpPath) = directory := by
    rw [List.filter_eq_self]
    simpa using htmp
  have hfind : (directory ++ [(⟨tmpPath, content, now⟩ : CacheFile)]).find? (·.name = tmpPath) =
      some ⟨tmpPath, content, now⟩ := by
    rw [List.find?_append, List.find?_eq_none.mpr (by simpa using htmp)]
    simp
  rw [writeFile, hkept, rename, hfind]
  simp only [List.filter_append]
  congr 1
  have hnone : [(⟨tmpPath, content, now⟩ : CacheFile)].filter
      (fun other ↦ other.name ≠ tmpPath ∧ other.name ≠ path) = [] := by simp
  rw [hnone, List.append_nil]
  apply List.filter_congr
  intro file hfile
  simp [htmp file hfile]

end CacheDirectory

theorem endsWith_fileFor (digest : JsString) : endsWith (fileFor digest) (js ".json") = true := by
  rw [endsWith, List.isSuffixOf_iff_suffix]
  exact List.suffix_append _ _

theorem not_endsWith_tmp (digest : JsString) : endsWith (fileFor digest) (js ".tmp") = false := by
  rw [Bool.eq_false_iff, endsWith, ne_eq, List.isSuffixOf_iff_suffix]
  rintro ⟨stem, hstem⟩
  have hlast := congrArg List.getLast? hstem
  have hjson : (js ".json").getLast? = some 0x6E := by decide
  have htmp : (js ".tmp").getLast? = some 0x70 := by decide
  rw [fileFor, List.getLast?_append, List.getLast?_append, hjson, htmp] at hlast
  simp at hlast

theorem fileFor_ne_tmpFileFor (digest digest' suffix : JsString) :
    fileFor digest ≠ tmpFileFor digest' suffix := by
  intro heq
  have htmp : endsWith (tmpFileFor digest' suffix) (js ".tmp") = true := by
    rw [endsWith, List.isSuffixOf_iff_suffix]
    exact List.suffix_append _ _
  rw [← heq, not_endsWith_tmp] at htmp
  cases htmp

/-! ## Directories that hold the files of items -/

section

variable {sha256 : Bytes → JsString} {calls : List ReplayCacheCall} {items : LruReplayCache}

/-- One of the calls stores the item. -/
def IsStored (calls : List ReplayCacheCall) (item : JsString × CachedList) : Prop :=
  ∃ key, .store key item.2.testCases ∈ calls ∧ item.1 = canonicalJson key ∧
    (validateGeneratedTestCaseList item.2.testCases).valid = true

def StoredBy (calls : List ReplayCacheCall) (items : LruReplayCache) : Prop :=
  ∀ item ∈ items, IsStored calls item

def IsKeyText (calls : List ReplayCacheCall) (text : JsString) : Prop :=
  ∃ call ∈ calls, text = canonicalJson call.key

theorem StoredBy.isKeyText (h : StoredBy calls items) {item : JsString × CachedList}
    (hitem : item ∈ items) : IsKeyText calls item.1 := by
  obtain ⟨key, hstore, htext, -⟩ := h item hitem
  exact ⟨_, hstore, htext⟩

theorem digest_injective (hfree : CollisionFree sha256 calls) {text text' : JsString}
    (h : IsKeyText calls text) (h' : IsKeyText calls text')
    (heq : sha256 (utf8Encode text) = sha256 (utf8Encode text')) : text = text' := by
  obtain ⟨call, hcall, rfl⟩ := h
  obtain ⟨call', hcall', rfl⟩ := h'
  exact hfree call hcall call' hcall' heq

@[simp] theorem fileOf_name (item : JsString × CachedList) :
    (fileOf sha256 item).name = fileFor (sha256 (utf8Encode item.1)) := rfl

@[simp] theorem fileOf_mtimeMs (item : JsString × CachedList) :
    (fileOf sha256 item).mtimeMs = item.2.usedAt := rfl

theorem fileOf_name_eq_iff (hfree : CollisionFree sha256 calls) (hitems : StoredBy calls items)
    {item : JsString × CachedList} (hitem : item ∈ items) {text : JsString}
    (htext : IsKeyText calls text) :
    (fileOf sha256 item).name = fileFor (sha256 (utf8Encode text)) ↔ item.1 = text := by
  rw [fileOf_name, fileFor_injective.eq_iff]
  exact ⟨digest_injective hfree (hitems.isKeyText hitem) htext, fun heq ↦ by rw [heq]⟩

theorem nodup_names (hfree : CollisionFree sha256 calls) (hitems : StoredBy calls items)
    (hkeys : (items.map Prod.fst).Nodup) :
    ((items.map (fileOf sha256)).map (·.name)).Nodup := by
  rw [List.map_map]
  refine List.Nodup.map_on (fun item hitem item' hitem' heq ↦ ?_) hkeys.of_map
  have htext := (fileOf_name_eq_iff hfree hitems hitem (hitems.isKeyText hitem')).mp heq
  exact List.inj_on_of_nodup_map hkeys hitem hitem' htext

/-- Removing the file of a key -/
theorem filter_files (hfree : CollisionFree sha256 calls) (hitems : StoredBy calls items)
    {text : JsString} (htext : IsKeyText calls text) :
    (items.map (fileOf sha256)).filter (·.name ≠ fileFor (sha256 (utf8Encode text))) =
      (Lru.forget items text).map (fileOf sha256) := by
  rw [List.filter_map, Lru.forget]
  congr 1
  apply List.filter_congr
  intro item hitem
  have hiff := fileOf_name_eq_iff hfree hitems hitem htext
  rw [Function.comp_apply, decide_eq_decide]
  exact not_congr hiff

/-- A hit sets the time of its file. -/
theorem utimes_files (hfree : CollisionFree sha256 calls) (hitems : StoredBy calls items)
    (hkeys : (items.map Prod.fst).Nodup) {directory : CacheDirectory}
    (hfiles : directory.Perm (items.map (fileOf sha256))) {text : JsString} {found : CachedList}
    (hfound : (text, found) ∈ items) (now : ℕ) :
    (directory.utimes (fileFor (sha256 (utf8Encode text))) now).Perm
      ((Lru.refresh items text { found with usedAt := now }).map (fileOf sha256)) := by
  have hapart := hfiles.trans ((Lru.perm_forget hkeys hfound).map (fileOf sha256))
  have htext : IsKeyText calls text := hitems.isKeyText hfound
  apply (hapart.map _).trans
  rw [Lru.refresh, List.map_append, List.map_append, List.map_append]
  refine List.Perm.of_eq (congrArg₂ (· ++ ·) ?_ ?_)
  · rw [List.map_map]
    apply List.map_congr_left
    intro item hitem
    obtain ⟨hmem, hne⟩ := Lru.mem_forget.mp hitem
    have hname := (fileOf_name_eq_iff hfree hitems hmem htext).not.mpr hne
    simp only [Function.comp_apply, if_neg hname]
  · simp [fileOf]

theorem sortBy_files {directory : CacheDirectory}
    (hfiles : directory.Perm (items.map (fileOf sha256)))
    (htimes : items.Pairwise fun item item' ↦ item.2.usedAt < item'.2.usedAt) :
    sortBy (fun a b ↦ (a.mtimeMs : ℤ) - b.mtimeMs) directory = items.map (fileOf sha256) := by
  have hconsistent : Consistent fun a b : CacheFile ↦ (a.mtimeMs : ℤ) - b.mtimeMs := by
    constructor <;> intros <;> omega
  have hsorted := hconsistent.pairwise_sortBy directory
  have hstrict : (items.map (fileOf sha256)).Pairwise fun a b ↦ a.mtimeMs < b.mtimeMs :=
    List.pairwise_map.mpr htimes
  refine ((sortBy_perm _ directory).trans hfiles).eq_of_pairwise ?_ hsorted
    (hstrict.imp fun h ↦ by omega)
  intro file file' hfile hfile' hle hle'
  have hnodup : ((items.map (fileOf sha256)).map (·.mtimeMs)).Nodup := by
    rw [List.Nodup, List.pairwise_map]
    exact hstrict.imp fun h ↦ by omega
  have hmem : file ∈ items.map (fileOf sha256) := hfiles.mem_iff.mp (mem_sortBy.mp hfile)
  exact List.inj_on_of_nodup_map hnodup hmem hfile' (by omega)

theorem totalBytes_files (items : LruReplayCache) :
    totalBytes (items.map (fileOf sha256)) = Lru.total (fileSize sha256) items := by
  have hsize : (fun file : CacheFile ↦ file.content.length) ∘ fileOf sha256 = fileSize sha256 := by
    funext item
    rw [Function.comp_apply, fileSize]
  rw [totalBytes, List.map_map, hsize, Lru.total]

theorem filesToEvict_files (byteBudget : JsNumber) (items : LruReplayCache) :
    filesToEvict byteBudget (Lru.total (fileSize sha256) items) (items.map (fileOf sha256)) =
      (Lru.evicted (fileSize sha256) (natLe · byteBudget) items).map (fileOf sha256) := by
  induction items with
  | nil => rfl
  | cons item items ih =>
      rw [List.map_cons, filesToEvict, Lru.evicted]
      split
      · rfl
      · have hrest : Lru.total (fileSize sha256) (item :: items) -
            (fileOf sha256 item).content.length = Lru.total (fileSize sha256) items := by
          rw [Lru.total_cons]
          exact Nat.add_sub_cancel_left _ _
        rw [hrest, ih, List.map_cons]

theorem filter_not_mem_names {gone kept : List CacheFile}
    (h : ((gone ++ kept).map (·.name)).Nodup) :
    (gone ++ kept).filter (fun file ↦ file.name ∉ gone.map (·.name)) = kept := by
  rw [List.map_append, List.nodup_append] at h
  have hgone : gone.filter (fun file ↦ file.name ∉ gone.map (·.name)) = [] := by
    rw [List.filter_eq_nil_iff]
    intro file hfile
    simpa using ⟨file, hfile, rfl⟩
  have hkept : kept.filter (fun file ↦ file.name ∉ gone.map (·.name)) = kept := by
    rw [List.filter_eq_self]
    intro file hfile
    have hfresh : file.name ∉ gone.map (·.name) :=
      fun hmem ↦ h.2.2 _ hmem _ (List.mem_map_of_mem hfile) rfl
    simpa using hfresh
  rw [List.filter_append, hgone, hkept, List.nil_append]

/-- The eviction pass over the files of items in the order of their last use -/
theorem evictLru_files {directory : CacheDirectory}
    (hfiles : directory.Perm (items.map (fileOf sha256)))
    (hnames : ((items.map (fileOf sha256)).map (·.name)).Nodup)
    (htimes : items.Pairwise fun item item' ↦ item.2.usedAt < item'.2.usedAt)
    (byteBudget : JsNumber) :
    (evictLru directory byteBudget).Perm
      ((Lru.evict (fileSize sha256) (natLe · byteBudget) items).map (fileOf sha256)) := by
  have hjson : directory.filter (fun file ↦ endsWith file.name (js ".json")) = directory := by
    rw [List.filter_eq_self]
    intro file hfile
    obtain ⟨item, -, rfl⟩ := List.mem_map.mp (hfiles.mem_iff.mp hfile)
    exact endsWith_fileFor _
  have htotal : totalBytes directory = Lru.total (fileSize sha256) items := by
    rw [← totalBytes_files]
    exact (hfiles.map _).sum_eq
  have hsplit : (Lru.evicted (fileSize sha256) (natLe · byteBudget) items).map (fileOf sha256) ++
      (Lru.evict (fileSize sha256) (natLe · byteBudget) items).map (fileOf sha256) =
        items.map (fileOf sha256) := by
    rw [← List.map_append, Lru.evicted_append_evict]
  rw [← hsplit] at hnames
  have hkept := filter_not_mem_names hnames
  rw [hsplit] at hkept
  simp only [evictLru, hjson, htotal, sortBy_files hfiles htimes, filesToEvict_files]
  rw [← hkept]
  exact hfiles.filter _

end

/-! ## Single calls -/

section

variable {sha256 : Bytes → JsString} {options : PersistentReplayCacheOptions}
  {calls : List ReplayCacheCall} {now : ℕ} {items : LruReplayCache} {directory : CacheDirectory}

/-- The directory holds the files of the items, which were used before the time. -/
structure Reflects (sha256 : Bytes → JsString) (calls : List ReplayCacheCall) (now : ℕ)
    (items : LruReplayCache) (directory : CacheDirectory) : Prop where
  files : directory.Perm (items.map (fileOf sha256))
  keys : (items.map Prod.fst).Nodup
  stored : StoredBy calls items
  recent : items.Pairwise fun item item' ↦ item.2.usedAt < item'.2.usedAt
  past : ∀ item ∈ items, item.2.usedAt < now

theorem reflects_nil : Reflects sha256 calls now [] [] :=
  ⟨.nil, List.nodup_nil, by simp [StoredBy], .nil, by simp⟩

namespace Reflects

theorem mono (h : Reflects sha256 calls now items directory) {now' : ℕ} (hle : now ≤ now') :
    Reflects sha256 calls now' items directory :=
  { h with past := fun item hitem ↦ (h.past item hitem).trans_le hle }

/-- The items after one of them was used -/
theorem refresh (h : Reflects sha256 calls now items directory) {text : JsString}
    {value : CachedList} (hstored : IsStored calls (text, value)) (htime : value.usedAt = now)
    {directory' : CacheDirectory} {now' : ℕ} (hlt : now < now')
    (hfiles : directory'.Perm ((Lru.refresh items text value).map (fileOf sha256))) :
    Reflects sha256 calls now' (Lru.refresh items text value) directory' := by
  have hkept : ∀ item ∈ Lru.forget items text, item ∈ items :=
    fun item hitem ↦ (Lru.mem_forget.mp hitem).1
  refine ⟨hfiles, Lru.nodup_refresh h.keys _ _, fun item hitem ↦ ?_, ?_, fun item hitem ↦ ?_⟩
  · rcases List.mem_append.mp hitem with hitem | hitem
    · exact h.stored item (hkept item hitem)
    · obtain rfl := List.mem_singleton.mp hitem
      exact hstored
  · rw [Lru.refresh, List.pairwise_append]
    refine ⟨h.recent.filter _, List.pairwise_singleton _ _, fun item hitem item' hitem' ↦ ?_⟩
    obtain rfl := List.mem_singleton.mp hitem'
    exact (h.past item (hkept item hitem)).trans_eq htime.symm
  · rcases List.mem_append.mp hitem with hitem | hitem
    · exact (h.past item (hkept item hitem)).trans hlt
    · obtain rfl := List.mem_singleton.mp hitem
      exact htime.trans_lt hlt

/-- The items after the eviction pass -/
theorem evict (hfree : CollisionFree sha256 calls) (h : Reflects sha256 calls now items directory)
    (byteBudget : JsNumber) :
    Reflects sha256 calls now (Lru.evict (fileSize sha256) (natLe · byteBudget) items)
      (evictLru directory byteBudget) := by
  have hkept : (Lru.evict (fileSize sha256) (natLe · byteBudget) items).Sublist items :=
    (Lru.evict_suffix items).sublist
  exact ⟨evictLru_files h.files (nodup_names hfree h.stored h.keys) h.recent byteBudget,
    h.keys.sublist (hkept.map _), fun item hitem ↦ h.stored item (hkept.subset hitem),
    h.recent.sublist hkept, fun item hitem ↦ h.past item (hkept.subset hitem)⟩

theorem nodup_files (hfree : CollisionFree sha256 calls)
    (h : Reflects sha256 calls now items directory) : (directory.map (·.name)).Nodup :=
  (h.files.map _).nodup_iff.mpr (nodup_names hfree h.stored h.keys)

theorem isEntryFile (h : Reflects sha256 calls now items directory) :
    ∀ file ∈ directory, ∃ digest, file.name = fileFor digest := by
  intro file hfile
  obtain ⟨item, -, rfl⟩ := List.mem_map.mp (h.files.mem_iff.mp hfile)
  exact ⟨_, rfl⟩

theorem cleanStaleTmpFiles (h : Reflects sha256 calls now items directory)
    (thresholdMs : JsNumber) (time : ℕ) :
    cleanStaleTmpFiles directory thresholdMs time = directory := by
  rw [ProductionRunner.cleanStaleTmpFiles, List.filter_eq_self]
  intro file hfile
  obtain ⟨digest, hname⟩ := h.isEntryFile file hfile
  rw [hname, not_endsWith_tmp]
  rfl

end Reflects

theorem persistent_store_of_invalid {key testCases : Json} {suffix : JsString}
    (h : (validateGeneratedTestCaseList testCases).valid = false) :
    persistentReplayCache sha256 options directory ⟨.store key testCases, now, suffix⟩ =
      (directory, refusedWith testCases) := by
  simp only [persistentReplayCache, refusal_of_invalid h]
  rfl

theorem persistent_store_of_valid (hreflects : Reflects sha256 calls now items directory)
    {key testCases : Json} {suffix : JsString}
    (h : (validateGeneratedTestCaseList testCases).valid = true) :
    persistentReplayCache sha256 options directory ⟨.store key testCases, now, suffix⟩ =
      (evictLru (directory.filter (·.name ≠ fileFor (computeReplayCacheKeyDigest sha256 key)) ++
        [fileOf sha256 (canonicalJson key, newItem testCases now)]) options.byteBudget,
          .stored) := by
  have htmp : ∀ file ∈ directory,
      file.name ≠ tmpFileFor (computeReplayCacheKeyDigest sha256 key) suffix := by
    intro file hfile
    obtain ⟨digest, hname⟩ := hreflects.isEntryFile file hfile
    rw [hname]
    exact fileFor_ne_tmpFileFor _ _ _
  simp only [persistentReplayCache, refusal_of_valid h, hreflects.cleanStaleTmpFiles,
    CacheDirectory.rename_writeFile _ _ htmp]
  rfl

theorem persistent_lookup_of_missing (hfree : CollisionFree sha256 calls)
    (hreflects : Reflects sha256 calls now items directory) {key : Json} {suffix : JsString}
    (hcall : .lookup key ∈ calls) (hget : Lru.get items (canonicalJson key) = none) :
    persistentReplayCache sha256 options directory ⟨.lookup key, now, suffix⟩ =
      (directory, .found (.miss (computeReplayCacheKeyDigest sha256 key))) := by
  have hread : directory.readFile (fileFor (computeReplayCacheKeyDigest sha256 key)) = none := by
    apply CacheDirectory.readFile_eq_none
    intro file hfile hname
    obtain ⟨item, hitem, rfl⟩ := List.mem_map.mp (hreflects.files.mem_iff.mp hfile)
    have htext : IsKeyText calls (canonicalJson key) := ⟨_, hcall, rfl⟩
    have hkey := (fileOf_name_eq_iff hfree hreflects.stored hitem htext).mp hname
    exact Lru.get_eq_none_iff.mp hget (hkey ▸ List.mem_map_of_mem hitem)
  simp only [persistentReplayCache, hread]

theorem content_fileOf (sha256 : Bytes → JsString) (key : Json) (item : CachedList) :
    (fileOf sha256 (canonicalJson key, item)).content =
      entryFile ⟨computeReplayCacheKeyDigest sha256 key, item.storedAt, item.testCases⟩ := by
  unfold fileOf computeReplayCacheKeyDigest
  dsimp only

theorem persistent_lookup_of_found (hfree : CollisionFree sha256 calls)
    (hordered : OrderedLists calls) (hplain : PlainLists calls)
    (hreflects : Reflects sha256 calls now items directory) {key : Json} {suffix : JsString}
    {found : CachedList} (hget : Lru.get items (canonicalJson key) = some found) :
    persistentReplayCache sha256 options directory ⟨.lookup key, now, suffix⟩ =
      (directory.utimes (fileFor (computeReplayCacheKeyDigest sha256 key)) now,
        .found (.hit ⟨computeReplayCacheKeyDigest sha256 key, found.storedAt,
          stored found.testCases⟩)) := by
  have hitem := (Lru.get_eq_some_iff hreflects.keys).mp hget
  obtain ⟨key', hstore, -, hvalid⟩ := hreflects.stored _ hitem
  have hread : directory.readFile (fileFor (computeReplayCacheKeyDigest sha256 key)) =
      some (fileOf sha256 (canonicalJson key, found)).content :=
    CacheDirectory.readFile_of_mem (hreflects.nodup_files hfree)
      (hreflects.files.mem_iff.mpr (List.mem_map_of_mem hitem))
  have hentry : readEntry (computeReplayCacheKeyDigest sha256 key) (some (entryFile
      ⟨computeReplayCacheKeyDigest sha256 key, found.storedAt, found.testCases⟩)) = _ :=
    @readEntry_entryFile ⟨computeReplayCacheKeyDigest sha256 key, found.storedAt, found.testCases⟩
      (hordered key' _ hstore) (hplain key' _ hstore hvalid) hvalid
  rw [content_fileOf] at hread
  simp only [persistentReplayCache, hread, hentry]

/-- The files after the entry of a store was published -/
theorem written_files (hfree : CollisionFree sha256 calls) {key testCases : Json}
    (hcall : .store key testCases ∈ calls) (h : Reflects sha256 calls now items directory) :
    (directory.filter (·.name ≠ fileFor (computeReplayCacheKeyDigest sha256 key)) ++
        [fileOf sha256 (canonicalJson key, newItem testCases now)]).Perm
      ((Lru.refresh items (canonicalJson key) (newItem testCases now)).map (fileOf sha256)) := by
  have htext : IsKeyText calls (canonicalJson key) := ⟨_, hcall, rfl⟩
  have hfiles := (h.files.filter _).trans (List.Perm.of_eq (filter_files hfree h.stored htext))
  rw [Lru.refresh, List.map_append]
  exact hfiles.append_right _

/-! ## Whole runs -/

/-- The items and the directory after a call -/
theorem Reflects.step (hfree : CollisionFree sha256 calls) (hordered : OrderedLists calls)
    (hplain : PlainLists calls) {timed : TimedCall} (hcall : timed.call ∈ calls)
    (h : Reflects sha256 calls timed.now items directory) {now' : ℕ} (hlt : timed.now < now') :
    Reflects sha256 calls now' (lruReplayCache sha256 options items timed).1
      (persistentReplayCache sha256 options directory timed).1 := by
  obtain ⟨call, now, suffix⟩ := timed
  cases call with
  | store key testCases =>
      cases hvalid : (validateGeneratedTestCaseList testCases).valid with
      | false =>
          rw [persistent_store_of_invalid hvalid, lruReplayCache]
          simp only [hvalid, Bool.false_eq_true, if_false]
          exact h.mono hlt.le
      | true =>
          rw [persistent_store_of_valid h hvalid, lruReplayCache]
          simp only [hvalid, if_true]
          have hstored : IsStored calls (canonicalJson key, newItem testCases now) :=
            ⟨key, hcall, rfl, hvalid⟩
          exact (h.refresh hstored rfl hlt (written_files hfree hcall h)).evict hfree _
  | lookup key =>
      rw [lruReplayCache]
      cases hget : Lru.get items (canonicalJson key) with
      | none =>
          rw [persistent_lookup_of_missing hfree h hcall hget]
          simp only [hget]
          exact h.mono hlt.le
      | some found =>
          rw [persistent_lookup_of_found hfree hordered hplain h hget]
          have hitem := (Lru.get_eq_some_iff h.keys).mp hget
          obtain ⟨key', hstore, htext, hvalid⟩ := h.stored _ hitem
          have hstored : IsStored calls (canonicalJson key, { found with usedAt := now }) :=
            ⟨key', hstore, htext, hvalid⟩
          simp only [hget]
          exact h.refresh hstored rfl hlt
            (utimes_files hfree h.stored h.keys h.files hitem now)
theorem Reflects.keepsToLru (hfree : CollisionFree sha256 calls) (hordered : OrderedLists calls)
    (hplain : PlainLists calls) {timed : TimedCall} (hcall : timed.call ∈ calls)
    (h : Reflects sha256 calls timed.now items directory) :
    KeepsToLru sha256 options items timed (persistentReplayCache sha256 options directory timed).1
      (persistentReplayCache sha256 options directory timed).2 := by
  have hstep : Reflects sha256 calls (timed.now + 1)
      (lruReplayCache sha256 options items timed).1
      (persistentReplayCache sha256 options directory timed).1 :=
    h.step hfree hordered hplain hcall (Nat.lt_succ_self _)
  have hfiles := hstep.files
  have hput : ∀ key testCases, timed.call = .store key testCases →
      (validateGeneratedTestCaseList testCases).valid = true →
        (lruReplayCache sha256 options items timed).1 = Lru.put (fileSize sha256)
          (natLe · options.byteBudget) items (canonicalJson key) (newItem testCases timed.now) := by
    intro key testCases hstore hvalid
    simp only [lruReplayCache, hstore, hvalid, if_true]
  refine ⟨hfiles, ?_, ?_, ?_, ?_⟩
  · obtain ⟨call, now, suffix⟩ := timed
    cases call with
    | store key testCases =>
        cases hvalid : (validateGeneratedTestCaseList testCases).valid with
        | false => simp [persistent_store_of_invalid hvalid, hvalid]
        | true => simp [persistent_store_of_valid h hvalid, hvalid]
    | lookup key =>
        cases hget : Lru.get items (canonicalJson key) with
        | none => simp [persistent_lookup_of_missing hfree h hcall hget, hget]
        | some found =>
            have hitem := (Lru.get_eq_some_iff h.keys).mp hget
            obtain ⟨key', hstore, -, hvalid⟩ := h.stored _ hitem
            have hlist := hordered key' _ hstore
            have hnumbers := hplain key' _ hstore hvalid
            simp only [persistent_lookup_of_found hfree hordered hplain h hget, hget]
            exact ⟨_, stored_same hlist hnumbers (valid_stored hlist hnumbers hvalid).1, rfl⟩
  · intro key testCases hstore hvalid
    rw [hput key testCases hstore hvalid] at hfiles
    have htotal := (hfiles.map fun file ↦ file.content.length).sum_eq
    rcases Lru.fits_evict (fileSize sha256) (natLe · options.byteBudget)
      (Lru.refresh items (canonicalJson key) (newItem testCases timed.now)) with hfits | hnone
    · left
      rw [totalBytes, htotal]
      exact (congrArg (natLe · options.byteBudget) (totalBytes_files _)).trans hfits
    · right
      rw [Lru.put, hnone] at hfiles
      exact hfiles.eq_nil
  · intro key testCases hstore hvalid
    rw [hput key testCases hstore hvalid]
    exact ⟨_, (Lru.evicted_append_evict _).symm, fun n hn ↦ Lru.not_fits_drop _ hn⟩
  · intro key testCases hstore hvalid hfits
    rw [hput key testCases hstore hvalid] at hfiles
    exact hfiles.mem_iff.mpr (List.mem_map_of_mem (Lru.mem_evict_concat _ hfits))

end

section

variable {sha256 : Bytes → JsString} {options : PersistentReplayCacheOptions}
  {calls : List TimedCall}

/-- The directory after every prefix of the calls -/
theorem reflects_stateAfter (hfree : CollisionFree sha256 (calls.map (·.call)))
    (hordered : OrderedLists (calls.map (·.call))) (hplain : PlainLists (calls.map (·.call)))
    (hclock : calls.Pairwise fun timed timed' ↦ timed.now < timed'.now) (before : List TimedCall) :
    ∀ timed, before ++ [timed] <+: calls →
      Reflects sha256 (calls.map (·.call)) timed.now
        (stateAfter (lruReplayCache sha256 options) [] before)
        (stateAfter (persistentReplayCache sha256 options) [] before) := by
  induction before using List.reverseRecOn with
  | nil => exact fun timed _ ↦ reflects_nil
  | append_singleton before last ih =>
      intro timed hbefore
      have hlast : before ++ [last] <+: calls := (List.prefix_append _ [timed]).trans hbefore
      have hcall : last.call ∈ calls.map (·.call) :=
        List.mem_map_of_mem (hlast.subset (by simp))
      have hlt : last.now < timed.now := by
        have hpart := hclock.sublist hbefore.sublist
        exact (List.pairwise_append.mp hpart).2.2 last (by simp) timed (by simp)
      rw [stateAfter_concat, stateAfter_concat]
      exact (ih last hlast).step hfree hordered hplain hcall hlt

/-- The items are those of the latest stores. -/
theorem latest_items (before : List TimedCall) :
    ((stateAfter (lruReplayCache sha256 options) [] before).map Prod.fst).Nodup ∧
      ∀ item ∈ stateAfter (lruReplayCache sha256 options) [] before, ∀ key,
        item.1 = canonicalJson key →
          latest key (before.map (·.call)) = some item.2.testCases := by
  induction before using List.reverseRecOn with
  | nil => exact ⟨List.nodup_nil, by simp [stateAfter]⟩
  | append_singleton before timed ih =>
      obtain ⟨hkeys, hlatest⟩ := ih
      rw [stateAfter_concat, List.map_append, List.map_singleton]
      obtain ⟨call, now, suffix⟩ := timed
      cases call with
      | store key testCases =>
          cases hvalid : (validateGeneratedTestCaseList testCases).valid with
          | false =>
              simp only [lruReplayCache, hvalid, Bool.false_eq_true, if_false,
                latest_concat_invalid _ _ _ hvalid]
              exact ⟨hkeys, hlatest⟩
          | true =>
              simp only [lruReplayCache, hvalid, if_true, latest_concat_valid _ _ _ hvalid]
              refine ⟨(Lru.nodup_refresh hkeys _ _).sublist (Lru.keys_evict_sublist _), ?_⟩
              intro item hitem key' htext
              rcases List.mem_append.mp ((Lru.evict_suffix _).subset hitem) with hitem | hitem
              · obtain ⟨hmem, hne⟩ := Lru.mem_forget.mp hitem
                rw [if_neg fun heq ↦ hne (htext.trans heq.symm)]
                exact hlatest item hmem key' htext
              · obtain rfl := List.mem_singleton.mp hitem
                rw [if_pos htext]
                rfl
      | lookup key =>
          cases hget : Lru.get (stateAfter (lruReplayCache sha256 options) [] before)
              (canonicalJson key) with
          | none =>
              simp only [lruReplayCache, hget, latest_concat_lookup]
              exact ⟨hkeys, hlatest⟩
          | some found =>
              simp only [lruReplayCache, hget, latest_concat_lookup]
              refine ⟨Lru.nodup_refresh hkeys _ _, fun item hitem key' htext ↦ ?_⟩
              rcases List.mem_append.mp hitem with hitem | hitem
              · exact hlatest item (Lru.mem_forget.mp hitem).1 key' htext
              · obtain rfl := List.mem_singleton.mp hitem
                exact hlatest _ ((Lru.get_eq_some_iff hkeys).mp hget) key' htext

/-- The cache is a byte-bounded LRU on every sequence of calls that stores no `NaN` and no
negative zero. -/
theorem persistentReplayCache_isLru (hfree : CollisionFree sha256 (calls.map (·.call)))
    (hordered : OrderedLists (calls.map (·.call))) (hplain : PlainLists (calls.map (·.call)))
    (hclock : calls.Pairwise fun timed timed' ↦ timed.now < timed'.now) :
    IsLru sha256 options calls := by
  constructor
  · intro before timed hbefore
    have hcall : timed.call ∈ calls.map (·.call) :=
      List.mem_map_of_mem (hbefore.subset (by simp))
    exact (reflects_stateAfter hfree hordered hplain hclock before timed hbefore).keepsToLru
      hfree hordered hplain hcall
  · intro before key cached _ hget
    obtain ⟨hkeys, hlatest⟩ := @latest_items sha256 options before
    exact hlatest _ ((Lru.get_eq_some_iff hkeys).mp hget) key rfl

end

/-! ## Two calls on one key -/

def timedStoreAndLookup (confidence : JsNumber) : List TimedCall :=
  List.zipWith (fun call now ↦ ⟨call, now, []⟩) (storeAndLookup confidence) [1, 2]

theorem persistentReplayCache_isLru_sample :
    IsLru sampleSha256 ⟨.infinity false, 0⟩ (timedStoreAndLookup 1) :=
  persistentReplayCache_isLru (collisionFree_storeAndLookup _ _) (orderedLists_storeAndLookup _)
    plainLists_storeAndLookup (by simp [timedStoreAndLookup, storeAndLookup])

/-- A valid list that is not valid any more when its file is read is not found. -/
theorem not_isLru_of_stored_invalid {sha256 : Bytes → JsString}
    {options : PersistentReplayCacheOptions} {key testCases : Json} {now now' : ℕ}
    (hordered : testCases.Ordered)
    (hvalid : (validateGeneratedTestCaseList testCases).valid = true)
    (hinvalid : (validateGeneratedTestCaseList (stored testCases)).valid = false)
    (hfits : natLe (fileSize sha256 (canonicalJson key, newItem testCases now))
      options.byteBudget = true) :
    ¬IsLru sha256 options [⟨.store key testCases, now, []⟩, ⟨.lookup key, now', []⟩] := by
  intro h
  have hanswer := (h.keeps [⟨.store key testCases, now, []⟩] ⟨.lookup key, now', []⟩
    (List.prefix_refl _)).answer
  have hitems : stateAfter (lruReplayCache sha256 options) [] [⟨.store key testCases, now, []⟩] =
      [(canonicalJson key, newItem testCases now)] := by
    simp [stateAfter, lruReplayCache, hvalid, Lru.put, Lru.refresh, Lru.forget, Lru.evict, hfits]
  have hdirectory : stateAfter (persistentReplayCache sha256 options) []
      [⟨.store key testCases, now, []⟩] =
        [fileOf sha256 (canonicalJson key, newItem testCases now)] := by
    have hstore := @persistent_store_of_valid sha256 options [] now [] [] reflects_nil key
      testCases [] hvalid
    have hfits' : natLe (totalBytes [fileOf sha256 (canonicalJson key, newItem testCases now)])
        options.byteBudget = true := by simpa [totalBytes, fileSize] using hfits
    refine (congrArg Prod.fst hstore).trans ?_
    simp [evictLru, endsWith_fileFor, filesToEvict, sortBy, hfits']
  obtain ⟨error, herror⟩ : ∃ error, readEntry (computeReplayCacheKeyDigest sha256 key)
      (some (entryFile ⟨computeReplayCacheKeyDigest sha256 key, (newItem testCases now).storedAt,
        (newItem testCases now).testCases⟩)) = .invalid error :=
    @readEntry_of_invalid_stored ⟨computeReplayCacheKeyDigest sha256 key,
      (newItem testCases now).storedAt, (newItem testCases now).testCases⟩ hordered (isObjectValue_of_valid hvalid) hinvalid
  have hread : CacheDirectory.readFile [fileOf sha256 (canonicalJson key, newItem testCases now)]
      (fileFor (computeReplayCacheKeyDigest sha256 key)) =
        some (fileOf sha256 (canonicalJson key, newItem testCases now)).content :=
    CacheDirectory.readFile_of_mem (by simp) (List.mem_singleton_self _)
  rw [content_fileOf] at hread
  have hget : Lru.get [(canonicalJson key, newItem testCases now)] (canonicalJson key) =
      some (newItem testCases now) := by simp [Lru.get]
  simp only [hitems, hdirectory, hget, persistentReplayCache, hread, herror] at hanswer
  obtain ⟨found, -, hfound⟩ := hanswer
  cases hfound

/-- A list with a confidence of `NaN` is lost on its first lookup, whatever the budget. -/
theorem nan_confidence_not_lru :
    ¬ ∀ (sha256 : Bytes → JsString) (options : PersistentReplayCacheOptions)
      (calls : List TimedCall), CollisionFree sha256 (calls.map (·.call)) →
        OrderedLists (calls.map (·.call)) →
          calls.Pairwise (fun timed timed' ↦ timed.now < timed'.now) →
            IsLru sha256 options calls := by
  intro h
  have hrun := h sampleSha256 ⟨.infinity false, 0⟩ (timedStoreAndLookup .nan)
    (collisionFree_storeAndLookup _ _) (orderedLists_storeAndLookup _)
    (by simp [timedStoreAndLookup, storeAndLookup])
  exact not_isLru_of_stored_invalid (ordered_sampleList _ _) sampleList_nan_verdicts.1
    sampleList_nan_verdicts.2 rfl hrun

end TestIntelligence.ProductionRunner
