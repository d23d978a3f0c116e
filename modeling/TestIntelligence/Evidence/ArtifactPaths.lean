import TestIntelligence.Files.PosixPath
import TestIntelligence.Js.Utf8

/-!
# The file names of evidence artifacts

A name in the evidence manifest is checked segment by segment, and once more after it was
resolved against the run directory.
-/

namespace TestIntelligence.Evidence

open Js Files

/-! ## The checks of a name -/

def hasControlCharacter (value : JsString) : Bool :=
  value.any fun code ↦ code ≤ 0x1F || code == 0x7F

def hasLoneSurrogate : JsString → Bool
  | [] => false
  | [code] => isLeadSurrogate code || isTrailSurrogate code
  | code :: next :: rest =>
      if isLeadSurrogate code then
        if isTrailSurrogate next then hasLoneSurrogate rest else true
      else if isTrailSurrogate code then true
      else hasLoneSurrogate (next :: rest)

def isLetter (u : CodeUnit) : Bool := (0x41 ≤ u && u ≤ 0x5A) || (0x61 ≤ u && u ≤ 0x7A)

/-- `/^[A-Za-z]:/` -/
def windowsDriveDesignator : JsString → Bool
  | letter :: colon :: _ => isLetter letter && colon == 0x3A
  | _ => false

def isPathSeparator (u : CodeUnit) : Bool := u == 0x2F || u == 0x5C

/-- `win32.isAbsolute` -/
def win32IsAbsolute : JsString → Bool
  | [] => false
  | [u] => isPathSeparator u
  | u :: v :: rest => isPathSeparator u ||
      (isLetter u && v == 0x3A && (rest.head?.map isPathSeparator).getD false)

/-- `Buffer.byteLength(value, "utf8")` -/
def byteLength (value : JsString) : ℕ := (utf8Encode value).length

inductive ArtifactPathProblem
  | empty
  | absolute
  | backslash
  | controlCharacters
  | loneSurrogate
  | exceedsTotalByteLength
  | pathTraversal
  | segmentExceedsByteLength
  deriving DecidableEq

def validateWave1ValidationEvidenceArtifactPath (value : JsString) :
    Except ArtifactPathProblem Unit :=
  let parts := split slash value
  if value = [] then .error .empty
  else if isAbsolute value || win32IsAbsolute value || windowsDriveDesignator value then
    .error .absolute
  else if value.contains 0x5C then .error .backslash
  else if hasControlCharacter value then .error .controlCharacters
  else if hasLoneSurrogate value then .error .loneSurrogate
  else if 512 < byteLength value then .error .exceedsTotalByteLength
  else if parts.any fun part ↦ part = [] || part = dot || part = dotDot then .error .pathTraversal
  else if parts.any fun part ↦ 255 < byteLength part then .error .segmentExceedsByteLength
  else .ok ()

def reasonDiagnostic : ArtifactPathProblem → JsString
  | .empty => js "filename must not be empty"
  | .absolute => js "filename must be a relative path, not absolute"
  | .backslash => js "filename contains backslash (must be POSIX-style)"
  | .controlCharacters => js "filename contains control characters"
  | .loneSurrogate => js "filename contains a lone UTF-16 surrogate (invalid Unicode)"
  | .exceedsTotalByteLength => js "filename exceeds 512 bytes"
  | .pathTraversal => js "filename contains path traversal segment (`.`, `..`, or empty)"
  | .segmentExceedsByteLength => js "filename segment exceeds 255 bytes"

def formatWave1ValidationEvidenceArtifactPathForDiagnostic (value : JsString) : JsString :=
  replaceUnit 0x7F (js "\\u007f") (quoteJson value)

/-- The error is the message of a `RangeError`. -/
def resolveWave1ValidationEvidenceArtifactPath (cwd rootDir filename : JsString) :
    Except JsString JsString :=
  let shown := formatWave1ValidationEvidenceArtifactPathForDiagnostic filename
  match validateWave1ValidationEvidenceArtifactPath filename with
  | .error reason =>
      .error (js "invalid artifact filename " ++ shown ++ js ": " ++ reasonDiagnostic reason)
  | .ok () =>
      let root := resolvePath cwd rootDir
      let resolved := resolvePathIn cwd root filename
      let relative := relativePath cwd root resolved
      if relative ≠ [] ∧ (dotDot.isPrefixOf relative || isAbsolute relative) then
        .error (js "artifact filename escapes run dir " ++ shown)
      else .ok resolved

/-! ## Accepted names -/

/-- An accepted name is a relative path of names. -/
theorem validate_spec {filename : JsString}
    (h : validateWave1ValidationEvidenceArtifactPath filename = .ok ()) :
    filename ≠ [] ∧ isAbsolute filename = false ∧ ∀ part ∈ split slash filename, IsName part := by
  unfold validateWave1ValidationEvidenceArtifactPath at h
  dsimp only at h
  split at h
  · cases h
  next hempty =>
  split at h
  · cases h
  next habsolute =>
  iterate 4
    split at h
    · cases h
  split at h
  · cases h
  next hparts =>
  refine ⟨hempty, ?_, fun part hpart ↦ ?_⟩
  · simp only [Bool.or_eq_true, not_or, Bool.not_eq_true] at habsolute
    exact habsolute.1.1
  · rw [List.any_eq_true] at hparts
    refine ⟨fun heq ↦ hparts ⟨part, hpart, ?_⟩, fun heq ↦ hparts ⟨part, hpart, ?_⟩,
      fun heq ↦ hparts ⟨part, hpart, ?_⟩⟩ <;> simp [heq]

section

variable {cwd rootDir filename : JsString}

/-- An accepted name is resolved below the root. -/
theorem resolvePathIn_of_valid
    (h : validateWave1ValidationEvidenceArtifactPath filename = .ok ()) :
    resolveInParts cwd (resolvePath cwd rootDir) filename =
      resolveParts cwd rootDir ++ split slash filename := by
  obtain ⟨-, habsolute, hnames⟩ := validate_spec h
  have hdotDot : dotDot ∉ split slash filename := fun hmem ↦ (hnames dotDot hmem).2.2 rfl
  rw [resolveInParts_of_no_dotDot habsolute hdotDot, resolvePath,
    resolveParts_absolutePath cwd fun part ↦ isName_of_mem_resolveParts]
  congr 1
  exact List.filter_eq_self.mpr fun part hpart ↦ decide_eq_true (hnames part hpart)

/-- The names of an accepted path below the root. -/
theorem isName_of_mem_resolved
    (h : validateWave1ValidationEvidenceArtifactPath filename = .ok ()) {part : JsString}
    (hpart : part ∈ resolveParts cwd rootDir ++ split slash filename) :
    IsName part ∧ slash ∉ part := by
  rcases List.mem_append.mp hpart with hroot | hname
  · exact isName_of_mem_resolveParts hroot
  · exact ⟨(validate_spec h).2.2 part hname, notMem_of_mem_split hname⟩

/-- Relative to the root the resolved path is the name again. -/
theorem relativePath_of_valid
    (h : validateWave1ValidationEvidenceArtifactPath filename = .ok ()) :
    relativePath cwd (resolvePath cwd rootDir)
      (resolvePathIn cwd (resolvePath cwd rootDir) filename) = filename := by
  rw [relativePath, resolvePathIn, resolvePathIn_of_valid h,
    resolveParts_absolutePath cwd fun part ↦ isName_of_mem_resolved h, resolvePath,
    resolveParts_absolutePath cwd fun part ↦ isName_of_mem_resolveParts, relative,
    relativeParts_append, join_split]

theorem resolve_of_valid (h : validateWave1ValidationEvidenceArtifactPath filename = .ok ()) :
    resolveWave1ValidationEvidenceArtifactPath cwd rootDir filename =
      if dotDot.isPrefixOf filename then
        .error (js "artifact filename escapes run dir " ++
          formatWave1ValidationEvidenceArtifactPathForDiagnostic filename)
      else .ok (absolutePath (resolveParts cwd rootDir ++ split slash filename)) := by
  obtain ⟨hempty, habsolute, -⟩ := validate_spec h
  unfold resolveWave1ValidationEvidenceArtifactPath
  rw [h]
  dsimp only
  rw [relativePath_of_valid h, habsolute, Bool.or_false, resolvePathIn, resolvePathIn_of_valid h]
  simp only [hempty, ne_eq, not_false_eq_true, true_and]

theorem validate_of_resolve {path : JsString}
    (h : resolveWave1ValidationEvidenceArtifactPath cwd rootDir filename = .ok path) :
    validateWave1ValidationEvidenceArtifactPath filename = .ok () := by
  unfold resolveWave1ValidationEvidenceArtifactPath at h
  cases hcheck : validateWave1ValidationEvidenceArtifactPath filename with
  | ok => rfl
  | error reason =>
      rw [hcheck] at h
      cases h

theorem resolve_eq_ok {path : JsString}
    (h : resolveWave1ValidationEvidenceArtifactPath cwd rootDir filename = .ok path) :
    path = absolutePath (resolveParts cwd rootDir ++ split slash filename) := by
  rw [resolve_of_valid (validate_of_resolve h)] at h
  split at h
  · cases h
  · exact (Except.ok.inj h).symm

/-- Different names are resolved to different paths. -/
theorem resolve_injective {other path : JsString}
    (h : resolveWave1ValidationEvidenceArtifactPath cwd rootDir filename = .ok path)
    (hother : resolveWave1ValidationEvidenceArtifactPath cwd rootDir other = .ok path) :
    other = filename := by
  have hsame := (resolve_eq_ok hother).symm.trans (resolve_eq_ok h)
  have hparts := congrArg (resolveParts cwd) hsame
  rw [resolveParts_absolutePath cwd fun part ↦ isName_of_mem_resolved (validate_of_resolve hother),
    resolveParts_absolutePath cwd fun part ↦ isName_of_mem_resolved (validate_of_resolve h)]
    at hparts
  have hnames := List.append_cancel_left hparts
  rw [← join_split slash other, hnames, join_split]

/-! ## Inside the run directory -/

/-- The path leads from the directory down through at least one name. -/
def StrictlyInside (root path : JsString) : Prop :=
  ∃ names : List JsString, names ≠ [] ∧ (∀ name ∈ names, IsName name ∧ slash ∉ name) ∧
    path = (if root = [slash] then root else root ++ [slash]) ++ join [slash] names

theorem strictlyInside_absolutePath {parts names : List JsString}
    (hparts : ∀ part ∈ parts, IsName part) (hne : names ≠ [])
    (hnames : ∀ name ∈ names, IsName name ∧ slash ∉ name) :
    StrictlyInside (absolutePath parts) (absolutePath (parts ++ names)) := by
  refine ⟨names, hne, hnames, ?_⟩
  cases parts with
  | nil => rfl
  | cons first rest =>
      have hroot : absolutePath (first :: rest) ≠ [slash] := by
        intro heq
        have hjoin : join [slash] (first :: rest) = [] := (List.cons.inj heq).2
        cases rest with
        | nil => exact (hparts first (List.mem_cons_self ..)).1 hjoin
        | cons next rest => simp [join] at hjoin
      rw [if_neg hroot, absolutePath, absolutePath, join_append _ (List.cons_ne_nil _ _) hne]
      simp only [List.cons_append, List.append_assoc]

variable (cwd rootDir filename) in
/-- The name is resolved to a path inside the directory that no other name has. -/
def ResolvesInside : Prop :=
  ∃ path, resolveWave1ValidationEvidenceArtifactPath cwd rootDir filename = .ok path ∧
    StrictlyInside (resolvePath cwd rootDir) path ∧
    ∀ other, resolveWave1ValidationEvidenceArtifactPath cwd rootDir other = .ok path →
      other = filename

/-- Accepted names are resolved, except those that begin with two dots. -/
theorem resolvesInside_iff (h : validateWave1ValidationEvidenceArtifactPath filename = .ok ()) :
    ResolvesInside cwd rootDir filename ↔ dotDot.isPrefixOf filename = false := by
  constructor
  · rintro ⟨path, hresolve, -⟩
    rw [resolve_of_valid h] at hresolve
    split at hresolve
    · cases hresolve
    · next hdots => exact Bool.eq_false_iff.mpr hdots
  · intro hdots
    have hresolve := @resolve_of_valid cwd rootDir filename h
    rw [hdots, if_neg Bool.false_ne_true] at hresolve
    refine ⟨_, hresolve, ?_, fun other hother ↦ resolve_injective hresolve hother⟩
    apply strictlyInside_absolutePath (fun part hpart ↦ (isName_of_mem_resolveParts hpart).1)
      (split_ne_nil slash filename)
    exact fun part hpart ↦ ⟨(validate_spec h).2.2 part hpart, notMem_of_mem_split hpart⟩

theorem resolvesInside_sample :
    ResolvesInside (js "/") (js "/runs/job-1") (js "reports/summary.json") :=
  (resolvesInside_iff (by decide)).mpr (by decide)

/-- The name is one segment that is neither `.` nor `..`. -/
theorem dotted_name_not_resolved :
    validateWave1ValidationEvidenceArtifactPath (js "..report.json") = .ok () ∧
      resolveWave1ValidationEvidenceArtifactPath (js "/") (js "/runs/job-1") (js "..report.json") =
        .error (js "artifact filename escapes run dir \"..report.json\"") := by
  decide

end

end TestIntelligence.Evidence
