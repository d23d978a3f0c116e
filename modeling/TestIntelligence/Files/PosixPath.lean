import TestIntelligence.Js.Text

/-!
# POSIX paths

`normalize`, `join`, `resolve`, `relative` and `dirname` of `node:path`, and the parts of
a path that are left when `.` and `..` are worked off.
-/

namespace TestIntelligence.Files

open Js

def slash : CodeUnit := 0x2F

def dot : JsString := [0x2E]

def dotDot : JsString := [0x2E, 0x2E]

def isAbsolute (path : JsString) : Bool := path.head? == some slash

/-! ## Working off `.` and `..` -/

/-- The parts so far are on a stack, the last one on top. -/
def pushPart (allowAboveRoot : Bool) (stack : List JsString) (part : JsString) : List JsString :=
  if part = [] ∨ part = dot then stack
  else if part = dotDot then
    match stack with
    | [] => if allowAboveRoot then [dotDot] else []
    | top :: rest =>
        if top = dotDot then if allowAboveRoot then dotDot :: top :: rest else top :: rest
        else rest
  else part :: stack

def normalizeParts (allowAboveRoot : Bool) (parts : List JsString) : List JsString :=
  (parts.foldl (pushPart allowAboveRoot) []).reverse

def normalize (path : JsString) : JsString :=
  if path = [] then dot
  else
    let absolute := isAbsolute path
    let trailing := path.getLast? == some slash
    let body := join [slash] (normalizeParts (!absolute) (split slash path))
    if body = [] then if absolute then [slash] else if trailing then js "./" else dot
    else (if absolute then [slash] else []) ++ body ++ (if trailing then [slash] else [])

def joinPaths (paths : List JsString) : JsString :=
  let nonempty := paths.filter (· ≠ [])
  if nonempty = [] then dot else normalize (join [slash] nonempty)

/-- The parts of `resolve(path)`, where the working directory is absolute. -/
def resolveParts (cwd path : JsString) : List JsString :=
  normalizeParts false (if isAbsolute path then split slash path
    else split slash cwd ++ split slash path)

/-- The parts of `resolve(directory, path)`. -/
def resolveInParts (cwd directory path : JsString) : List JsString :=
  if isAbsolute path then resolveParts cwd path
  else normalizeParts false ((if isAbsolute directory then split slash directory
    else split slash cwd ++ split slash directory) ++ split slash path)

def absolutePath (parts : List JsString) : JsString := slash :: join [slash] parts

/-- The parts of `relative(from, to)` for two absolute paths. -/
def relativeParts : (source target : List JsString) → List JsString
  | s :: source, t :: target =>
      if s = t then relativeParts source target
      else List.replicate (source.length + 1) dotDot ++ t :: target
  | source, target => List.replicate source.length dotDot ++ target

def relative (source target : List JsString) : JsString :=
  join [slash] (relativeParts source target)

/-- `resolve(path)` -/
def resolvePath (cwd path : JsString) : JsString := absolutePath (resolveParts cwd path)

/-- `resolve(directory, path)` -/
def resolvePathIn (cwd directory path : JsString) : JsString :=
  absolutePath (resolveInParts cwd directory path)

/-- `relative(source, target)` -/
def relativePath (cwd source target : JsString) : JsString :=
  relative (resolveParts cwd source) (resolveParts cwd target)

def dirname (path : JsString) : JsString :=
  let body := (path.reverse.dropWhile (· == slash)).dropWhile (· != slash)
  if path = [] then dot
  else if body.length ≤ 1 then if isAbsolute path then [slash] else dot
  else if body.length = 2 ∧ isAbsolute path then [slash, slash]
  else body.tail.reverse

/-! ## Splitting -/

theorem split_ne_nil (sep : CodeUnit) (s : JsString) : split sep s ≠ [] := by
  cases s with
  | nil => exact List.cons_ne_nil _ _
  | cons u s =>
      rw [split]
      split
      · exact List.cons_ne_nil _ _
      · split <;> exact List.cons_ne_nil _ _

theorem split_cons_of_ne {sep u : CodeUnit} (hu : u ≠ sep) {s part : JsString}
    {parts : List JsString} (h : split sep s = part :: parts) :
    split sep (u :: s) = (u :: part) :: parts := by
  rw [split, if_neg hu, h]

theorem split_of_notMem {sep : CodeUnit} {s : JsString} (h : sep ∉ s) : split sep s = [s] := by
  induction s with
  | nil => rfl
  | cons u s ih =>
      rw [List.mem_cons, not_or] at h
      obtain ⟨hu, hs⟩ := h
      exact split_cons_of_ne (Ne.symm hu) (ih hs)

theorem split_append {sep : CodeUnit} {s : JsString} (h : sep ∉ s) (t : JsString) :
    split sep (s ++ sep :: t) = s :: split sep t := by
  induction s with
  | nil => rw [List.nil_append, split, if_pos rfl]
  | cons u s ih =>
      rw [List.mem_cons, not_or] at h
      obtain ⟨hu, hs⟩ := h
      exact split_cons_of_ne (Ne.symm hu) (ih hs)

theorem split_join {sep : CodeUnit} {parts : List JsString} (hne : parts ≠ [])
    (h : ∀ part ∈ parts, sep ∉ part) : split sep (join [sep] parts) = parts := by
  induction parts with
  | nil => exact absurd rfl hne
  | cons part parts ih =>
      obtain ⟨hpart, hparts⟩ := List.forall_mem_cons.mp h
      cases parts with
      | nil => exact split_of_notMem hpart
      | cons next rest =>
          rw [join, List.append_assoc, List.singleton_append, split_append hpart,
            ih (List.cons_ne_nil _ _) hparts]

theorem join_split (sep : CodeUnit) (s : JsString) : join [sep] (split sep s) = s := by
  induction s with
  | nil => rfl
  | cons u s ih =>
      obtain ⟨part, parts, hparts⟩ := List.exists_cons_of_ne_nil (split_ne_nil sep s)
      rw [hparts] at ih
      by_cases hu : u = sep
      · rw [split, if_pos hu, hparts, join, ih, hu]
        rfl
      · rw [split_cons_of_ne hu hparts]
        cases parts with
        | nil => exact congrArg (u :: ·) ih
        | cons next rest => exact congrArg (u :: ·) ih

theorem notMem_of_mem_split {sep : CodeUnit} {s part : JsString} (h : part ∈ split sep s) :
    sep ∉ part := by
  induction s generalizing part with
  | nil =>
      obtain rfl := List.mem_singleton.mp h
      exact List.not_mem_nil
  | cons u s ih =>
      by_cases hu : u = sep
      · rw [split, if_pos hu] at h
        rcases List.mem_cons.mp h with rfl | h
        · exact List.not_mem_nil
        · exact ih h
      · obtain ⟨first, parts, hparts⟩ := List.exists_cons_of_ne_nil (split_ne_nil sep s)
        rw [split_cons_of_ne hu hparts] at h
        rw [hparts] at ih
        rcases List.mem_cons.mp h with rfl | h
        · rw [List.mem_cons, not_or]
          exact ⟨Ne.symm hu, ih (List.mem_cons_self ..)⟩
        · exact ih (List.mem_cons_of_mem first h)

theorem join_append (sep : JsString) {xs ys : List JsString} (hxs : xs ≠ []) (hys : ys ≠ []) :
    join sep (xs ++ ys) = join sep xs ++ sep ++ join sep ys := by
  induction xs with
  | nil => exact absurd rfl hxs
  | cons x xs ih =>
      cases xs with
      | nil =>
          obtain ⟨y, ys, rfl⟩ := List.exists_cons_of_ne_nil hys
          rfl
      | cons x' xs =>
          have hrest := ih (List.cons_ne_nil x' xs)
          rw [List.cons_append] at hrest
          rw [List.cons_append, List.cons_append, join, join, hrest]
          simp only [List.append_assoc]

/-- Separators that appear in the parts split them further. -/
theorem split_map {sep : CodeUnit} {f : CodeUnit → CodeUnit} (hf : f sep = sep) (s : JsString) :
    split sep (s.map f) = (split sep s).flatMap fun part ↦ split sep (part.map f) := by
  induction s with
  | nil => rfl
  | cons u s ih =>
      by_cases hu : u = sep
      · subst hu
        simp [split, hf, ih]
      · obtain ⟨part, parts, hparts⟩ := List.exists_cons_of_ne_nil (split_ne_nil sep s)
        rw [hparts, List.flatMap_cons] at ih
        rw [split_cons_of_ne hu hparts, List.flatMap_cons, List.map_cons, List.map_cons]
        by_cases hfu : f u = sep
        · simp [split, hfu, ih]
        · obtain ⟨head, tail, hhead⟩ := List.exists_cons_of_ne_nil (split_ne_nil sep (part.map f))
          rw [hhead, List.cons_append] at ih
          rw [split_cons_of_ne hfu ih, split_cons_of_ne hfu hhead, List.cons_append]

/-! ## Paths without `..` -/

/-- A part that names an entry of a directory. -/
def IsName (part : JsString) : Prop := part ≠ [] ∧ part ≠ dot ∧ part ≠ dotDot

instance (part : JsString) : Decidable (IsName part) := inferInstanceAs (Decidable (_ ∧ _ ∧ _))

theorem pushPart_name (allowAboveRoot : Bool) (stack : List JsString) {part : JsString}
    (h : IsName part) : pushPart allowAboveRoot stack part = part :: stack := by
  obtain ⟨hempty, hdot, hdotDot⟩ := h
  simp [pushPart, hempty, hdot, hdotDot]

theorem pushPart_skip (allowAboveRoot : Bool) (stack : List JsString) {part : JsString}
    (h : part = [] ∨ part = dot) : pushPart allowAboveRoot stack part = stack := by
  simp [pushPart, h]

theorem foldl_pushPart_of_no_dotDot {allowAboveRoot : Bool} {parts : List JsString}
    (h : dotDot ∉ parts) (stack : List JsString) :
    (parts.foldl (pushPart allowAboveRoot) stack).reverse =
      stack.reverse ++ parts.filter (IsName ·) := by
  induction parts generalizing stack with
  | nil => simp
  | cons part parts ih =>
      have hpart : part ≠ dotDot := fun heq ↦ h (by simp [heq])
      rw [List.foldl_cons, ih fun hmem ↦ h (List.mem_cons_of_mem part hmem)]
      by_cases hname : IsName part
      · rw [pushPart_name allowAboveRoot stack hname,
          List.filter_cons_of_pos (by simpa using hname)]
        simp
      · have hskip : part = [] ∨ part = dot := by
          unfold IsName at hname
          tauto
        rw [pushPart_skip allowAboveRoot stack hskip,
          List.filter_cons_of_neg (by simpa using hname)]

/-- Below a root only names are left. -/
theorem isName_of_mem_normalizeParts {parts : List JsString} {part : JsString}
    (h : part ∈ normalizeParts false parts) : IsName part ∧ part ∈ parts := by
  have hstack : ∀ (parts stack : List JsString) (part : JsString),
      part ∈ parts.foldl (pushPart false) stack → part ∈ stack ∨ IsName part ∧ part ∈ parts := by
    intro parts
    induction parts with
    | nil => exact fun _ _ h ↦ .inl h
    | cons first parts ih =>
        intro stack part h
        rcases ih _ part h with hpushed | ⟨hname, hmem⟩
        · unfold pushPart at hpushed
          split at hpushed
          · exact .inl hpushed
          · next hskip =>
            split at hpushed
            · split at hpushed
              · exact .inl hpushed
              · next top rest =>
                split at hpushed
                · exact .inl hpushed
                · exact .inl (List.mem_cons_of_mem top hpushed)
            · next hdotDot =>
              rcases List.mem_cons.mp hpushed with rfl | hstack
              · rw [not_or] at hskip
                exact .inr ⟨⟨hskip.1, hskip.2, hdotDot⟩, List.mem_cons_self ..⟩
              · exact .inl hstack
        · exact .inr ⟨hname, List.mem_cons_of_mem first hmem⟩
  rcases hstack parts [] part (List.mem_reverse.mp h) with hnone | hname
  · cases hnone
  · exact hname

/-- What a path is resolved to consists of names. -/
theorem isName_of_mem_resolveParts {cwd path part : JsString}
    (h : part ∈ resolveParts cwd path) : IsName part ∧ slash ∉ part := by
  obtain ⟨hname, hmem⟩ := isName_of_mem_normalizeParts h
  refine ⟨hname, ?_⟩
  split at hmem
  · exact notMem_of_mem_split hmem
  · rcases List.mem_append.mp hmem with hmem | hmem <;> exact notMem_of_mem_split hmem

theorem normalizeParts_of_names {allowAboveRoot : Bool} {parts : List JsString}
    (h : ∀ part ∈ parts, IsName part) : normalizeParts allowAboveRoot parts = parts := by
  have hdotDot : dotDot ∉ parts := fun hmem ↦ (h dotDot hmem).2.2 rfl
  rw [normalizeParts, foldl_pushPart_of_no_dotDot hdotDot, List.reverse_nil, List.nil_append]
  exact List.filter_eq_self.mpr fun part hpart ↦ decide_eq_true (h part hpart)

/-- An absolute path of names is resolved to itself. -/
theorem resolveParts_absolutePath (cwd : JsString) {parts : List JsString}
    (h : ∀ part ∈ parts, IsName part ∧ slash ∉ part) :
    resolveParts cwd (absolutePath parts) = parts := by
  have habsolute : isAbsolute (absolutePath parts) = true := by simp [isAbsolute, absolutePath]
  rw [resolveParts, if_pos habsolute, absolutePath, split, if_pos rfl]
  cases hparts : parts with
  | nil => rfl
  | cons first rest =>
      rw [← hparts, split_join (hparts ▸ List.cons_ne_nil _ _) fun part hpart ↦ (h part hpart).2]
      exact normalizeParts_of_names fun part hpart ↦ (h part hpart).1

/-- A relative path without `..` stays below the directory. -/
theorem resolveInParts_of_no_dotDot {cwd directory path : JsString}
    (habsolute : isAbsolute path = false) (h : dotDot ∉ split slash path) :
    resolveInParts cwd directory path = resolveParts cwd directory ++
      (split slash path).filter (IsName ·) := by
  rw [resolveInParts, habsolute, if_neg Bool.false_ne_true, resolveParts, normalizeParts,
    normalizeParts, List.foldl_append, foldl_pushPart_of_no_dotDot h]

theorem relativeParts_append (source rest : List JsString) :
    relativeParts source (source ++ rest) = rest := by
  induction source with
  | nil =>
      cases rest <;> rfl
  | cons s source ih => rw [List.cons_append, relativeParts, if_pos rfl, ih]

end TestIntelligence.Files
