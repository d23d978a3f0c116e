import Mathlib.Data.List.Basic
import Mathlib.Logic.Function.Basic
import Mathlib.Logic.Function.Iterate
import Mathlib.Tactic.Common
import TestIntelligence.Systems.Runs

/-!
# Volumes

The entries of a directory name inodes.  An open file writes to its inode, whatever becomes
of the name it was opened under.
-/

namespace TestIntelligence.Files

structure Volume (ν β : Type*) where
  entries : ν → Option ℕ
  contents : ℕ → List β
  next : ℕ
  used : ∀ {name inode}, entries name = some inode → inode < next
  single : ∀ {name name' inode}, entries name = some inode → entries name' = some inode →
    name = name'

namespace Volume

variable {ν β : Type*}

def blank : Volume ν β where
  entries := fun _ ↦ none
  contents := fun _ ↦ []
  next := 0
  used := by simp
  single := by simp

def read (v : Volume ν β) (name : ν) : Option (List β) := (v.entries name).map v.contents

def fill (v : Volume ν β) (inode : ℕ) (content : List β) : Volume ν β :=
  { v with contents := Function.update v.contents inode content }

/-- The bytes of a file after a write at an offset; a gap is filled with zeros. -/
def overlay [Zero β] (old : List β) (offset : ℕ) (chunk : List β) : List β :=
  old.take offset ++ List.replicate (offset - old.length) 0 ++ chunk ++ old.drop (offset + chunk.length)

def write [Zero β] (v : Volume ν β) (inode offset : ℕ) (chunk : List β) : Volume ν β :=
  v.fill inode (overlay (v.contents inode) offset chunk)

theorem read_fill {v : Volume ν β} {name : ν} {inode : ℕ} (h : v.entries name = some inode)
    (content : List β) : (v.fill inode content).read name = some content := by
  simp [read, fill, h]

theorem read_fill_of_ne {v : Volume ν β} {name : ν} {inode : ℕ} (h : v.entries name ≠ some inode)
    (content : List β) : (v.fill inode content).read name = v.read name := by
  rw [read, read, fill]
  cases hname : v.entries name with
  | none => simp
  | some i =>
      have hi : i ≠ inode := fun heq ↦ h (by rw [hname, heq])
      simp [Function.update_of_ne hi]

variable [DecidableEq ν]

def link (v : Volume ν β) (name : ν) : Volume ν β where
  entries := Function.update v.entries name (some v.next)
  contents := Function.update v.contents v.next []
  next := v.next + 1
  used := by
    intro other inode h
    by_cases hname : other = name
    · rw [hname, Function.update_self] at h
      injection h with h
      omega
    · rw [Function.update_of_ne hname] at h
      have hused := v.used h
      omega
  single := by
    intro first second inode h h'
    by_cases hfirst : first = name <;> by_cases hsecond : second = name
    · rw [hfirst, hsecond]
    · rw [hfirst, Function.update_self] at h
      rw [Function.update_of_ne hsecond] at h'
      have hused := v.used h'
      injection h with h
      omega
    · rw [Function.update_of_ne hfirst] at h
      rw [hsecond, Function.update_self] at h'
      have hused := v.used h
      injection h' with h'
      omega
    · rw [Function.update_of_ne hfirst] at h
      rw [Function.update_of_ne hsecond] at h'
      exact v.single h h'

/-- `open` with `O_CREAT | O_TRUNC`, and the inode of the open file. -/
def create (v : Volume ν β) (name : ν) : Volume ν β × ℕ :=
  match v.entries name with
  | some inode => (v.fill inode [], inode)
  | none => (v.link name, v.next)

def move (v : Volume ν β) (source target : ν) (inode : ℕ) (h : v.entries source = some inode) :
    Volume ν β :=
  { v with
    entries := Function.update (Function.update v.entries source none) target (some inode)
    used := by
      intro name i hname
      by_cases htarget : name = target
      · rw [htarget, Function.update_self] at hname
        exact v.used (h.trans hname)
      · rw [Function.update_of_ne htarget] at hname
        by_cases hsource : name = source
        · simp [hsource] at hname
        · rw [Function.update_of_ne hsource] at hname
          exact v.used hname
    single := by
      have hother : ∀ name i, name ≠ target →
          Function.update (Function.update v.entries source none) target (some inode) name =
            some i → v.entries name = some i ∧ name ≠ source := by
        intro name i htarget hname
        rw [Function.update_of_ne htarget] at hname
        by_cases hsource : name = source
        · simp [hsource] at hname
        · rw [Function.update_of_ne hsource] at hname
          exact ⟨hname, hsource⟩
      intro first second i hfirst hsecond
      by_cases hft : first = target <;> by_cases hst : second = target
      · rw [hft, hst]
      · obtain ⟨hentry, hne⟩ := hother second i hst hsecond
        rw [hft, Function.update_self] at hfirst
        exact absurd (v.single hentry (h.trans hfirst)) hne
      · obtain ⟨hentry, hne⟩ := hother first i hft hfirst
        rw [hst, Function.update_self] at hsecond
        exact absurd (v.single hentry (h.trans hsecond)) hne
      · exact v.single (hother first i hft hfirst).1 (hother second i hst hsecond).1 }

/-- `rename`, or `none` where there is no source. -/
def rename (v : Volume ν β) (source target : ν) : Option (Volume ν β) :=
  match h : v.entries source with
  | some inode => some (v.move source target inode h)
  | none => none

/-! ## What the operations leave -/

theorem overlay_end [Zero β] (old chunk : List β) : overlay old old.length chunk = old ++ chunk := by
  simp [overlay]

theorem entries_create (v : Volume ν β) (name : ν) :
    (v.create name).1.entries name = some (v.create name).2 := by
  rw [create]
  split
  · next inode h => exact h
  · exact Function.update_self ..

theorem entries_create_of_ne (v : Volume ν β) {name other : ν} (h : other ≠ name) :
    (v.create name).1.entries other = v.entries other := by
  rw [create]
  split
  · rfl
  · exact Function.update_of_ne h ..

theorem contents_create (v : Volume ν β) (name : ν) :
    (v.create name).1.contents (v.create name).2 = [] := by
  rw [create]
  split <;> exact Function.update_self ..

/-- Creating a file under one name leaves the files under the other names alone. -/
theorem read_create_of_ne (v : Volume ν β) {name other : ν} (h : other ≠ name) :
    (v.create name).1.read other = v.read other := by
  have hentry := entries_create_of_ne v h
  rw [read, read, hentry]
  cases hother : v.entries other with
  | none => rfl
  | some i =>
      have hi : i ≠ (v.create name).2 := by
        rintro rfl
        exact h ((v.create name).1.single (hentry.trans hother) (entries_create v name))
      rw [Option.map_some, Option.map_some]
      rw [create] at hi ⊢
      split
      · next inode hname =>
          simp only [hname] at hi
          simp [fill, Function.update_of_ne hi]
      · next hname =>
          simp only [hname] at hi
          simp [link, Function.update_of_ne hi]

theorem rename_eq_none {v : Volume ν β} {source target : ν} :
    v.rename source target = none ↔ v.entries source = none := by
  rw [rename]
  split <;> simp_all

theorem rename_of_some {v : Volume ν β} {source target : ν} {inode : ℕ}
    (h : v.entries source = some inode) :
    v.rename source target = some (v.move source target inode h) := by
  rw [rename]
  split
  · next i hi =>
      obtain rfl : inode = i := Option.some.inj (h.symm.trans hi)
      rfl
  · next hnone => simp [h] at hnone

theorem entries_move {v : Volume ν β} {source target : ν} {inode : ℕ}
    (h : v.entries source = some inode) (name : ν) :
    (v.move source target inode h).entries name =
      if name = target then some inode else if name = source then none else v.entries name := by
  simp only [move, Function.update_apply]

theorem read_move {v : Volume ν β} {source target : ν} {inode : ℕ}
    (h : v.entries source = some inode) (name : ν) :
    (v.move source target inode h).read name =
      if name = target then v.read source else if name = source then none else v.read name := by
  rw [read, entries_move, read, h]
  split
  · rfl
  · split <;> rfl

end Volume

end TestIntelligence.Files

/-!
## File programs

A program performs file operations and returns a result.  It runs by itself, or as one of
several threads on a volume whose operations interleave; there a file is written chunk by
chunk.
-/

namespace TestIntelligence.Files

inductive Program (ν β ρ : Type*)
  | done (result : ρ)
  | makeDirectory (next : Program ν β ρ)
  | writeFile (name : ν) (content : List β) (next : Program ν β ρ)
  | rename (source target : ν) (next missing : Program ν β ρ)
  | readFile (name : ν) (next : Option (List β) → Program ν β ρ)

inductive Thread (ν β ρ : Type*)
  | ready (program : Program ν β ρ)
  | writing (inode offset : ℕ) (rest : List β) (next : Program ν β ρ)

structure System (ι ν β ρ : Type*) where
  volume : Volume ν β
  threads : ι → Thread ν β ρ

variable {ι ν β ρ : Type*} [DecidableEq ν] [Zero β]

/-- The program without any interruption. -/
def Program.exec : Program ν β ρ → Volume ν β → Volume ν β × ρ
  | .done result, v => (v, result)
  | .makeDirectory next, v => next.exec v
  | .writeFile name content next, v =>
      let created := v.create name
      next.exec (created.1.write created.2 0 content)
  | .rename source target next missing, v =>
      match v.rename source target with
      | some v => next.exec v
      | none => missing.exec v
  | .readFile name next, v => (next (v.read name)).exec v

/-- The next operation of a thread; a write takes at most `n + 1` bytes. -/
def Thread.step (v : Volume ν β) (n : ℕ) : Thread ν β ρ → Volume ν β × Thread ν β ρ
  | .ready (.done result) => (v, .ready (.done result))
  | .ready (.makeDirectory next) => (v, .ready next)
  | .ready (.writeFile name content next) =>
      ((v.create name).1, .writing (v.create name).2 0 content next)
  | .ready (.rename source target next missing) =>
      match v.rename source target with
      | some v => (v, .ready next)
      | none => (v, .ready missing)
  | .ready (.readFile name next) => (v, .ready (next (v.read name)))
  | .writing _ _ [] next => (v, .ready next)
  | .writing inode offset (b :: rest) next =>
      let chunk := (b :: rest).take (n + 1)
      (v.write inode offset chunk,
        .writing inode (offset + chunk.length) ((b :: rest).drop (n + 1)) next)

namespace System

variable [DecidableEq ι]

def step (s : System ι ν β ρ) (action : ι × ℕ) : System ι ν β ρ :=
  let moved := (s.threads action.1).step s.volume action.2
  { volume := moved.1
    threads := Function.update s.threads action.1 moved.2 }

def start (programs : ι → Program ν β ρ) : System ι ν β ρ where
  volume := .blank
  threads := fun i ↦ .ready (programs i)

theorem threads_step_self (s : System ι ν β ρ) (i : ι) (n : ℕ) :
    (s.step (i, n)).threads i = ((s.threads i).step s.volume n).2 := by
  simp [step]

theorem threads_step_of_ne (s : System ι ν β ρ) {i j : ι} (h : j ≠ i) (n : ℕ) :
    (s.step (i, n)).threads j = s.threads j := by
  simp [step, Function.update_of_ne h]

end System

end TestIntelligence.Files
