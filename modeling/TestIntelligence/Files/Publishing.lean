import TestIntelligence.Files.Volume

/-!
# Publishing files

A publication writes a temporary file and renames it to its target.  Where no two
publications have one temporary file open at the same time, every publication succeeds, and
who reads a target sees nothing or the whole content of a publication.
-/

namespace TestIntelligence.Files

open Systems

structure Publication (ν β ρ : Type*) where
  temporary : ν
  target : ν
  content : List β
  success : ρ
  failure : ρ

inductive Call (ν β ρ : Type*)
  | publish (p : Publication ν β ρ)
  | observe (name : ν) (answer : Option (List β) → ρ)
  | return (result : ρ)

variable {ι ν β ρ : Type*}

namespace Publication

def moving (p : Publication ν β ρ) : Program ν β ρ :=
  .rename p.temporary p.target (.done p.success) (.done p.failure)

def writing (p : Publication ν β ρ) : Program ν β ρ :=
  .writeFile p.temporary p.content p.moving

def program (p : Publication ν β ρ) : Program ν β ρ := .makeDirectory p.writing

end Publication

def Call.program : Call ν β ρ → Program ν β ρ
  | .publish p => p.program
  | .observe name answer => .readFile name fun content ↦ .done (answer content)
  | .return result => .done result

/-- The thread has opened a file that it has not renamed. -/
def Thread.IsOpen : Thread ν β ρ → Prop
  | .writing .. => True
  | .ready (.rename ..) => True
  | _ => False

/-- Where the thread of a publication may stand. -/
inductive Standing (p : Publication ν β ρ) (v : Volume ν β) : Thread ν β ρ → Prop
  | waiting : Standing p v (.ready p.program)
  | entered : Standing p v (.ready p.writing)
  | writing {inode : ℕ} {written rest : List β} (hentry : v.entries p.temporary = some inode)
      (hwritten : v.contents inode = written) (hcontent : written ++ rest = p.content) :
      Standing p v (.writing inode written.length rest p.moving)
  | written (hread : v.read p.temporary = some p.content) : Standing p v (.ready p.moving)
  | published : Standing p v (.ready (.done p.success))

/-- The thread does not open a temporary file that another publication has open. -/
def OpensAlone (calls : ι → Call ν β ρ) (s : System ι ν β ρ) (action : ι × ℕ) : Prop :=
  ∀ p q j, calls action.1 = .publish p → calls j = .publish q → j ≠ action.1 →
    q.temporary = p.temporary → s.threads action.1 = .ready p.writing → ¬(s.threads j).IsOpen

/-- Each temporary file is for one target, and no file is both. -/
structure Separate (calls : ι → Call ν β ρ) : Prop where
  target : ∀ {i j p q}, calls i = .publish p → calls j = .publish q → p.temporary ≠ q.target
  observed : ∀ {i j p name answer}, calls i = .publish p → calls j = .observe name answer →
    p.temporary ≠ name

/-- A file with the whole content of a publication that was carried out. -/
def Published (calls : ι → Call ν β ρ) (s : System ι ν β ρ) (name : ν) (content : List β) : Prop :=
  ∃ j q, calls j = .publish q ∧ s.threads j = .ready (.done q.success) ∧ q.target = name ∧
    q.content = content

/-- The answer of a reader comes from nothing or from a whole content. -/
def Answered (calls : ι → Call ν β ρ) (s : System ι ν β ρ) (name : ν)
    (answer : Option (List β) → ρ) (thread : Thread ν β ρ) : Prop :=
  thread = .ready (.done (answer none)) ∨
    ∃ content, Published calls s name content ∧ thread = .ready (.done (answer (some content)))

structure PublishingInv (calls : ι → Call ν β ρ) (s : System ι ν β ρ) : Prop where
  standing : ∀ {i p}, calls i = .publish p → Standing p s.volume (s.threads i)
  alone : ∀ {i j p q}, calls i = .publish p → calls j = .publish q →
    q.temporary = p.temporary → (s.threads i).IsOpen → (s.threads j).IsOpen → i = j
  files : ∀ {name content}, s.volume.read name = some content →
    (∃ i p, calls i = .publish p ∧ p.temporary = name ∧ (s.threads i).IsOpen) ∨
      Published calls s name content
  observing : ∀ {i name answer}, calls i = .observe name answer →
    s.threads i = .ready (Call.observe name answer).program ∨
      Answered calls s name answer (s.threads i)
  returned : ∀ {i result}, calls i = .return result → s.threads i = .ready (.done result)

theorem publishingInv_start (calls : ι → Call ν β ρ) :
    PublishingInv calls (.start fun i ↦ (calls i).program) where
  standing := by
    intro i p h
    simpa [System.start, h, Call.program] using Standing.waiting
  alone := by
    intro i j p q hi hj _ hopen _
    simp [System.start, hi, Call.program, Publication.program, Thread.IsOpen] at hopen
  files := by
    intro name content h
    cases h
  observing := by
    intro i name answer h
    simp [System.start, h]
  returned := by
    intro i result h
    simp [System.start, h, Call.program]

theorem Standing.of_not_open {p : Publication ν β ρ} {v v' : Volume ν β} {thread : Thread ν β ρ}
    (h : Standing p v thread) (hopen : ¬thread.IsOpen) : Standing p v' thread := by
  cases h with
  | waiting => exact .waiting
  | entered => exact .entered
  | writing _ _ _ => exact absurd trivial hopen
  | written _ => exact absurd trivial hopen
  | published => exact .published

/-- An operation on other files leaves a publication where it stands. -/
theorem Standing.of_same {p : Publication ν β ρ} {v v' : Volume ν β} {thread : Thread ν β ρ}
    (h : Standing p v thread) (hentry : v'.entries p.temporary = v.entries p.temporary)
    (hread : v'.read p.temporary = v.read p.temporary) : Standing p v' thread := by
  cases h with
  | waiting => exact .waiting
  | entered => exact .entered
  | published => exact .published
  | written h => exact .written (hread.trans h)
  | @writing inode written rest hin hwritten hcontent =>
      refine .writing (hentry.trans hin) ?_ hcontent
      rw [Volume.read, Volume.read, hentry, hin, Option.map_some, Option.map_some] at hread
      rw [← hwritten]
      exact Option.some.inj hread

/-- A publication does nothing to the temporary file of another one that is open. -/
theorem PublishingInv.temporary_ne {calls : ι → Call ν β ρ} {s : System ι ν β ρ}
    (h : PublishingInv calls s) {i : ι} {p : Publication ν β ρ} (hcall : calls i = .publish p) (hopen : (s.threads i).IsOpen) {j : ι} {q : Publication ν β ρ}
    (hj : calls j = .publish q) (hji : j ≠ i) (hopenj : (s.threads j).IsOpen) :
    q.temporary ≠ p.temporary :=
  fun heq ↦ hji (h.alone hcall hj heq hopen hopenj).symm

section

variable [DecidableEq ι] {calls : ι → Call ν β ρ} {s : System ι ν β ρ} {i : ι} {n : ℕ}

/-- What the step of one publication must keep to keep the invariant. -/
theorem PublishingInv.of_move (h : PublishingInv calls s) {p : Publication ν β ρ}
    (hcall : calls i = .publish p) {v : Volume ν β} {thread : Thread ν β ρ}
    (hstanding : Standing p v thread)
    (halone : thread.IsOpen → ∀ j q, calls j = .publish q → j ≠ i → q.temporary = p.temporary →
      ¬(s.threads j).IsOpen)
    (hlast : s.threads i = .ready (.done p.success) → thread = .ready (.done p.success))
    (hothers : ∀ j q, calls j = .publish q → j ≠ i → (s.threads j).IsOpen →
      v.entries q.temporary = s.volume.entries q.temporary ∧
        v.read q.temporary = s.volume.read q.temporary)
    (hfiles : ∀ name content, v.read name = some content →
      (s.volume.read name = some content ∧
          ((s.threads i).IsOpen → name = p.temporary → thread.IsOpen)) ∨
        (name = p.temporary ∧ thread.IsOpen) ∨
        (name = p.target ∧ content = p.content ∧ thread = .ready (.done p.success))) :
    PublishingInv calls ⟨v, Function.update s.threads i thread⟩ := by
  have hself : Function.update s.threads i thread i = thread := Function.update_self ..
  have hother : ∀ {j}, j ≠ i → Function.update s.threads i thread j = s.threads j :=
    fun hj ↦ Function.update_of_ne hj ..
  have hpublished : ∀ {name content}, Published calls s name content →
      Published calls ⟨v, Function.update s.threads i thread⟩ name content := by
    rintro name content ⟨j, q, hj, hthread, htarget, hcontent⟩
    refine ⟨j, q, hj, ?_, htarget, hcontent⟩
    by_cases hji : j = i
    · subst hji
      obtain rfl : p = q := by simpa [hcall] using hj
      exact hself.trans (hlast hthread)
    · exact (hother hji).trans hthread
  refine ⟨?_, ?_, ?_, ?_, ?_⟩
  · intro j q hj
    by_cases hji : j = i
    · subst hji
      obtain rfl : p = q := by simpa [hcall] using hj
      simpa [hself] using hstanding
    · have hstands := h.standing hj
      by_cases hopen : (s.threads j).IsOpen
      · obtain ⟨hentry, hread⟩ := hothers j q hj hji hopen
        simpa [hother hji] using hstands.of_same hentry hread
      · simpa [hother hji] using hstands.of_not_open hopen
  · intro j k q r hj hk htemporary hopenj hopenk
    by_cases hji : j = i <;> by_cases hki : k = i
    · rw [hji, hki]
    · subst hji
      obtain rfl : p = q := by simpa [hcall] using hj
      simp only [hself] at hopenj
      simp only [hother hki] at hopenk
      exact absurd hopenk (halone hopenj k r hk hki htemporary)
    · subst hki
      obtain rfl : p = r := by simpa [hcall] using hk
      simp only [hself] at hopenk
      simp only [hother hji] at hopenj
      exact absurd hopenj (halone hopenk j q hj hji htemporary.symm)
    · simp only [hother hji] at hopenj
      simp only [hother hki] at hopenk
      exact h.alone hj hk htemporary hopenj hopenk
  · intro name content hread
    rcases hfiles name content hread with ⟨hbefore, hname⟩ | ⟨hname, hopen⟩ | ⟨rfl, rfl, hdone⟩
    · rcases h.files hbefore with ⟨j, q, hj, htemporary, hopen⟩ | hfile
      · left
        by_cases hji : j = i
        · subst hji
          obtain rfl : p = q := by simpa [hcall] using hj
          exact ⟨j, p, hcall, htemporary, by simpa [hself] using hname hopen htemporary.symm⟩
        · exact ⟨j, q, hj, htemporary, by simpa [hother hji] using hopen⟩
      · exact .inr (hpublished hfile)
    · exact .inl ⟨i, p, hcall, hname.symm, by simpa [hself] using hopen⟩
    · exact .inr ⟨i, p, hcall, by simpa [hself] using hdone, rfl, rfl⟩
  · intro j name answer hj
    have hji : j ≠ i := by
      rintro rfl
      simp [hcall] at hj
    simp only [Answered, hother hji]
    rcases h.observing hj with hwaiting | hnone | ⟨content, hfile, hsome⟩
    · exact .inl hwaiting
    · exact .inr (.inl hnone)
    · exact .inr (.inr ⟨content, hpublished hfile, hsome⟩)
  · intro j result hj
    have hji : j ≠ i := by
      rintro rfl
      simp [hcall] at hj
    simpa [hother hji] using h.returned hj

/-- The answer of a reader concerns nobody else. -/
theorem PublishingInv.of_answer (h : PublishingInv calls s) {name : ν}
    {answer : Option (List β) → ρ} (hcall : calls i = .observe name answer)
    {thread : Thread ν β ρ} (hanswer : Answered calls s name answer thread) :
    PublishingInv calls ⟨s.volume, Function.update s.threads i thread⟩ := by
  have hother : ∀ {j p}, calls j = .publish p → Function.update s.threads i thread j = s.threads j := by
    intro j p hj
    apply Function.update_of_ne
    rintro rfl
    simp [hcall] at hj
  have hpublished : ∀ {name content}, Published calls s name content →
      Published calls ⟨s.volume, Function.update s.threads i thread⟩ name content := by
    rintro name content ⟨j, q, hj, hthread, hq⟩
    exact ⟨j, q, hj, (hother hj).trans hthread, hq⟩
  have hanswered : ∀ {name answer thread'}, Answered calls s name answer thread' →
      Answered calls ⟨s.volume, Function.update s.threads i thread⟩ name answer thread' := by
    rintro name answer thread' (hnone | ⟨content, hfile, hsome⟩)
    · exact .inl hnone
    · exact .inr ⟨content, hpublished hfile, hsome⟩
  refine ⟨?_, ?_, ?_, ?_, ?_⟩
  · intro j p hj
    simpa [hother hj] using h.standing hj
  · intro j k p q hj hk htemporary hopenj hopenk
    simp only [hother hj] at hopenj
    simp only [hother hk] at hopenk
    exact h.alone hj hk htemporary hopenj hopenk
  · intro name content hread
    rcases h.files hread with ⟨j, q, hj, htemporary, hopen⟩ | hfile
    · exact .inl ⟨j, q, hj, htemporary, by simpa [hother hj] using hopen⟩
    · exact .inr (hpublished hfile)
  · intro j name' answer' hj
    by_cases hji : j = i
    · subst hji
      obtain ⟨rfl, rfl⟩ : name = name' ∧ answer = answer' := by simpa [hcall] using hj
      exact .inr (by simpa using hanswered hanswer)
    · simp only [Function.update_of_ne hji]
      exact (h.observing hj).imp_right hanswered
  · intro j result hj
    have hji : j ≠ i := by
      rintro rfl
      simp [hcall] at hj
    simpa [Function.update_of_ne hji] using h.returned hj

variable [DecidableEq ν] [Zero β]

/-- A publication by itself. -/
theorem Publication.exec_program (p : Publication ν β ρ) (v : Volume ν β) :
    ∃ v', p.program.exec v = (v', p.success) ∧ ∀ name, v'.read name =
      if name = p.target then some p.content else if name = p.temporary then none else v.read name := by
  have hcontents := Volume.contents_create v p.temporary
  have hentry := Volume.entries_create v p.temporary
  obtain ⟨created, hcreated⟩ : ∃ created, created = v.create p.temporary := ⟨_, rfl⟩
  rw [← hcreated] at hcontents hentry
  have hwrite : created.1.write created.2 0 p.content = created.1.fill created.2 p.content := by
    have hend := Volume.overlay_end (created.1.contents created.2) p.content
    rw [hcontents, List.length_nil, List.nil_append] at hend
    rw [Volume.write, hcontents, hend]
  have hfilled : (created.1.fill created.2 p.content).entries p.temporary = some created.2 := hentry
  refine ⟨(created.1.fill created.2 p.content).move p.temporary p.target created.2 hfilled, ?_, ?_⟩
  · simp only [Publication.program, Publication.writing, Publication.moving, Program.exec]
    rw [← hcreated, hwrite, Volume.rename_of_some hfilled]
  · intro name
    rw [Volume.read_move, Volume.read_fill hentry]
    split
    · rfl
    · split
      · rfl
      · next hname =>
          rw [Volume.read_fill_of_ne (fun heq ↦ hname (created.1.single heq hentry)), hcreated,
            Volume.read_create_of_ne v hname]

theorem PublishingInv.create (h : PublishingInv calls s) {p : Publication ν β ρ}
    (hcall : calls i = .publish p) (hthread : s.threads i = .ready p.writing)
    (halone : OpensAlone calls s (i, n)) : PublishingInv calls (s.step (i, n)) := by
  have hstep : s.step (i, n) = ⟨(s.volume.create p.temporary).1, Function.update s.threads i
      (.writing (s.volume.create p.temporary).2 0 p.content p.moving)⟩ := by
    simp [System.step, hthread, Publication.writing, Thread.step]
  have hnone : ∀ j q, calls j = .publish q → j ≠ i → q.temporary = p.temporary →
      ¬(s.threads j).IsOpen := fun j q hj hji htemporary ↦ halone p q j hcall hj hji htemporary hthread
  rw [hstep]
  apply h.of_move hcall
  · exact @Standing.writing _ _ _ p _ _ [] p.content (Volume.entries_create _ _)
      (Volume.contents_create _ _) rfl
  · exact fun _ ↦ hnone
  · intro hdone
    simp [hthread, Publication.writing] at hdone
  · intro j q hj hji hopen
    have hne : q.temporary ≠ p.temporary := fun heq ↦ hnone j q hj hji heq hopen
    exact ⟨Volume.entries_create_of_ne _ hne, Volume.read_create_of_ne _ hne⟩
  · intro name content hread
    by_cases hname : name = p.temporary
    · exact .inr (.inl ⟨hname, trivial⟩)
    · rw [Volume.read_create_of_ne _ hname] at hread
      exact .inl ⟨hread, fun _ heq ↦ absurd heq hname⟩

theorem PublishingInv.write (h : PublishingInv calls s) {p : Publication ν β ρ}
    (hcall : calls i = .publish p) {inode : ℕ} {written rest : List β} {b : β}
    (hthread : s.threads i = .writing inode written.length (b :: rest) p.moving)
    (hentry : s.volume.entries p.temporary = some inode)
    (hwritten : s.volume.contents inode = written)
    (hcontent : written ++ b :: rest = p.content) : PublishingInv calls (s.step (i, n)) := by
  have hopen : (s.threads i).IsOpen := by
    rw [hthread]
    trivial
  have hwrite : s.volume.write inode written.length ((b :: rest).take (n + 1)) =
      s.volume.fill inode (written ++ (b :: rest).take (n + 1)) := by
    rw [Volume.write, hwritten, Volume.overlay_end]
  have hstep : s.step (i, n) = ⟨s.volume.fill inode (written ++ (b :: rest).take (n + 1)),
      Function.update s.threads i (.writing inode (written ++ (b :: rest).take (n + 1)).length
        ((b :: rest).drop (n + 1)) p.moving)⟩ := by
    rw [System.step, hthread, Thread.step, hwrite, List.length_append]
  have hsame : ∀ name, name ≠ p.temporary →
      (s.volume.fill inode (written ++ (b :: rest).take (n + 1))).read name =
        s.volume.read name :=
    fun name hname ↦ Volume.read_fill_of_ne (fun heq ↦ hname (s.volume.single heq hentry)) _
  rw [hstep]
  apply h.of_move hcall
  · refine .writing hentry (Function.update_self ..) ?_
    rw [List.append_assoc, List.take_append_drop, hcontent]
  · intro _ j q hj hji htemporary hopenj
    exact h.temporary_ne hcall hopen hj hji hopenj htemporary
  · intro hdone
    simp [hthread] at hdone
  · intro j q hj hji hopenj
    exact ⟨rfl, hsame _ (h.temporary_ne hcall hopen hj hji hopenj)⟩
  · intro name content hread
    by_cases hname : name = p.temporary
    · exact .inr (.inl ⟨hname, trivial⟩)
    · rw [hsame name hname] at hread
      exact .inl ⟨hread, fun _ heq ↦ absurd heq hname⟩

theorem PublishingInv.close (h : PublishingInv calls s) {p : Publication ν β ρ}
    (hcall : calls i = .publish p) {inode : ℕ} {written : List β}
    (hthread : s.threads i = .writing inode written.length [] p.moving)
    (hread : s.volume.read p.temporary = some p.content) :
    PublishingInv calls (s.step (i, n)) := by
  have hopen : (s.threads i).IsOpen := by
    rw [hthread]
    trivial
  have hstep : s.step (i, n) = ⟨s.volume, Function.update s.threads i (.ready p.moving)⟩ := by
    rw [System.step, hthread, Thread.step]
  rw [hstep]
  apply h.of_move hcall (.written hread)
  · intro _ j q hj hji htemporary hopenj
    exact h.temporary_ne hcall hopen hj hji hopenj htemporary
  · intro hdone
    simp [hthread] at hdone
  · exact fun _ _ _ _ _ ↦ ⟨rfl, rfl⟩
  · exact fun name content hfile ↦ .inl ⟨hfile, fun _ _ ↦ trivial⟩

theorem PublishingInv.publish (h : PublishingInv calls s) (hseparate : Separate calls)
    {p : Publication ν β ρ} (hcall : calls i = .publish p)
    (hthread : s.threads i = .ready p.moving)
    (hread : s.volume.read p.temporary = some p.content) :
    PublishingInv calls (s.step (i, n)) := by
  have hopen : (s.threads i).IsOpen := by
    rw [hthread]
    trivial
  obtain ⟨inode, hentry, -⟩ := Option.map_eq_some_iff.mp hread
  have hstep : s.step (i, n) = ⟨s.volume.move p.temporary p.target inode hentry,
      Function.update s.threads i (.ready (.done p.success))⟩ := by
    rw [System.step, hthread, Publication.moving, Thread.step, Volume.rename_of_some hentry]
  rw [hstep]
  apply h.of_move hcall .published
  · exact False.elim
  · exact fun _ ↦ rfl
  · intro j q hj hji hopenj
    have htemporary := h.temporary_ne hcall hopen hj hji hopenj
    have htarget : q.temporary ≠ p.target := hseparate.target hj hcall
    rw [Volume.entries_move, Volume.read_move, if_neg htarget, if_neg htemporary, if_neg htarget,
      if_neg htemporary]
    exact ⟨rfl, rfl⟩
  · intro name content hfile
    rw [Volume.read_move] at hfile
    split at hfile
    · next htarget =>
        rw [hread] at hfile
        exact .inr (.inr ⟨htarget, (Option.some.inj hfile).symm, rfl⟩)
    · split at hfile
      · cases hfile
      · next hname => exact .inl ⟨hfile, fun _ heq ↦ absurd heq hname⟩

theorem PublishingInv.enter (h : PublishingInv calls s) {p : Publication ν β ρ}
    (hcall : calls i = .publish p) (hthread : s.threads i = .ready p.program) :
    PublishingInv calls (s.step (i, n)) := by
  have hstep : s.step (i, n) = ⟨s.volume, Function.update s.threads i (.ready p.writing)⟩ := by
    rw [System.step, hthread, Publication.program, Thread.step]
  rw [hstep]
  apply h.of_move hcall .entered
  · exact False.elim
  · intro hdone
    simp [hthread, Publication.program] at hdone
  · exact fun _ _ _ _ _ ↦ ⟨rfl, rfl⟩
  · intro name content hfile
    refine .inl ⟨hfile, fun hopen ↦ ?_⟩
    rw [hthread] at hopen
    exact hopen.elim

theorem step_done {result : ρ} (h : s.threads i = .ready (.done result)) : s.step (i, n) = s := by
  rw [System.step, h, Thread.step, ← h, Function.update_eq_self]

/-- The step of any call keeps the invariant. -/
theorem PublishingInv.step (h : PublishingInv calls s) (hseparate : Separate calls)
    (halone : OpensAlone calls s (i, n)) : PublishingInv calls (s.step (i, n)) := by
  cases hcall : calls i with
  | publish p =>
      have hstanding := h.standing hcall
      generalize hthread : s.threads i = thread at hstanding
      cases hstanding with
      | waiting => exact h.enter hcall hthread
      | entered => exact h.create hcall hthread halone
      | @writing inode written rest hentry hwritten hcontent =>
          cases rest with
          | cons b rest => exact h.write hcall hthread hentry hwritten hcontent
          | nil =>
              refine h.close hcall hthread ?_
              rw [Volume.read, hentry, Option.map_some, hwritten, ← hcontent, List.append_nil]
      | written hread => exact h.publish hseparate hcall hthread hread
      | published => rwa [step_done hthread]
  | observe name answer =>
      rcases h.observing hcall with hwaiting | hnone | ⟨content, hfile, hsome⟩
      · have hstep : s.step (i, n) = ⟨s.volume,
            Function.update s.threads i (.ready (.done (answer (s.volume.read name))))⟩ := by
          rw [System.step, hwaiting, Call.program, Thread.step]
        rw [hstep]
        apply h.of_answer hcall
        cases hread : s.volume.read name with
        | none => exact .inl rfl
        | some content =>
            rcases h.files hread with ⟨j, q, hj, htemporary, -⟩ | hfile
            · exact absurd htemporary (hseparate.observed hj hcall)
            · exact .inr ⟨content, hfile, rfl⟩
      · rwa [step_done hnone]
      · rwa [step_done hsome]
  | «return» result => rwa [step_done (h.returned hcall)]

/-- What every run gives in which temporary files are opened alone. -/
theorem always_publishingInv (hseparate : Separate calls) {actions : List (ι × ℕ)}
    (hmeets : MeetsAlong System.step (OpensAlone calls) (.start fun i ↦ (calls i).program) actions) :
    Always System.step (PublishingInv calls) (.start fun i ↦ (calls i).program) actions := by
  apply @always_of_meetsAlong _ _ _ _ _ (fun _ ↦ True) _ _ (publishingInv_start calls) actions
    (fun _ _ ↦ trivial) hmeets
  rintro s ⟨i, n⟩ - halone h
  exact h.step hseparate halone

/-! ## Progress -/

/-- The most steps that the thread of a publication still takes. -/
def stepsLeft : Thread ν β ρ → ℕ
  | .ready (.makeDirectory (.writeFile _ content _)) => content.length + 4
  | .ready (.writeFile _ content _) => content.length + 3
  | .writing _ _ rest _ => rest.length + 2
  | .ready (.rename ..) => 1
  | _ => 0

theorem Standing.stepsLeft_step {p : Publication ν β ρ} {v : Volume ν β} {thread : Thread ν β ρ}
    (h : Standing p v thread) (n : ℕ) : stepsLeft (thread.step v n).2 ≤ stepsLeft thread - 1 := by
  cases h with
  | waiting => exact Nat.le_refl _
  | entered => exact Nat.le_refl _
  | published => exact Nat.le_refl _
  | @writing inode written rest _ _ _ =>
      cases rest with
      | nil => exact Nat.le_refl _
      | cons b rest =>
          simp only [Thread.step, stepsLeft, List.drop_succ_cons, List.length_drop,
            List.length_cons]
          omega
  | written hread =>
      simp only [Publication.moving, Thread.step]
      split <;> exact Nat.zero_le _

/-- A publication gets through in as many steps as its thread has left. -/
theorem stepsLeft_run (hseparate : Separate calls) {p : Publication ν β ρ}
    (hcall : calls i = .publish p) {actions : List (ι × ℕ)} (h : PublishingInv calls s)
    (hmeets : MeetsAlong System.step (OpensAlone calls) s actions) :
    stepsLeft ((run System.step s actions).threads i) ≤
      stepsLeft (s.threads i) - actions.countP (·.1 = i) := by
  induction actions generalizing s with
  | nil => exact Nat.le_refl _
  | cons action actions ih =>
      obtain ⟨j, n⟩ := action
      have htail := ih (h.step hseparate hmeets.1) hmeets.2
      rw [run_cons]
      by_cases hji : j = i
      · subst hji
        have hstep := (h.standing hcall).stepsLeft_step n
        rw [← System.threads_step_self] at hstep
        rw [List.countP_cons_of_pos (by simp)]
        omega
      · rw [System.threads_step_of_ne s (Ne.symm hji)] at htail
        rwa [List.countP_cons_of_neg (by simpa using hji)]

omit [DecidableEq ν] [Zero β] in
theorem Standing.published_of_stepsLeft {p : Publication ν β ρ} {v : Volume ν β}
    {thread : Thread ν β ρ} (h : Standing p v thread) (hleft : stepsLeft thread = 0) :
    thread = .ready (.done p.success) := by
  cases h with
  | published => rfl
  | _ => simp [stepsLeft, Publication.program, Publication.writing, Publication.moving] at hleft

/-! ## Two publications at once -/

/-- A publication up to its `rename`, with the content in one chunk. -/
def writeAll (i : ι) (p : Publication ν β ρ) : List (ι × ℕ) :=
  [(i, 0), (i, 0), (i, p.content.length), (i, 0)]

theorem run_writeAll {p : Publication ν β ρ} (hthread : s.threads i = .ready p.program)
    (hcontent : p.content ≠ []) :
    (run System.step s (writeAll i p)).threads = Function.update s.threads i (.ready p.moving) := by
  obtain ⟨temporary, target, content, success, failure⟩ := p
  obtain ⟨b, rest, rfl⟩ := List.exists_cons_of_ne_nil hcontent
  have hdrop : rest.drop (rest.length + 1) = [] := List.drop_eq_nil_of_le (by omega)
  simp [writeAll, System.step, hthread, Publication.program, Publication.writing, Thread.step,
    hdrop]

theorem entries_run_writeAll {p : Publication ν β ρ} (hthread : s.threads i = .ready p.program)
    (hcontent : p.content ≠ []) :
    (run System.step s (writeAll i p)).volume.entries p.temporary ≠ none := by
  obtain ⟨temporary, target, content, success, failure⟩ := p
  obtain ⟨b, rest, rfl⟩ := List.exists_cons_of_ne_nil hcontent
  have hdrop : rest.drop (rest.length + 1) = [] := List.drop_eq_nil_of_le (by omega)
  simp [writeAll, System.step, hthread, Publication.program, Publication.writing, Thread.step,
    hdrop, Volume.write, Volume.fill, Volume.entries_create]

/-- Of two publications that wrote one temporary file, the second to rename it fails. -/
theorem second_rename_fails {p q : Publication ν β ρ} {j : ι} (hij : i ≠ j)
    (hi : s.threads i = .ready p.moving) (hj : s.threads j = .ready q.moving)
    (htemporary : q.temporary = p.temporary) (hseparate : p.temporary ≠ p.target)
    (hentry : s.volume.entries p.temporary ≠ none) :
    (run System.step s [(i, 0), (j, 0)]).threads j = .ready (.done q.failure) := by
  obtain ⟨inode, hinode⟩ := Option.ne_none_iff_exists'.mp hentry
  have hnone : (s.volume.move p.temporary p.target inode hinode).rename q.temporary q.target = none := by
    rw [Volume.rename_eq_none, Volume.entries_move, htemporary, if_neg hseparate, if_pos rfl]
  simp [System.step, hi, hj, Publication.moving, Thread.step, Volume.rename_of_some hinode,
    Function.update_of_ne hij.symm, hnone]

/-- Two publications over one temporary file that both write before they rename. -/
theorem overlap_fails {p q : Publication ν β ρ} {j : ι} (hi : calls i = .publish p)
    (hj : calls j = .publish q) (hij : i ≠ j) (htemporary : q.temporary = p.temporary)
    (hseparate : p.temporary ≠ p.target) (hp : p.content ≠ []) (hq : q.content ≠ []) :
    (run System.step (.start fun i ↦ (calls i).program)
      (writeAll i p ++ (writeAll j q ++ [(i, 0), (j, 0)]))).threads j = .ready (.done q.failure) := by
  have hfirst : (System.start fun i ↦ (calls i).program).threads i = .ready p.program := by
    simp [System.start, hi, Call.program]
  have hsecond : (run System.step (.start fun i ↦ (calls i).program) (writeAll i p)).threads j =
      .ready q.program := by
    rw [run_writeAll hfirst hp, Function.update_of_ne hij.symm]
    simp [System.start, hj, Call.program]
  rw [run_append, run_append]
  apply second_rename_fails hij _ _ htemporary hseparate
  · rw [← htemporary]
    exact entries_run_writeAll hsecond hq
  · rw [run_writeAll hsecond hq, Function.update_of_ne hij, run_writeAll hfirst hp,
      Function.update_self]
  · rw [run_writeAll hsecond hq, Function.update_self]

end

end TestIntelligence.Files
