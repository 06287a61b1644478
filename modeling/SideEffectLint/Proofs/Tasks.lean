import Mathlib.Data.List.Forall2
import Mathlib.Logic.Relation
import SideEffectLint.Files.Scan
import SideEffectLint.Proofs.Isolation
import SideEffectLint.Report.Text

/-! Files are linted by one task each, in two steps that those of other tasks may come between. The
report of a scan does not tell in which order the tasks went on, and what it counts agrees with what
it lists. -/

namespace SideEffectLint

/-- What is told of a file, by its name and what reading it gives. Functions that are skipped are
part of a report, and keep no file from having one. -/
inductive FileOutcome (file : SystemText) :
    Except FileFault String → FileReport ⊕ FileFailure → Prop where
  | linted {text : String} {m : Module} (hm : (SourceText.ofString text).parse file.shown = .ok m) :
      FileOutcome file (.ok text)
        (.inl (m.report file.shown .arrayMutators (SourceText.ofString text).lines))
  | malformed {text : String} {fault : SourceFault}
      (hf : (SourceText.ofString text).parse file.shown = .error fault) :
      FileOutcome file (.ok text) (.inr ⟨file.shown, (ScanFault.source fault).message⟩)
  | unreadable {fault : FileFault} :
      FileOutcome file (.error fault) (.inr ⟨file.shown, (ScanFault.unreadable file fault).message⟩)

private theorem outcomeOf_ok (file : SystemText) (text : String) :
    outcomeOf file (.ok text) =
      match (SourceText.ofString text).parse file.shown with
      | .ok m => .inl (m.report file.shown .arrayMutators (SourceText.ofString text).lines)
      | .error fault => .inr ⟨file.shown, (ScanFault.source fault).message⟩ := by
  simp only [outcomeOf, Except.mapError, bind, Except.bind, SourceText.analyze]
  cases (SourceText.ofString text).parse file.shown <;> rfl

/-- Every file has one outcome, and it is the one that linting it gives. -/
theorem fileOutcome_iff {file : SystemText} {text : Except FileFault String}
    {outcome : FileReport ⊕ FileFailure} :
    FileOutcome file text outcome ↔ outcome = outcomeOf file text := by
  cases text with
  | error fault =>
    constructor
    · rintro ⟨⟩
      rfl
    · rintro rfl
      exact .unreadable
  | ok text =>
    rw [outcomeOf_ok]
    constructor
    · intro h
      cases h with
      | linted hm => rw [hm]
      | malformed hf => rw [hf]
    · rintro rfl
      cases h : (SourceText.ofString text).parse file.shown with
      | ok m => exact .linted h
      | error fault => exact .malformed h

/-- How far the task of a file has come. -/
inductive Phase where
  | waiting
  | loaded (text : Except FileFault String)
  | finished (outcome : FileReport ⊕ FileFailure)

structure FileTask where
  file : SystemText
  phase : Phase

namespace FileTask

def outcome? (t : FileTask) : Option (FileReport ⊕ FileFailure) :=
  match t.phase with
  | .finished outcome => some outcome
  | _ => none

/-- The number of steps that are left. -/
def stepsLeft (t : FileTask) : Nat :=
  match t.phase with
  | .waiting => 2
  | .loaded _ => 1
  | .finished _ => 0

/-- What the task holds comes from its own file. -/
def IsSound (outcome : SystemText → Except FileFault String → FileReport ⊕ FileFailure)
    (fs : FileSystem) (t : FileTask) : Prop :=
  match t.phase with
  | .waiting => True
  | .loaded text => text = fs.readText t.file
  | .finished o => o = outcome t.file (fs.readText t.file)

end FileTask

/-- The tasks in the order of their files, and the files that are done in the order in which that
was told. -/
structure ScanState where
  tasks : List FileTask
  visited : List SystemText

namespace ScanState

def start (files : List SystemText) : ScanState :=
  ⟨files.map (⟨·, .waiting⟩), []⟩

/-- All tasks are done. -/
def IsFinal (s : ScanState) : Prop :=
  ∀ t ∈ s.tasks, t.outcome?.isSome

/-- The outcomes, each at the place of its file. -/
def report (s : ScanState) : ScanReport :=
  let outcomes := s.tasks.filterMap FileTask.outcome?
  ⟨outcomes.filterMap Sum.getLeft?, outcomes.filterMap Sum.getRight?⟩

section

-- Linting a file of which reading has given a text.
variable (outcome : SystemText → Except FileFault String → FileReport ⊕ FileFailure)
  (fs : FileSystem)

/-- One task reads its file, or lints what it has read and tells that its file is done. -/
inductive Step : ScanState → ScanState → Prop where
  | load (before after : List FileTask) (file : SystemText) (visited : List SystemText) :
      Step ⟨before ++ ⟨file, .waiting⟩ :: after, visited⟩
        ⟨before ++ ⟨file, .loaded (fs.readText file)⟩ :: after, visited⟩
  | finish (before after : List FileTask) (file : SystemText) (visited : List SystemText)
      (text : Except FileFault String) :
      Step ⟨before ++ ⟨file, .loaded text⟩ :: after, visited⟩
        ⟨before ++ ⟨file, .finished (outcome file text)⟩ :: after, visited ++ [file]⟩

/-- Steps of any tasks in any order. -/
def Run : ScanState → ScanState → Prop :=
  Relation.ReflTransGen (Step outcome fs)

/-- What holds on the way: there is one task for each file, and the files that were told of are
those of the finished tasks. -/
structure Invariant (files : List SystemText) (s : ScanState) : Prop where
  files_eq : s.tasks.map FileTask.file = files
  sound : ∀ t ∈ s.tasks, t.IsSound outcome fs
  visited_perm :
    s.visited.Perm ((s.tasks.filter fun t => t.outcome?.isSome).map FileTask.file)

end

variable {outcome : SystemText → Except FileFault String → FileReport ⊕ FileFailure}
  {fs : FileSystem} {files : List SystemText} {s s' : ScanState}

private theorem invariant_start (files : List SystemText) : Invariant outcome fs files (start files) where
  files_eq := by
    rw [start, List.map_map]
    exact List.map_id files
  sound t ht := by
    obtain ⟨file, _, rfl⟩ := List.mem_map.mp ht
    trivial
  visited_perm := by
    have h : (files.map fun file => FileTask.mk file .waiting).filter
        (fun t => t.outcome?.isSome) = [] := by
      rw [List.filter_eq_nil_iff]
      intro t ht
      obtain ⟨file, _, rfl⟩ := List.mem_map.mp ht
      exact Bool.false_ne_true
    rw [start, h]
    exact .nil

private theorem sound_of_step {before after : List FileTask} {t t' : FileTask}
    (hs : ∀ x ∈ before ++ t :: after, x.IsSound outcome fs)
    (ht : t.IsSound outcome fs → t'.IsSound outcome fs) :
    ∀ x ∈ before ++ t' :: after, x.IsSound outcome fs := by
  rw [List.forall_mem_append, List.forall_mem_cons] at hs ⊢
  exact ⟨hs.1, ht hs.2.1, hs.2.2⟩

theorem Invariant.step (hi : Invariant outcome fs files s) (h : Step outcome fs s s') :
    Invariant outcome fs files s' := by
  obtain ⟨hf, hs, hv⟩ := hi
  cases h with
  | load before after file visited =>
    refine ⟨?_, sound_of_step hs fun _ => rfl, ?_⟩
    · simpa using hf
    · simpa [FileTask.outcome?] using hv
  | finish before after file visited text =>
    refine ⟨?_, sound_of_step hs fun h => congrArg (outcome file) h, ?_⟩
    · simpa using hf
    · simp only [FileTask.outcome?, List.filter_append, List.filter_cons, List.map_append,
        Option.isSome_none, Option.isSome_some, Bool.false_eq_true, if_false, if_true,
        List.map_cons] at hv ⊢
      exact (List.perm_append_comm.trans (hv.cons file)).trans List.perm_middle.symm

theorem Invariant.run (hi : Invariant outcome fs files s) (h : Run outcome fs s s') :
    Invariant outcome fs files s' := by
  induction h with
  | refl => exact hi
  | tail _ hstep ih => exact ih.step hstep

/-- As long as a task is not done, there is a step to make. -/
theorem isFinal_or_exists_step (s : ScanState) :
    s.IsFinal ∨ ∃ s', Step outcome fs s s' := by
  by_cases h : s.IsFinal
  · exact Or.inl h
  · right
    obtain ⟨t, ht, hn⟩ := not_forall₂.mp h
    obtain ⟨tasks, visited⟩ := s
    obtain ⟨before, after, rfl⟩ := List.append_of_mem ht
    obtain ⟨file, phase⟩ := t
    cases phase with
    | waiting => exact ⟨_, .load before after file visited⟩
    | loaded text => exact ⟨_, .finish before after file visited text⟩
    | finished outcome => exact absurd rfl hn

def stepsLeft (s : ScanState) : Nat :=
  s.tasks.foldr (fun t n => t.stepsLeft + n) 0

private theorem foldr_stepsLeft_append (before after : List FileTask) :
    (before ++ after).foldr (fun t n => t.stepsLeft + n) 0 =
      before.foldr (fun t n => t.stepsLeft + n) 0 + after.foldr (fun t n => t.stepsLeft + n) 0 := by
  induction before with
  | nil => exact (Nat.zero_add _).symm
  | cons t before ih => rw [List.cons_append, List.foldr_cons, List.foldr_cons, ih, Nat.add_assoc]

private theorem stepsLeft_of_step (h : Step outcome fs s s') : s'.stepsLeft < s.stepsLeft := by
  cases h
  all_goals
    simp only [stepsLeft, foldr_stepsLeft_append, List.foldr_cons]
    simp only [FileTask.stepsLeft]
    omega

/-- No order of steps goes on for ever. -/
theorem wellFounded_step (outcome : SystemText → Except FileFault String → FileReport ⊕ FileFailure)
    (fs : FileSystem) : WellFounded fun s' s => Step outcome fs s s' :=
  Subrelation.wf stepsLeft_of_step (measure stepsLeft).wf

private theorem outcome?_eq_of_isSound {t : FileTask} (hs : t.IsSound outcome fs)
    (hf : t.outcome?.isSome) : t.outcome? = some (outcome t.file (fs.readText t.file)) := by
  obtain ⟨file, phase⟩ := t
  cases phase with
  | finished outcome => exact congrArg some hs
  | waiting | loaded text => cases hf

/-- When all tasks are done, the report is that of linting one file after the other, and every file
has been told of once. -/
theorem Invariant.report_eq (hi : Invariant outcome fs files s) (hf : s.IsFinal) :
    s.report = fs.scanFilesBy outcome files ∧ s.visited.Perm files := by
  have ho : s.tasks.filterMap FileTask.outcome? =
      files.map fun file => outcome file (fs.readText file) := by
    rw [← hi.files_eq, List.map_map, ← List.filterMap_eq_map]
    exact List.filterMap_congr fun t ht => outcome?_eq_of_isSound (hi.sound t ht) (hf t ht)
  constructor
  · rw [report, ho]
    rfl
  · have hv := hi.visited_perm
    rwa [List.filter_eq_self.mpr hf, hi.files_eq] at hv

/-- Whatever linting a file gives, the order of the steps makes no difference to the report. -/
theorem Run.report_eq (h : Run outcome fs (start files) s) : (∃ s', Step outcome fs s s') ∨
    s.IsFinal ∧ s.report = fs.scanFilesBy outcome files ∧ s.visited.Perm files := by
  rcases isFinal_or_exists_step s with hf | hstep
  · exact Or.inr ⟨hf, ((invariant_start files).run h).report_eq hf⟩
  · exact Or.inl hstep

end ScanState

namespace FileReport

/-- The status says whether something was found. -/
def TellsStatus (r : FileReport) : Prop :=
  r.status = .flagged ↔ r.findings ≠ []

theorem TellsStatus.isClean_iff {r : FileReport} (h : r.TellsStatus) :
    r.isClean ↔ r.findings = [] := by
  have hs : r.findings = [] ↔ r.status ≠ .flagged := not_iff_not.mp (h.symm.trans not_not.symm)
  rw [hs, isClean, decide_eq_true_iff]
  cases r.status <;> decide

end FileReport

namespace ScanReport

/-- The numbers in the last line of a report. -/
structure Totals where
  files : Nat
  clean : Nat
  flagged : Nat
  findings : Nat
  failures : Nat

def Totals.line (t : Totals) : String :=
  toString t.files ++ " file(s) scanned: " ++ toString t.clean ++ " clean, " ++
    toString t.flagged ++ " flagged (" ++ toString t.findings ++ " finding(s))" ++
    (if t.failures = 0 then "" else ", " ++ toString t.failures ++ " failed") ++ "\n"

def totals (r : ScanReport) : Totals where
  files := r.files.length
  clean := (r.files.filter FileReport.isClean).length
  flagged := r.flagged.length
  findings := r.findingCount
  failures := r.failures.length

variable (r : ScanReport)

private theorem clean_add_flagged : r.totals.clean + r.totals.flagged = r.totals.files :=
  (List.length_eq_length_filter_add FileReport.isClean).symm

/-- The last line tells the totals. The clean files are counted as those that are not flagged, and
there are never more flagged files than files. -/
theorem summary_eq : r.summary = r.totals.line := by
  have hc : r.files.length - r.flagged.length = r.totals.clean := by
    have h := r.clean_add_flagged
    simp only [totals] at h ⊢
    omega
  have hf : r.failures.isEmpty = decide (r.failures.length = 0) := by
    cases r.failures <;> rfl
  simp only [summary, Totals.line, hc, hf, decide_eq_true_eq]
  rfl

private theorem isClean_iff_flagged : r.isClean ↔ r.flagged = [] := by
  rw [isClean, flagged, List.all_eq_true, List.filter_eq_nil_iff]
  exact forall₂_congr fun f _ => by cases f.isClean <;> decide

variable {r}

private theorem isClean_iff_findingCount (h : ∀ f ∈ r.files, f.TellsStatus) :
    r.isClean ↔ r.findingCount = 0 := by
  rw [isClean, findingCount, List.length_eq_zero_iff, findings, List.flatMap_eq_nil_iff,
    List.all_eq_true]
  exact forall₂_congr fun f hf => (h f hf).isClean_iff

/-- What a report says about its files, what it counts and the lines that it lists agree. -/
structure Coherent (r : ScanReport) : Prop where
  tellsStatus : ∀ f ∈ r.files, f.TellsStatus
  isClean_iff_flagged : r.isClean ↔ r.flagged = []
  isClean_iff_findingCount : r.isClean ↔ r.findingCount = 0
  clean_add_flagged : r.totals.clean + r.totals.flagged = r.files.length
  summary_eq : r.summary = r.totals.line

private theorem coherent_of_tellsStatus (h : ∀ f ∈ r.files, f.TellsStatus) : r.Coherent where
  tellsStatus := h
  isClean_iff_flagged := r.isClean_iff_flagged
  isClean_iff_findingCount := isClean_iff_findingCount h
  clean_add_flagged := r.clean_add_flagged
  summary_eq := r.summary_eq

end ScanReport

namespace FileOutcome

variable {file : SystemText} {text : Except FileFault String}

/-- The name that stands in a report or failure is the one that was given, as far as it is a text. -/
theorem file_eq {outcome : FileReport ⊕ FileFailure} (h : FileOutcome file text outcome) :
    outcome.elim FileReport.file FileFailure.file = file.shown := by
  cases h <;> rfl

private theorem tellsStatus {r : FileReport} (h : FileOutcome file text (.inl r)) : r.TellsStatus := by
  cases h with
  | linted hm => exact Module.flagged_report_iff ..

end FileOutcome

theorem fileOutcome_outcomeOf (file : SystemText) (text : Except FileFault String) :
    FileOutcome file text (outcomeOf file text) :=
  fileOutcome_iff.mpr rfl

private theorem length_getLeft?_add_length_getRight? {α β : Type} (xs : List (α ⊕ β)) :
    (xs.filterMap Sum.getLeft?).length + (xs.filterMap Sum.getRight?).length = xs.length := by
  induction xs with
  | nil => rfl
  | cons x xs ih =>
    cases x with
    | inl a | inr b =>
      simp only [List.filterMap_cons, Sum.getLeft?, Sum.getRight?, List.length_cons, ← ih]
      omega

namespace FileSystem

variable (fs : FileSystem) (files : List SystemText)

private theorem tellsStatus_of_mem_scanFiles {r : FileReport} (h : r ∈ (fs.scanFiles files).files) :
    r.TellsStatus := by
  obtain ⟨outcome, ho, hr⟩ := List.mem_filterMap.mp h
  obtain ⟨file, _, rfl⟩ := List.mem_map.mp ho
  have hfile := fileOutcome_outcomeOf file (fs.readText file)
  rw [Sum.getLeft?_eq_some_iff.mp hr] at hfile
  exact hfile.tellsStatus

/-- In whatever order the tasks of a scan make their steps, they come to an end, and at the end the
report is that of linting one file after the other. It tells one thing of each file, by its name and
text alone: a report or a failure, both in the order of the files. What it counts agrees with what
it lists. -/
theorem scanFiles_of_any_order :
    (WellFounded fun s' s => ScanState.Step outcomeOf fs s s') ∧
      (∀ s, ScanState.Run outcomeOf fs (.start files) s →
        (∃ s', ScanState.Step outcomeOf fs s s') ∨
          s.IsFinal ∧ s.report = fs.scanFiles files ∧ s.visited.Perm files) ∧
      (∃ outcomes : List (FileReport ⊕ FileFailure),
        List.Forall₂ (fun file outcome =>
          outcome.elim FileReport.file FileFailure.file = file.shown ∧
            ∀ o, FileOutcome file (fs.readText file) o ↔ o = outcome) files outcomes ∧
        (fs.scanFiles files).files = outcomes.filterMap Sum.getLeft? ∧
        (fs.scanFiles files).failures = outcomes.filterMap Sum.getRight?) ∧
      (fs.scanFiles files).files.length + (fs.scanFiles files).failures.length = files.length ∧
      (fs.scanFiles files).Coherent := by
  refine ⟨ScanState.wellFounded_step outcomeOf fs, fun s hs => hs.report_eq, ?_, ?_, ?_⟩
  · refine ⟨files.map fun file => outcomeOf file (fs.readText file), ?_, rfl, rfl⟩
    rw [List.forall₂_map_right_iff, List.forall₂_same]
    exact fun file _ => ⟨(fileOutcome_outcomeOf file _).file_eq, fun o => fileOutcome_iff⟩
  · exact (length_getLeft?_add_length_getRight? _).trans (List.length_map _)
  · exact ScanReport.coherent_of_tellsStatus fun f hf => fs.tellsStatus_of_mem_scanFiles files hf

end FileSystem

end SideEffectLint
