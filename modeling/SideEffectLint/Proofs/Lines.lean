import Mathlib
import SideEffectLint.Proofs.Tasks

/-! The lines of a report. Its text has one line for each thing that is told, file after file, then one
for each failure and one with the totals, which count the lines before it. -/

namespace SideEffectLint

def ScanReport.Totals.text (t : Totals) : String :=
  toString t.files ++ " file(s) scanned: " ++ toString t.clean ++ " clean, " ++
    toString t.flagged ++ " flagged (" ++ toString t.findings ++ " finding(s))" ++
    if t.failures = 0 then "" else ", " ++ toString t.failures ++ " failed"

/-- What a line of a report tells. -/
inductive ReportLine where
  /-- The line in front of what is told of a file. -/
  | file (r : FileReport)
  | finding (f : Finding)
  | skipped (s : SkippedFunction)
  | failure (f : FileFailure)
  | totals (t : ScanReport.Totals)

namespace ReportLine

def text : ReportLine → String
  | file r => r.file ++ if r.findings = [] then ": no side effects found" else ":"
  | finding f => "    " ++ f.message
  | skipped s => "    skipped " ++ s.function.display ++ ": " ++ s.reason
  | failure f => "Could not process " ++ f.file ++ ", skipping: " ++ f.reason
  | totals t => t.text

def isFinding : ReportLine → Bool
  | finding _ => true
  | _ => false

def isFailure : ReportLine → Bool
  | failure _ => true
  | _ => false

end ReportLine

def FileReport.told (r : FileReport) : List ReportLine :=
  .file r :: r.findings.map .finding ++ r.skipped.map .skipped

/-- What is told in front of the totals. -/
def ScanReport.told (r : ScanReport) : List ReportLine :=
  r.files.flatMap FileReport.told ++ r.failures.map .failure

def ScanReport.lines (r : ScanReport) : List ReportLine :=
  r.told ++ [.totals r.totals]

def FunctionRef.texts (f : FunctionRef) : List String :=
  f.name.toList

def Finding.texts : Finding → List String
  | parameterMutation _ parameter f => parameter :: f.texts
  | blacklistedCall _ method f => method :: f.texts

def SkippedFunction.texts (s : SkippedFunction) : List String :=
  s.reason :: s.function.texts

def FileReport.texts (r : FileReport) : List String :=
  r.file :: r.findings.flatMap Finding.texts ++ r.skipped.flatMap SkippedFunction.texts

def FileFailure.texts (f : FileFailure) : List String :=
  [f.file, f.reason]

def ScanReport.texts (r : ScanReport) : List String :=
  r.files.flatMap FileReport.texts ++ r.failures.flatMap FileFailure.texts

/-- The text does not go on over the end of a line. -/
def IsLine (text : String) : Prop :=
  '\n' ∉ text.toList

private theorem isLine_append {a b : String} : IsLine (a ++ b) ↔ IsLine a ∧ IsLine b := by
  rw [IsLine, String.toList_append, List.mem_append, not_or]
  rfl

private theorem isLine_nat (n : Nat) : IsLine (toString n) := by
  intro h
  have hd : ∀ c ∈ (toString n).toList, c.isDigit := fun c hc =>
    Nat.isDigit_of_mem_toDigits (by decide) (by decide) (Nat.toList_repr ▸ hc)
  exact absurd (hd _ h) (by decide)

private theorem FunctionRef.isLine_display {f : FunctionRef} (h : ∀ text ∈ f.texts, IsLine text) :
    IsLine f.display := by
  obtain ⟨name, line⟩ := f
  cases name with
  | some name => exact h name List.mem_cons_self
  | none => exact isLine_append.mpr ⟨by simp [IsLine], isLine_nat line⟩

private theorem Finding.isLine_message {f : Finding} (h : ∀ text ∈ f.texts, IsLine text) :
    IsLine f.message := by
  cases f with
  | parameterMutation line subject function | blacklistedCall line subject function =>
    obtain ⟨hsubject, hfunction⟩ := List.forall_mem_cons.mp h
    have hdisplay := FunctionRef.isLine_display hfunction
    simp only [message, isLine_append, isLine_nat, hsubject, hdisplay, and_true]
    simp [IsLine]

/-- The parameter or the method that a finding is about. -/
def Finding.subject : Finding → String
  | parameterMutation _ subject _ | blacklistedCall _ subject _ => subject

/-- A message tells the line and what was found there, and the function with the line that it starts on. -/
theorem Finding.infix_message (f : Finding) :
    ∀ part ∈ [toString f.line, f.subject, f.function.display, toString f.function.line],
      part.toList <:+: f.message.toList := by
  have hlast (a b : String) : b.toList <:+: (a ++ b).toList := by
    rw [String.toList_append]
    exact (List.suffix_append _ _).isInfix
  have hmore {a b : String} (h : b.toList <:+: a.toList) (c : String) :
      b.toList <:+: (a ++ c).toList := by
    rw [String.toList_append]
    exact h.trans (List.prefix_append _ _).isInfix
  obtain ⟨lead, deed, place, behind, rest, hm⟩ : ∃ lead deed place behind rest, f.message =
      lead ++ toString f.line ++ deed ++ f.subject ++ place ++ f.function.display ++ behind ++
        toString f.function.line ++ rest := by
    cases f with
    | parameterMutation | blacklistedCall => exact ⟨_, _, _, _, _, rfl⟩
  rw [hm]
  simp only [List.forall_mem_cons]
  -- Piece by piece from the part to the end of the message.
  refine ⟨?_, ?_, ?_, hmore (hlast _ _) _, List.forall_mem_nil _⟩
  · exact hmore (hmore (hmore (hmore (hmore (hmore (hmore (hlast _ _) _) _) _) _) _) _) _
  · exact hmore (hmore (hmore (hmore (hmore (hlast _ _) _) _) _) _) _
  · exact hmore (hmore (hmore (hlast _ _) _) _) _

namespace ReportLine

private theorem isLine_totals (t : ScanReport.Totals) : IsLine (totals t).text := by
  have hfailures :
      IsLine (if t.failures = 0 then "" else ", " ++ toString t.failures ++ " failed") := by
    split
    · simp [IsLine]
    · simp only [isLine_append, isLine_nat, and_true]
      simp [IsLine]
  change IsLine t.text
  simp only [ScanReport.Totals.text, isLine_append, isLine_nat, hfailures, and_true]
  simp [IsLine]

end ReportLine

/-- What is told of a file takes one line each if none of the texts in its report goes on over the end
of one. -/
theorem FileReport.isLine_of_mem_told {r : FileReport} (h : ∀ text ∈ r.texts, IsLine text) :
    ∀ l ∈ r.told, IsLine l.text := by
  simp only [texts, List.forall_mem_append, List.forall_mem_cons, List.forall_mem_flatMap] at h
  obtain ⟨⟨hfile, hfindings⟩, hskipped⟩ := h
  simp only [told, List.forall_mem_append, List.forall_mem_cons, List.forall_mem_map]
  refine ⟨⟨?_, fun f hf => ?_⟩, fun s hs => ?_⟩
  · refine isLine_append.mpr ⟨hfile, ?_⟩
    split <;> simp [IsLine]
  · exact isLine_append.mpr ⟨by simp [IsLine], Finding.isLine_message (hfindings f hf)⟩
  · obtain ⟨hreason, hfunction⟩ := List.forall_mem_cons.mp (hskipped s hs)
    have hdisplay := FunctionRef.isLine_display hfunction
    change IsLine ("    skipped " ++ s.function.display ++ ": " ++ s.reason)
    simp only [isLine_append, hdisplay, hreason, and_true]
    simp [IsLine]

private theorem FileFailure.isLine_text {f : FileFailure} (h : ∀ text ∈ f.texts, IsLine text) :
    IsLine (ReportLine.failure f).text := by
  simp only [texts, List.forall_mem_cons] at h
  obtain ⟨hfile, hreason, -⟩ := h
  change IsLine ("Could not process " ++ f.file ++ ", skipping: " ++ f.reason)
  simp only [isLine_append, hfile, hreason, and_true]
  simp [IsLine]

private theorem ScanReport.isLine_of_mem_told {r : ScanReport} (h : ∀ text ∈ r.texts, IsLine text) :
    ∀ l ∈ r.told, IsLine l.text := by
  simp only [texts, List.forall_mem_append, List.forall_mem_flatMap] at h
  simp only [told, List.forall_mem_append, List.forall_mem_flatMap, List.forall_mem_map]
  exact ⟨fun f hf => FileReport.isLine_of_mem_told (h.1 f hf),
    fun f hf => FileFailure.isLine_text (h.2 f hf)⟩

/-- The texts of lines, each with the end of the line. -/
def ended (ls : List ReportLine) : List Char :=
  ls.flatMap fun l => l.text.toList ++ ['\n']

private theorem ended_append (ls ls' : List ReportLine) : ended (ls ++ ls') = ended ls ++ ended ls' :=
  List.flatMap_append

private theorem ended_eq_intercalate (ls : List ReportLine) :
    ended ls = ['\n'].intercalate (ls.map (·.text.toList) ++ [[]]) := by
  induction ls with
  | nil => rfl
  | cons l ls ih =>
    have hcons : ended (l :: ls) = l.text.toList ++ ['\n'] ++ ended ls := rfl
    obtain ⟨t, ts, ht⟩ := List.exists_cons_of_ne_nil
      (List.append_ne_nil_of_right_ne_nil (ls.map (·.text.toList)) (List.cons_ne_nil [] []))
    rw [hcons, ih, List.map_cons, List.cons_append, ht, List.intercalate_cons_cons]

/-- Lines are found again in their text. -/
theorem splitOn_ended {ls : List ReportLine} (h : ∀ l ∈ ls, IsLine l.text) :
    (ended ls).splitOn '\n' = ls.map (·.text.toList) ++ [[]] := by
  rw [ended_eq_intercalate]
  refine List.splitOn_intercalate '\n' ?_ (by simp)
  simp only [List.forall_mem_append, List.forall_mem_map]
  exact ⟨h, by simp⟩

/-- Texts written one after the other are lines if each of them is one with its end. -/
theorem flatMap_toList_eq_ended {α : Type} (line : α → String) (told : α → ReportLine)
    (h : ∀ a, line a = (told a).text ++ "\n") (as : List α) :
    (as.map line).flatMap String.toList = ended (as.map told) := by
  rw [ended, List.flatMap_map, List.flatMap_map]
  refine List.flatMap_congr fun a _ => ?_
  rw [h, String.toList_append]
  rfl

private theorem FileReport.toList_text {r : FileReport} (h : r.TellsStatus) :
    r.text.toList = ended r.told := by
  have hfindings : (r.findings.map findingLine).flatMap String.toList =
      ended (r.findings.map .finding) := flatMap_toList_eq_ended findingLine _ (fun _ => rfl) _
  have hskipped : (r.skipped.map SkippedFunction.line).flatMap String.toList =
      ended (r.skipped.map .skipped) := flatMap_toList_eq_ended SkippedFunction.line _ (fun _ => rfl) _
  have hheader : (if r.isClean then r.file ++ ": no side effects found\n"
      else r.file ++ ":\n" ++ String.join (r.findings.map findingLine)).toList =
      ended (.file r :: r.findings.map .finding) := by
    change _ = (r.file ++ if r.findings = [] then ": no side effects found" else ":").toList ++
      ['\n'] ++ ended (r.findings.map .finding)
    rw [← hfindings]
    -- The text goes by the status, the line by whether there are findings.
    by_cases hn : r.findings = []
    · rw [if_pos (h.isClean_iff.mpr hn), if_pos hn, hn]
      simp
    · rw [if_neg (mt h.isClean_iff.mp hn), if_neg hn]
      simp
  rw [told, ended_append, ← hskipped, text, String.toList_append, String.toList_join, hheader]

namespace ScanReport

private theorem Totals.line_eq (t : Totals) : t.line = t.text ++ "\n" := by
  rfl

private theorem toList_text {r : ScanReport} (h : ∀ f ∈ r.files, f.TellsStatus) :
    r.text.toList = ended r.lines := by
  have hfiles : (r.files.map FileReport.text).flatMap String.toList =
      ended (r.files.flatMap FileReport.told) := by
    rw [ended, List.flatMap_map, List.flatMap_assoc]
    exact List.flatMap_congr fun f hf => FileReport.toList_text (h f hf)
  have hfailures : (r.failures.map FileFailure.line).flatMap String.toList =
      ended (r.failures.map .failure) := flatMap_toList_eq_ended FileFailure.line _ (fun _ => rfl) _
  have htotals : r.summary.toList = ended [.totals r.totals] := by
    rw [r.summary_eq, Totals.line_eq, String.toList_append]
    exact (List.append_nil _).symm
  rw [text, String.toList_append, String.toList_append, String.toList_join, String.toList_join,
    hfiles, hfailures, htotals, lines, told, ended_append, ended_append]

/-- Among the lines of a file those of its findings are told, and no failure. -/
theorem countP_told (r : FileReport) : r.told.countP ReportLine.isFinding = r.findings.length ∧
    r.told.countP ReportLine.isFailure = 0 := by
  simp [FileReport.told, List.countP_append, List.countP_map, Function.comp_def,
    ReportLine.isFinding, ReportLine.isFailure]

/-- The five numbers of the last line count what is told in front of it. -/
theorem totals_eq {r : ScanReport} (h : ∀ f ∈ r.files, f.TellsStatus) :
    r.totals = ⟨r.files.length, r.files.countP (·.findings = []), r.files.countP (·.findings ≠ []),
      r.told.countP ReportLine.isFinding, r.told.countP ReportLine.isFailure⟩ := by
  have hclean f (hf : f ∈ r.files) : f.isClean = decide (f.findings = []) := by
    rw [Bool.eq_iff_iff, FileReport.TellsStatus.isClean_iff (h f hf), decide_eq_true_iff]
  rw [totals, Totals.mk.injEq]
  refine ⟨rfl, ?_, ?_, ?_, ?_⟩
  · rw [List.countP_eq_length_filter, List.filter_congr hclean]
  · rw [List.countP_eq_length_filter, flagged]
    congr 1
    exact List.filter_congr fun f hf => by rw [hclean f hf, decide_not]
  · rw [findingCount, findings, List.length_flatMap, told, List.countP_append, List.countP_flatMap]
    simp [Function.comp_def, countP_told, List.countP_map, ReportLine.isFinding]
  · rw [told, List.countP_append, List.countP_flatMap]
    simp [Function.comp_def, countP_told, List.countP_map, ReportLine.isFailure]

private theorem length_lines (r : ScanReport) : r.lines.length =
    (r.files.map fun f => 1 + f.findings.length + f.skipped.length).sum + r.failures.length + 1 := by
  have htold (f : FileReport) : f.told.length = 1 + f.findings.length + f.skipped.length := by
    simp only [FileReport.told, List.length_append, List.length_cons, List.length_map]
    omega
  rw [lines, told, List.length_append, List.length_append, List.length_flatMap, List.length_map]
  simp only [htold]
  rfl

/-- The text of a report ends with a line and has one line for each thing that is told, in that order:
of each file first that it was linted, then its findings, then the functions that were skipped, and
after all files the failures. The last line has the totals, which count the lines in front of it. -/
theorem splitOn_text {r : ScanReport} (h : ∀ f ∈ r.files, f.TellsStatus)
    (hl : ∀ text ∈ r.texts, '\n' ∉ text.toList) :
    r.text.toList.getLast? = some '\n' ∧
      r.text.toList.splitOn '\n' = r.lines.map (·.text.toList) ++ [[]] ∧
      r.lines.length =
        (r.files.map fun f => 1 + f.findings.length + f.skipped.length).sum +
          r.failures.length + 1 ∧
      r.totals =
        ⟨r.files.length, r.files.countP (·.findings = []), r.files.countP (·.findings ≠ []),
          r.told.countP ReportLine.isFinding, r.told.countP ReportLine.isFailure⟩ := by
  have hlines : ∀ l ∈ r.lines, IsLine l.text := by
    rw [lines, List.forall_mem_append, List.forall_mem_singleton]
    exact ⟨isLine_of_mem_told hl, ReportLine.isLine_totals _⟩
  rw [toList_text h]
  refine ⟨?_, splitOn_ended hlines, r.length_lines, totals_eq h⟩
  rw [lines, ended_append, List.getLast?_append]
  have hlast : (ended [.totals r.totals]).getLast? = some '\n' := by
    rw [ended, List.flatMap_cons, List.flatMap_nil, List.append_nil, List.getLast?_append]
    rfl
  rw [hlast]
  rfl

/-- A file with two findings and a function that was skipped, one without any, and a failure. -/
private def mixed : ScanReport :=
  ⟨[⟨"a.js", .flagged, [.blacklistedCall 3 "push" ⟨none, 1⟩, .parameterMutation 4 "x" ⟨some "f", 2⟩],
      [⟨⟨some "g", 7⟩, "r"⟩]⟩,
    ⟨"b.js", .clean, [], []⟩], [⟨"c.js", "gone"⟩]⟩

theorem splitOn_text_mixed :
    (∀ f ∈ mixed.files, f.TellsStatus) ∧ (∀ text ∈ mixed.texts, '\n' ∉ text.toList) ∧
      (mixed.text.toList.splitOn '\n').length = 7 + 1 ∧ mixed.totals = ⟨2, 1, 1, 2, 1⟩ := by
  have hstatus : ∀ f ∈ mixed.files, f.TellsStatus := by
    simp [mixed, FileReport.TellsStatus]
  have htexts : ∀ text ∈ mixed.texts, '\n' ∉ text.toList := by
    simp [mixed, texts, FileReport.texts, Finding.texts, SkippedFunction.texts, FunctionRef.texts,
      FileFailure.texts]
  obtain ⟨-, hsplit, hlength, htotals⟩ := splitOn_text hstatus htexts
  refine ⟨hstatus, htexts, ?_, htotals⟩
  rw [hsplit, List.length_append, List.length_map, hlength]
  rfl

end ScanReport

end SideEffectLint
