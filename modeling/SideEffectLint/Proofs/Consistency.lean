import Mathlib
import SideEffectLint.Proofs.Collect
import SideEffectLint.Proofs.Tasks

/-! A scan of a directory is made up of the scans of what is below it. The files below a directory that the
walk enters are those that a walk from there finds, and each file is reported on as when it is scanned by
itself. -/

namespace SideEffectLint

variable {skips : String → Bool} {d inner deep : Directory} {names more : List FileName}

/-- Names that go on behind those of a directory lead on from there. -/
theorem Enters.of_append (h : Enters skips d names inner) (ht : d.isTree = true)
    (h' : Enters skips d (names ++ more) deep) : Enters skips inner more deep := by
  induction h with
  | here => exact h'
  | @inside d _ _ _ _ hm _ _ ih =>
    cases h' with
    | inside hm' _ h' =>
      cases Directory.eq_of_mem ht hm hm'
      cases d
      exact ih (Child.isTree_of_mem ht hm) h'

namespace Path

/-- The path leads through what `base` leads to. -/
def isBelow (base path : SystemText) : Bool :=
  (components base).isPrefixOf (components path)

private theorem isBelow_iff {base path : SystemText} :
    isBelow base path ↔ components base <+: components path :=
  List.isPrefixOf_iff_prefix

private theorem isBelow_below_iff {base : SystemText} : isBelow (below base names) (below base more) ↔
    names <+: more := by
  rw [isBelow_iff, components_below, components_below, List.prefix_append_right_inj]
  exact List.prefix_map_iff_of_injective fun _ _ h => FileName.text_inj.mp (Component.name.inj h)

private theorem fileName_below (base : SystemText) (names : List FileName) (name : FileName) :
    fileName (below base (names ++ [name])) = some name.text := by
  rw [fileName, components_below, List.map_append, ← List.append_assoc, List.map_singleton,
    List.getLast?_concat]

end Path

namespace FileSystem

variable {fs : FileSystem} {path file : SystemText} {exclude : Exclude}

/-- The walk from a directory that is entered finds what the whole walk finds below it. -/
theorem mem_found_inner_iff (ht : d.isTree = true) (h : Enters skips d names inner) :
    file ∈ found skips exclude (Path.below path names) inner ↔
      file ∈ found skips exclude path d ∧ Path.isBelow (Path.below path names) file := by
  rw [mem_found_iff_enters, mem_found_iff_enters]
  constructor
  · rintro ⟨more, deep, name, content, rfl, h', hm, hs, hk⟩
    rw [← Path.below_append, ← List.append_assoc] at hk ⊢
    refine ⟨⟨_, deep, name, content, rfl, h.append h', hm, hs, hk⟩, Path.isBelow_below_iff.mpr ?_⟩
    rw [List.append_assoc]
    exact List.prefix_append _ _
  · rintro ⟨⟨above, deep, name, content, rfl, h', hm, hs, hk⟩, hbelow⟩
    rcases List.prefix_concat_iff.mp (Path.isBelow_below_iff.mp hbelow) with rfl | ⟨more, rfl⟩
    · -- The file would be the directory.
      cases h'.of_append ht h with
      | inside hm' => cases Directory.eq_of_mem (h'.isTree ht) hm hm'
    · refine ⟨more, deep, name, content, ?_, h.of_append ht h', hm, hs, hk⟩
      rw [← Path.below_append, List.append_assoc]

private theorem sort_found_inner (ht : d.isTree = true) (h : Enters skips d names inner) :
    Path.sort (found skips exclude (Path.below path names) inner) =
      (Path.sort (found skips exclude path d)).filter (Path.isBelow (Path.below path names)) := by
  have hinner := Path.pairwise_precedes_sort
    (nodup_components_found skips (h.isTree ht) exclude (Path.below path names))
  have hall := Path.pairwise_precedes_sort (nodup_components_found skips ht exclude path)
  -- Both lists are in strict order, so their members decide.
  refine hinner.eq_of_mem_iff (hall.filter _) fun file => ?_
  rw [(Path.sort_perm _).mem_iff, List.mem_filter, (Path.sort_perm _).mem_iff,
    mem_found_inner_iff ht h]

/-- The path of a file leads to it where nothing keeps the walk from reading on. -/
theorem entry_found {name : FileName} {content : Except FileFault ByteArray}
    (hd : fs.entry path = .ok (.directory d)) (hl : d.Legible skips path)
    (h : Enters skips d names inner) (hm : .mk name (.file content) ∈ inner.children) :
    fs.entry (Path.below path (names ++ [name])) = .ok (.file content) := by
  have htell := hl.tells names inner name _ h hm
  rw [Path.below_append] at htell ⊢
  exact entry_join (entry_below hd hl h) hm nofun htell

/-- The path of a file that is found leads to it, and is all that is found from there. -/
theorem collect_file (hd : fs.entry path = .ok (.directory d)) (hl : d.Legible skips path)
    (hf : file ∈ found skips exclude path d) : fs.collectPast skips exclude file = .ok [file] := by
  obtain ⟨names, inner, name, content, rfl, h, hm, hs, hk⟩ := mem_found_iff_enters.mp hf
  have hentry := entry_found hd hl h hm
  have hname := Path.fileName_below path names name
  generalize Path.below path (names ++ [name]) = file at hentry hname hk ⊢
  have hunder : fs.underPast skips file = .ok [file] := by
    rw [underPast, hentry, hname]
    exact congrArg Except.ok (if_pos hs)
  have hkept : [file].filter (exclude.keeps ·.shown) = [file] := List.filter_cons_of_pos hk
  rw [collectPast, hunder]
  change Except.ok (Path.sort ([file].filter (exclude.keeps ·.shown))) = _
  rw [hkept, Path.sort, List.mergeSort_singleton]

end FileSystem

/-- What is put together for one item can be told apart from what is put together for the others. -/
theorem filter_flatMap_of_nodup {α β : Type} {p : β → Bool} {f : α → List β} {a : α} {as : List α}
    (hn : as.Nodup) (ha : a ∈ as) (hself : ∀ x ∈ f a, p x = true)
    (hother : ∀ b ∈ as, b ≠ a → ∀ x ∈ f b, ¬ p x = true) : (as.flatMap f).filter p = f a := by
  induction as with
  | nil => cases ha
  | cons b as ih =>
    obtain ⟨hb, hn⟩ := List.nodup_cons.mp hn
    obtain ⟨hfirst, hrest⟩ := List.forall_mem_cons.mp hother
    rw [List.flatMap_cons, List.filter_append]
    rcases List.mem_cons.mp ha with rfl | ha
    · have hnil : (as.flatMap f).filter p = [] := by
        rw [List.filter_flatMap, List.flatMap_eq_nil_iff]
        intro c hc
        exact List.filter_eq_nil_iff.mpr (hrest c hc fun h => hb (h ▸ hc))
      rw [List.filter_eq_self.mpr hself, hnil, List.append_nil]
    · have hne : b ≠ a := fun h => hb (h ▸ ha)
      rw [List.filter_eq_nil_iff.mpr (hfirst hne), ih hn ha hrest, List.nil_append]

namespace FileSystem

variable {fs : FileSystem} {path file : SystemText} {exclude : Exclude}
  {outcome : SystemText → Except FileFault String → FileReport ⊕ FileFailure}

private theorem scanFilesBy_cons (fs : FileSystem)
    (outcome : SystemText → Except FileFault String → FileReport ⊕ FileFailure)
    (file : SystemText) (files : List SystemText) :
    fs.scanFilesBy outcome (file :: files) =
      ⟨(fs.scanFilesBy outcome [file]).files ++ (fs.scanFilesBy outcome files).files,
        (fs.scanFilesBy outcome [file]).failures ++ (fs.scanFilesBy outcome files).failures⟩ := by
  simp only [scanFilesBy, List.map_cons, List.map_nil]
  cases outcome file (fs.readText file) <;> rfl

/-- A report on files depends on their texts alone. -/
theorem scanFilesBy_congr {fs fs' : FileSystem} {files : List SystemText}
    (h : ∀ file ∈ files, fs'.readText file = fs.readText file) :
    fs'.scanFilesBy outcome files = fs.scanFilesBy outcome files := by
  have hmap : (files.map fun file => outcome file (fs'.readText file)) =
      files.map fun file => outcome file (fs.readText file) :=
    List.map_congr_left fun file hf => by rw [h file hf]
  rw [scanFilesBy, scanFilesBy, hmap]

/-- The report on files puts the reports on them one behind the other. -/
theorem scanFilesBy_eq (fs : FileSystem)
    (outcome : SystemText → Except FileFault String → FileReport ⊕ FileFailure)
    (files : List SystemText) :
    fs.scanFilesBy outcome files =
      ⟨files.flatMap fun file => (fs.scanFilesBy outcome [file]).files,
        files.flatMap fun file => (fs.scanFilesBy outcome [file]).failures⟩ := by
  induction files with
  | nil => rfl
  | cons file files ih => rw [scanFilesBy_cons, ih, List.flatMap_cons, List.flatMap_cons]

section

-- What linting a file gives tells which file it was.
variable
  (ho : ∀ text, (outcome file text).elim FileReport.file FileFailure.file = file.shown)

include ho

/-- A file has a report or a failure of its own. -/
theorem scanFilesBy_singleton (fs : FileSystem) :
    (fs.scanFilesBy outcome [file]).files.map FileReport.file ++
      (fs.scanFilesBy outcome [file]).failures.map FileFailure.file = [file.shown] := by
  have hfile := ho (fs.readText file)
  simp only [scanFilesBy, List.map_cons, List.map_nil]
  cases h : outcome file (fs.readText file) with
  | inl | inr =>
    rw [h] at hfile
    exact congrArg (fun name => [name]) hfile

private theorem file_eq_of_mem_files {r : FileReport} (hr : r ∈ (fs.scanFilesBy outcome [file]).files) :
    r.file = file.shown := by
  have htold := scanFilesBy_singleton ho fs
  have hm := List.mem_append_left ((fs.scanFilesBy outcome [file]).failures.map FileFailure.file)
    (List.mem_map_of_mem (f := FileReport.file) hr)
  rw [htold] at hm
  exact List.mem_singleton.mp hm

private theorem file_eq_of_mem_failures {f : FileFailure}
    (hf : f ∈ (fs.scanFilesBy outcome [file]).failures) : f.file = file.shown := by
  have htold := scanFilesBy_singleton ho fs
  have hm := List.mem_append_right ((fs.scanFilesBy outcome [file]).files.map FileReport.file)
    (List.mem_map_of_mem (f := FileFailure.file) hf)
  rw [htold] at hm
  exact List.mem_singleton.mp hm

end

/-- What is told of one of the files by itself. -/
structure ScansAlone (fs : FileSystem) (exclude : Exclude) (among : List SystemText)
    (whole : ScanReport) (file : SystemText) (single : ScanReport) : Prop where
  collect : fs.collect exclude file = .ok [file]
  scan : fs.scan exclude file = .ok single
  told : single.files.map FileReport.file ++ single.failures.map FileFailure.file = [file.shown]
  /-- Unless another file is shown alike, as it may be if a name is no text. -/
  files : (∀ other ∈ among, other.shown = file.shown → other = file) →
    whole.files.filter (fun r => r.file = file.shown) = single.files
  failures : (∀ other ∈ among, other.shown = file.shown → other = file) →
    whole.failures.filter (fun f => f.file = file.shown) = single.failures

private theorem scansAlone {files : List SystemText} (hn : files.Nodup) (hf : file ∈ files)
    (hc : fs.collect exclude file = .ok [file]) :
    fs.ScansAlone exclude files (fs.scanFiles files) file (fs.scanFiles [file]) := by
  have ho (file : SystemText) (text : Except FileFault String) :
      (outcomeOf file text).elim FileReport.file FileFailure.file = file.shown :=
    (fileOutcome_outcomeOf file text).file_eq
  refine ⟨hc, ?_, scanFilesBy_singleton (ho file) fs, fun hs => ?_, fun hs => ?_⟩
  · rw [scan, hc]
    rfl
  · rw [scanFiles, scanFilesBy_eq]
    refine filter_flatMap_of_nodup hn hf
      (fun r hr => decide_eq_true (file_eq_of_mem_files (ho file) hr)) ?_
    intro other hother hne r hr heq
    have hr := file_eq_of_mem_files (ho other) hr
    exact hne (hs other hother (hr.symm.trans (of_decide_eq_true heq)))
  · rw [scanFiles, scanFilesBy_eq]
    refine filter_flatMap_of_nodup hn hf
      (fun f hf => decide_eq_true (file_eq_of_mem_failures (ho file) hf)) ?_
    intro other hother hne f hf heq
    have hf := file_eq_of_mem_failures (ho other) hf
    exact hne (hs other hother (hf.symm.trans (of_decide_eq_true heq)))

/-- Where nothing keeps the walk from reading on, the files below each directory that it enters are those
of the whole walk that are below that directory, in the same order. Each file that is found is found by
itself from its own path, with the one report or failure that the whole scan has for it; and the whole
scan puts those one behind the other. -/
theorem scan_consistent (hd : fs.entry path = .ok (.directory d))
    (hl : d.Legible isSkippedDirectory path) (exclude : Exclude) :
    ∃ files whole, fs.collect exclude path = .ok files ∧ fs.scan exclude path = .ok whole ∧
      (∀ names inner, Enters isSkippedDirectory d names inner →
        fs.collect exclude (Path.below path names) =
          .ok (files.filter (Path.isBelow (Path.below path names)))) ∧
      ∃ singles, List.Forall₂ (fs.ScansAlone exclude files whole) files singles ∧
        whole = ⟨singles.flatMap ScanReport.files, singles.flatMap ScanReport.failures⟩ := by
  have ht : d.isTree = true := isTree_of_entry hd
  have hcollect : fs.collect exclude path =
      .ok (Path.sort (found isSkippedDirectory exclude path d)) :=
    collectPast_eq hd hl exclude
  have hsorted := Path.pairwise_precedes_sort
    (nodup_components_found isSkippedDirectory ht exclude path)
  have hscan : fs.scan exclude path =
      .ok (fs.scanFiles (Path.sort (found isSkippedDirectory exclude path d))) := by
    rw [scan, hcollect]
    rfl
  refine ⟨_, _, hcollect, hscan, fun names inner h => ?_, ?_⟩
  · rw [collect, collectPast_eq (entry_below hd hl h) (hl.enter h), sort_found_inner ht h]
  · refine ⟨(Path.sort (found isSkippedDirectory exclude path d)).map fun file =>
      fs.scanFiles [file], ?_, ?_⟩
    · rw [List.forall₂_map_right_iff, List.forall₂_same]
      intro file hfile
      have hfound := (Path.sort_perm _).mem_iff.mp hfile
      exact scansAlone hsorted.nodup hfile (collect_file hd hl hfound)
    · rw [List.flatMap_map, List.flatMap_map]
      exact fs.scanFilesBy_eq outcomeOf _

/-- A directory beside a file that cannot be read holds a file, and a directory that cannot be listed but is
passed over. -/
private def sampleInner : Directory :=
  .of [.mk ⟨"build", rfl⟩ (.directory (.mk { list := .error .permissionDenied } [])),
    .mk ⟨"one.ts", rfl⟩ (.file (.ok .empty))]

private def sampleTree : Tree :=
  ⟨.of [.mk ⟨"inner", rfl⟩ (.directory sampleInner), .mk ⟨"loop", rfl⟩ (.link ".."),
    .mk ⟨"two.js", rfl⟩ (.file (.error .permissionDenied))], rfl⟩

theorem scan_consistent_sample :
    let fs : FileSystem := .of sampleTree (.ok [])
    let files : List SystemText := ["./inner/one.ts", "./two.js"]
    fs.entry "." = .ok (.directory sampleTree.root) ∧
      sampleTree.root.Legible isSkippedDirectory "." ∧ fs.collect .standard "." = .ok files ∧
      fs.collect .standard "./inner" = .ok (files.filter (Path.isBelow "./inner")) ∧
      files.filter (Path.isBelow "./inner") = ["./inner/one.ts"] ∧
      ∃ whole, fs.scan .standard "." = .ok whole ∧
        ∀ file ∈ files, ∃ single, fs.ScansAlone .standard files whole file single := by
  intro fs files
  have hd : fs.entry "." = .ok (.directory sampleTree.root) := by cbv
  have hwalk : sampleTree.root.sources isSkippedDirectory "." =
      .ok ["./inner/one.ts", "./two.js"] := by
    cbv
  have hl := ((Directory.sources_eq_ok_iff _ _).mp hwalk).1
  have hfiles : fs.collect .standard "." = .ok files := by cbv
  have henters : Enters isSkippedDirectory sampleTree.root [⟨"inner", rfl⟩] sampleInner :=
    .inside List.mem_cons_self (ne_true_of_eq_false (by cbv)) .here
  obtain ⟨_, whole, hcollect, hscan, hinner, singles, hsingles, -⟩ :=
    scan_consistent hd hl .standard
  obtain rfl := Except.ok.inj (hcollect.symm.trans hfiles)
  refine ⟨hd, hl, hfiles, hinner _ _ henters, by cbv, whole, hscan, fun file hf => ?_⟩
  obtain ⟨i, hi, rfl⟩ := List.getElem_of_mem hf
  have hi' : i < singles.length := hsingles.length_eq ▸ hi
  exact ⟨singles[i], hsingles.get hi hi'⟩

end FileSystem

end SideEffectLint
