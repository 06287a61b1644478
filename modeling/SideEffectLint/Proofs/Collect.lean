import Mathlib
import SideEffectLint.Proofs.Resolution

/-! The source files under a directory: which they are, that they are put into one strict order, and that
the order in which directories list what they hold does not matter. -/

namespace SideEffectLint

/-- The same items, in trees whose directories may list what they hold in another order. -/
inductive Relisted : List Child → List Child → Prop
  | nil : Relisted [] []
  | cons (c : Child) {cs ds : List Child} : Relisted cs ds → Relisted (c :: cs) (c :: ds)
  | inside (name : FileName) (access : Access) {children children' cs ds : List Child} :
    Relisted children children' → Relisted cs ds →
    Relisted (.mk name (.directory (.mk access children)) :: cs)
      (.mk name (.directory (.mk access children')) :: ds)
  | swap (c d : Child) (cs : List Child) : Relisted (c :: d :: cs) (d :: c :: cs)
  | trans {cs ds es : List Child} : Relisted cs ds → Relisted ds es → Relisted cs es

/-- The directory, which may list what it holds in another order, at every depth. -/
def Directory.Relists (d d' : Directory) : Prop :=
  d'.access = d.access ∧ Relisted d.children d'.children

variable {skips : String → Bool}

namespace Relisted

variable {cs ds : List Child}

theorem of_perm (h : cs.Perm ds) : Relisted cs ds := by
  induction h with
  | nil => exact .nil
  | cons c _ ih => exact .cons c ih
  | swap c d cs => exact .swap d c cs
  | trans _ _ ih₁ ih₂ => exact ih₁.trans ih₂

theorem symm (h : Relisted cs ds) : Relisted ds cs := by
  induction h with
  | nil => exact .nil
  | cons c _ ih => exact .cons c ih
  | inside name access _ _ ih ih' => exact .inside name access ih ih'
  | swap c d cs => exact .swap d c cs
  | trans _ _ ih ih' => exact ih'.trans ih

private theorem chains_cons (c : Child) (cs : List Child) :
    Child.chains skips (c :: cs) = Child.chains skips [c] ++ Child.chains skips cs := by
  cases c <;> simp [Child.chains]

private theorem chains_perm (h : Relisted cs ds) :
    (Child.chains skips cs).Perm (Child.chains skips ds) := by
  induction h with
  | nil => exact .refl _
  | @cons c cs ds _ ih =>
    rw [chains_cons c cs, chains_cons c ds]
    exact ih.append_left _
  | inside name access _ _ ih ih' =>
    rw [Child.chains, Child.chains, Entry.chains, Entry.chains]
    refine .append ?_ ih'
    split
    · exact .refl _
    · exact ih.map _
  | swap c d cs =>
    rw [chains_cons, chains_cons d, chains_cons d (c :: cs), chains_cons c cs, ← List.append_assoc,
      ← List.append_assoc]
    exact List.perm_append_comm.append_right _
  | trans _ _ ih₁ ih₂ => exact ih₁.trans ih₂

theorem legible (h : Relisted cs ds) {path : SystemText} {access : Access}
    (hl : ∀ c ∈ cs, c.Legible skips path access) : ∀ d ∈ ds, d.Legible skips path access := by
  induction h generalizing path access with
  | nil => exact hl
  | cons c _ ih =>
    obtain ⟨hc, hcs⟩ := List.forall_mem_cons.mp hl
    exact List.forall_mem_cons.mpr ⟨hc, ih hcs⟩
  | inside name access' _ _ ih ih' =>
    obtain ⟨⟨hlook, hd⟩, hcs⟩ := List.forall_mem_cons.mp hl
    refine List.forall_mem_cons.mpr ⟨⟨hlook, ?_⟩, ih' hcs⟩
    rintro d hd' hs
    cases hd'
    obtain ⟨hlist, hall⟩ := Directory.legible_iff.mp (hd _ rfl hs)
    exact Directory.legible_iff.mpr ⟨hlist, ih hall⟩
  | swap c d cs => exact fun e he => hl e ((List.Perm.swap c d cs).mem_iff.mp he)
  | trans _ _ ih₁ ih₂ => exact ih₂ (ih₁ hl)

end Relisted

namespace Directory.Relists

variable {d d' : Directory}

theorem symm (h : d.Relists d') : d'.Relists d :=
  ⟨h.1.symm, h.2.symm⟩

theorem of_perm {access : Access} {cs ds : List Child} (h : cs.Perm ds) :
    (mk access cs).Relists (mk access ds) :=
  ⟨rfl, .of_perm h⟩

theorem refl (d : Directory) : d.Relists d :=
  ⟨rfl, .of_perm (.refl _)⟩

private theorem chains_perm (h : d.Relists d') : (d.chains skips).Perm (d'.chains skips) := by
  cases d
  cases d'
  exact h.2.chains_perm

theorem legible (h : d.Relists d') {path : SystemText} (hl : d.Legible skips path) :
    d'.Legible skips path := by
  obtain ⟨access, cs⟩ := d
  obtain ⟨access', ds⟩ := d'
  obtain ⟨rfl, hr⟩ := h
  obtain ⟨hlist, hall⟩ := legible_iff.mp hl
  exact legible_iff.mpr ⟨hlist, hr.legible hall⟩

end Directory.Relists

namespace FileSystem

variable {fs : FileSystem} {path : SystemText} {d inner : Directory} {names : List FileName}
  {exclude : Exclude} {file : SystemText}

/-- The paths of the source files in the order in which those are found. -/
def found (skips : String → Bool) (exclude : Exclude) (path : SystemText) (d : Directory) :
    List SystemText :=
  ((d.chains skips).map (Path.below path)).filter (exclude.keeps ·.shown)

/-- What is collected from a directory, if nothing keeps the walk from reading on. -/
theorem collectPast_eq_ok_iff (hd : fs.entry path = .ok (.directory d)) {files : List SystemText} :
    fs.collectPast skips exclude path = .ok files ↔
      d.Legible skips path ∧ files = Path.sort (found skips exclude path d) := by
  rw [collectPast, underPast, hd]
  dsimp only
  cases h : d.sources skips path with
  | error fault =>
    refine iff_of_false nofun fun hl => ?_
    rw [(d.sources_eq_ok_iff skips).mpr ⟨hl.1, rfl⟩] at h
    cases h
  | ok all =>
    obtain ⟨hl, rfl⟩ := (d.sources_eq_ok_iff skips).mp h
    rw [and_iff_right hl]
    constructor
    · intro hf
      cases hf
      rfl
    · rintro rfl
      rfl

theorem collectPast_eq (hd : fs.entry path = .ok (.directory d)) (hl : d.Legible skips path)
    (exclude : Exclude) :
    fs.collectPast skips exclude path = .ok (Path.sort (found skips exclude path d)) :=
  (collectPast_eq_ok_iff hd).mpr ⟨hl, rfl⟩

theorem mem_found_iff_enters : file ∈ found skips exclude path d ↔ ∃ above inner name content,
    file = Path.below path (above ++ [name]) ∧ Enters skips d above inner ∧
      .mk name (.file content) ∈ inner.children ∧ name.isAmong SourceFile.isSupported ∧
      exclude.keeps file.shown := by
  rw [found, List.mem_filter, List.mem_map]
  constructor
  · rintro ⟨⟨names, hn, rfl⟩, hk⟩
    obtain ⟨above, inner, name, content, rfl, he, hm, hs⟩ := Directory.mem_chains_iff.mp hn
    exact ⟨above, inner, name, content, rfl, he, hm, hs, hk⟩
  · rintro ⟨above, inner, name, content, rfl, he, hm, hs, hk⟩
    exact ⟨⟨_, Directory.mem_chains_of_enters he hm hs, rfl⟩, hk⟩

private theorem keeps_iff {text : String} :
    exclude.keeps text ↔ ∀ glob ∈ exclude.globs, glob.isMatch text = false := by
  simp [Exclude.keeps]

private theorem mem_found_iff : file ∈ found isSkippedDirectory exclude path d ↔ ∃ above name content,
    file = Path.below path (above ++ [name]) ∧ LeadsTo d (above ++ [name]) (.file content) ∧
      (∀ directory ∈ above, ¬ directory.Is IsSkippedName) ∧ name.Is SourceFile.IsSource ∧
      ∀ glob ∈ exclude.globs, glob.isMatch file.shown = false := by
  simp only [mem_found_iff_enters, ← FileName.isAmong_isSkippedDirectory_iff,
    ← FileName.isAmong_isSupported_iff, ← keeps_iff]
  constructor
  · rintro ⟨above, inner, name, content, hfile, he, hm, hs, hk⟩
    obtain ⟨hl, ha⟩ := he.leadsTo hm
    exact ⟨above, name, content, hfile, hl, ha, hs, hk⟩
  · rintro ⟨above, name, content, hfile, hl, ha, hs, hk⟩
    obtain ⟨inner, he, hm⟩ := hl.exists_enters ha
    exact ⟨above, inner, name, content, hfile, he, hm, hs, hk⟩

theorem nodup_components_found (skips : String → Bool) (ht : d.isTree = true) (exclude : Exclude)
    (path : SystemText) : ((found skips exclude path d).map Path.components).Nodup :=
  (d.nodup_components skips ht path).sublist (List.filter_sublist.map _)

theorem sort_found_of_relists {d' : Directory} (hr : d.Relists d') (ht : d.isTree = true) :
    Path.sort (found skips exclude path d') = Path.sort (found skips exclude path d) :=
  (Path.sort_eq_of_perm ((hr.chains_perm.map _).filter _)
    (nodup_components_found skips ht exclude path)).symm

/-- Which files are found under a directory where nothing keeps the walk from reading on, and in which
order. Names that are no texts are those of no source file, and of no directory that is passed over. -/
theorem collect_directory (hd : fs.entry path = .ok (.directory d))
    (hl : d.Legible isSkippedDirectory path) (exclude : Exclude) :
    ∃ files, fs.collect exclude path = .ok files ∧
      (∀ file, file ∈ files ↔ ∃ above name content,
        file = Path.below path (above ++ [name]) ∧ LeadsTo d (above ++ [name]) (.file content) ∧
        (∀ directory ∈ above, ¬ directory.Is IsSkippedName) ∧ name.Is SourceFile.IsSource ∧
        ∀ glob ∈ exclude.globs, glob.isMatch file.shown = false) ∧
      files.Pairwise Path.Precedes ∧ files.Nodup ∧
      ∀ (fs' : FileSystem) (d' : Directory), d.Relists d' →
        fs'.entry path = .ok (.directory d') → fs'.collect exclude path = .ok files := by
  have ht : d.isTree = true := isTree_of_entry hd
  have hsorted := Path.pairwise_precedes_sort
    (nodup_components_found isSkippedDirectory ht exclude path)
  refine ⟨_, collectPast_eq hd hl exclude, fun file => ?_, hsorted,
    hsorted.imp Path.ne_of_precedes, fun fs' d' hr hd' => ?_⟩
  · rw [(Path.sort_perm _).mem_iff, mem_found_iff]
  · rw [collect, collectPast_eq hd' (hr.legible hl), sort_found_of_relists hr ht]

/-- The directory `src` holds source files next to a link and to what is no source file; the file beside it
has the greater path though not the greater text. -/
private def sampleItems : List Child :=
  [.mk ⟨"src.ts", rfl⟩ (.file (.error .permissionDenied)),
    .mk ⟨".cache", rfl⟩ (.directory (.mk { list := .error .permissionDenied } [])),
    .mk ⟨"src", rfl⟩ (.directory (.of [.mk ⟨"a.d.ts", rfl⟩ (.file (.ok .empty)),
      .mk ⟨"b.js", rfl⟩ (.file (.ok .empty)), .mk ⟨"up", rfl⟩ (.link ".."),
      .mk ⟨"null", rfl⟩ (.special (.ok .empty))]))]

theorem collect_directory_sample :
    let fs : FileSystem := .of ⟨.of sampleItems, rfl⟩ (.ok [])
    let fs' : FileSystem := .of ⟨.of sampleItems.reverse, rfl⟩ (.ok [])
    fs.entry "." = .ok (.directory (.of sampleItems)) ∧
      (Directory.of sampleItems).Legible isSkippedDirectory "." ∧
      fs.collect .standard "." = .ok ["./src/b.js", "./src.ts"] ∧
      fs'.collect .standard "." = .ok ["./src/b.js", "./src.ts"] ∧
      Path.Precedes "./src/b.js" "./src.ts" := by
  intro fs fs'
  have hd : fs.entry "." = .ok (.directory (.of sampleItems)) := by cbv
  have hd' : fs'.entry "." = .ok (.directory (.of sampleItems.reverse)) := by cbv
  have hwalk : (Directory.of sampleItems).sources isSkippedDirectory "." =
      .ok ["./src.ts", "./src/b.js"] := by
    cbv
  have hl := ((Directory.sources_eq_ok_iff _ _).mp hwalk).1
  have hfiles : fs.collect .standard "." = .ok ["./src/b.js", "./src.ts"] := by cbv
  obtain ⟨files, hcollect, -, hsorted, -, hother⟩ := collect_directory hd hl .standard
  obtain rfl := Except.ok.inj (hfiles.symm.trans hcollect)
  exact ⟨hd, hl, hfiles, hother fs' _ (.of_perm (List.reverse_perm sampleItems).symm) hd',
    List.rel_of_pairwise_cons hsorted List.mem_cons_self⟩

end FileSystem

namespace FileName

/-- The bytes of the name begin like a name of that kind, whether it is a text or not. -/
private def BeginsSkipped (name : FileName) : Prop :=
  name.text.bytes.head? = some '.'.toUInt8 ∨
    ∃ text ∈ ["node_modules", "dist", "build", "coverage"], name.text = .ofString text

/-- The bytes of the name end like a source file, whether it is a text or not. -/
private def EndsAsSource (name : FileName) : Prop :=
  (¬ (SystemText.ofString ".d.ts").bytes <:+ name.text.bytes) ∧
    ∃ stem : SystemText, ∃ extension ∈ SourceFile.extensions,
      stem ≠ "" ∧ name.text = stem ++ "." ++ SystemText.ofString extension

end FileName

namespace FileSystem

private def hidden : FileName := ⟨⟨[0x2e, 0xff]⟩, rfl⟩

private def source : FileName := ⟨⟨[0xff, 0x2e, 0x6a, 0x73]⟩, rfl⟩

/-- A directory whose name begins with a dot, and a file whose name ends like a source file. Neither name
is a text. -/
private def undecodable : Tree :=
  ⟨.of [.mk hidden (.directory (.of [.mk ⟨"a.js", rfl⟩ (.file (.ok .empty))])),
    .mk source (.file (.ok .empty))], rfl⟩

private def slashes (n : Nat) : SystemText :=
  ⟨List.replicate n Path.slash⟩

private theorem lt_length_join_slashes (n : Nat) (name : FileName) :
    n < (Path.join (slashes n) name.text).bytes.length := by
  have hname : 0 < name.text.bytes.length := List.length_pos_iff.mpr name.bytes_ne_nil
  have hs : (slashes n).bytes.length = n := List.length_replicate
  rw [name.join_text, SystemText.bytes_append, SystemText.bytes_append, List.length_append,
    List.length_append, hs]
  omega

private theorem parts_slashes (n : Nat) :
    Path.parts (slashes n) = List.replicate (n + 1) (SystemText.ofString "") := by
  induction n with
  | zero => rfl
  | succ n ih =>
    have hs : Path.splitSlashes (slashes (n + 1)).bytes = [] :: Path.splitSlashes (slashes n).bytes :=
      if_pos rfl
    rw [Path.parts, hs, List.map_cons, List.replicate_succ]
    exact congrArg _ ih

private theorem follow_replicate_empty {r : Reach} {d : Directory} (h : r.entry = .directory d)
    (n : Nat) : r.follow (List.replicate n (SystemText.ofString "")) = .ok r.entry := by
  induction n with
  | zero => exact Reach.follow_nil r
  | succ n ih =>
    rw [List.replicate_succ, Reach.follow_of_next (Reach.next_empty h), List.nil_append, ih]

/-- As many slashes as a path may have lead to the root. -/
private theorem entry_slashes (fs : FileSystem) :
    fs.entry (slashes maxPathBytes) = .ok (.directory fs.root) := by
  have hr : ¬ Refused (slashes maxPathBytes) := by
    rintro (hc | he | hl)
    · have hz := List.eq_of_mem_replicate (List.contains_iff_mem.mp hc)
      exact absurd hz (by decide)
    · have hb : maxPathBytes = 0 := by simpa [slashes] using congrArg (·.bytes.length) he
      cases hb
    · simp [slashes] at hl
  have hs : fs.start (slashes maxPathBytes) = .ok ([], fs.root) := if_pos rfl
  rw [entry_of_not_refused hr, hs, parts_slashes]
  exact follow_replicate_empty rfl _

/-- The path of a file of which all names are as they have to be, byte by byte. -/
private def IsFoundByBytes (path : SystemText) (d : Directory) (file : SystemText) : Prop :=
  ∃ above name content, file = Path.below path (above ++ [name]) ∧
    LeadsTo d (above ++ [name]) (.file content) ∧
    (∀ directory ∈ above, ¬ directory.BeginsSkipped) ∧ name.EndsAsSource ∧
    ∀ glob ∈ Exclude.standard.globs, glob.isMatch file.shown = false

/-- A directory is entered though its name begins with a dot, a file is left out though its name ends like
that of a source file, and nothing is collected from a path that is as long as a path may be. -/
theorem collect_undecodable :
    let fs : FileSystem := .of undecodable (.ok [])
    let files := [Path.below "." [hidden, ⟨"a.js", rfl⟩]]
    fs.entry "." = .ok (.directory undecodable.root) ∧
      undecodable.root.Legible isSkippedDirectory "." ∧ fs.collect .standard "." = .ok files ∧
      (∃ file ∈ files, ¬ IsFoundByBytes "." undecodable.root file) ∧
      (∃ file ∉ files, IsFoundByBytes "." undecodable.root file) ∧
      fs.entry (slashes maxPathBytes) = .ok (.directory undecodable.root) ∧
      ∃ fault, fs.collect .standard (slashes maxPathBytes) = .error fault := by
  intro fs files
  have hd : fs.entry "." = .ok (.directory undecodable.root) := by cbv
  have hwalk : undecodable.root.sources isSkippedDirectory "." = .ok files := by cbv
  have hlong := entry_slashes fs
  refine ⟨hd, ((Directory.sources_eq_ok_iff _ _).mp hwalk).1, by cbv, ?_, ?_, hlong, ?_⟩
  · refine ⟨_, List.mem_singleton_self _, ?_⟩
    rintro ⟨above, name, content, hfile, -, hnames, -⟩
    have hnames' := Path.components_below_injective "." (congrArg Path.components hfile)
    obtain rfl : above = [hidden] := by
      have h := congrArg List.dropLast hnames'
      simpa using h.symm
    exact hnames hidden (List.mem_singleton_self _) (.inl rfl)
  · refine ⟨Path.below "." [source], ?_, [], source, .ok .empty, rfl, .last ?_,
      List.forall_mem_nil _, ⟨?_, ⟨[0xff]⟩, "js", by decide, by decide, rfl⟩, ?_⟩
    · decide
    · exact List.mem_cons_of_mem _ List.mem_cons_self
    · decide
    · decide
  · cases hc : fs.collect .standard (slashes maxPathBytes) with
    | error fault => exact ⟨fault, rfl⟩
    | ok files =>
      obtain ⟨hl, -⟩ := (collectPast_eq_ok_iff hlong).mp hc
      obtain ⟨-, hall⟩ := Directory.legible_iff.mp hl
      obtain ⟨htell, -⟩ := hall _ (List.mem_cons_of_mem _ List.mem_cons_self)
      exact absurd (lt_length_join_slashes maxPathBytes source) (lookUp_eq_ok_iff.mp htell).1

end FileSystem

end SideEffectLint
