import Mathlib
import SideEffectLint.Proofs.Relocation

/-! Directories with the code of others need not be entered. A walk that enters them finds files of which
the standard excludes leave out every one, so that both walks collect the same. -/

namespace SideEffectLint

/-- All but the directories with the code of others are passed over as on the walk that collects. -/
def isSkippedTool (name : String) : Bool :=
  isSkippedDirectory name && name != "node_modules"

variable {skips skips' : String → Bool} {d inner : Directory} {path file : SystemText}
  {names : List FileName} {name : FileName}

theorem Enters.imp (h : Enters skips d names inner)
    (hs : ∀ name ∈ names, name.isAmong skips' → name.isAmong skips) :
    Enters skips' d names inner := by
  induction h with
  | here => exact .here
  | inside hm hn _ ih =>
    obtain ⟨hname, hs⟩ := List.forall_mem_cons.mp hs
    exact .inside hm (mt hname hn) (ih hs)

private theorem isAmong_of_isSkippedTool (h : name.isAmong isSkippedTool) :
    name.isAmong isSkippedDirectory := by
  obtain ⟨text, hn, ht⟩ := FileName.isAmong_iff.mp h
  exact FileName.isAmong_iff.mpr ⟨text, hn, (Bool.and_eq_true_iff.mp ht).1⟩

private theorem isAmong_isSkippedTool_of_ne (hn : name.text ≠ "node_modules")
    (h : name.isAmong isSkippedDirectory) : name.isAmong isSkippedTool := by
  obtain ⟨text, hname, ht⟩ := FileName.isAmong_iff.mp h
  have hne : text ≠ "node_modules" := fun heq => hn (hname.trans (congrArg _ heq))
  exact FileName.isAmong_iff.mpr ⟨text, hname, Bool.and_eq_true_iff.mpr ⟨ht, bne_iff_ne.mpr hne⟩⟩

private theorem Enters.isSkippedTool (h : Enters isSkippedDirectory d names inner) :
    Enters isSkippedTool d names inner :=
  h.imp fun _ _ => isAmong_of_isSkippedTool

/-- Nothing keeps a walk from reading on that passes over more. -/
theorem Directory.Legible.of_isSkippedTool (h : d.Legible isSkippedTool path) :
    d.Legible isSkippedDirectory path where
  lists := fun names inner he => h.lists names inner he.isSkippedTool
  reads := fun names inner fault he => h.reads names inner fault he.isSkippedTool
  tells := fun names inner name e he => h.tells names inner name e he.isSkippedTool

private theorem Path.bytes_below_ne_nil {base : SystemText} (hb : base.bytes ≠ []) (names : List FileName) :
    (below base names).bytes ≠ [] := by
  induction names generalizing base with
  | nil => exact hb
  | cons name names ih =>
    rw [below_cons]
    apply ih
    rw [name.join_text, SystemText.bytes_append]
    exact List.append_ne_nil_of_right_ne_nil _ name.bytes_ne_nil

/-- The standard excludes leave out what is below a directory with the code of others. -/
theorem Exclude.keeps_below_modules {base : SystemText} (hb : base.bytes ≠ [])
    {modules : FileName} (hm : modules.text = "node_modules") (above more : List FileName)
    (name : FileName) :
    standard.keeps (Path.below base (above ++ modules :: more ++ [name])).shown = false := by
  obtain ⟨first, rest, hrest⟩ : ∃ first rest, more ++ [name] = first :: rest := by
    cases more with
    | nil => exact ⟨name, [], rfl⟩
    | cons first more => exact ⟨first, more ++ [name], rfl⟩
  have hmodules : standard.keeps "node_modules/" = false := by decide
  have hin : standard.keeps (Path.below modules.text (first :: rest)).shown = false := by
    rw [Path.below_eq_join, standard_keeps_join modules.bytes_ne_nil ⟨first, rest, rfl⟩, hm,
      SystemText.shown_ofString]
    exact Bool.and_eq_false_imp.mpr fun h => absurd h (ne_true_of_eq_false hmodules)
  rw [List.append_assoc, List.cons_append, hrest, Path.below_append, Path.below_eq_join,
    standard_keeps_join (Path.bytes_below_ne_nil hb above) ⟨modules, first :: rest, rfl⟩, hin,
    Bool.and_false]

namespace FileSystem

variable {fs : FileSystem}

/-- What is kept has been found on a way through no directory with the code of others. -/
theorem mem_found_isSkippedTool_iff (hp : path.bytes ≠ []) :
    file ∈ found isSkippedTool .standard path d ↔
      file ∈ found isSkippedDirectory .standard path d := by
  rw [mem_found_iff_enters, mem_found_iff_enters]
  constructor
  · rintro ⟨above, inner, name, content, rfl, he, hm, hs, hk⟩
    refine ⟨above, inner, name, content, rfl, he.imp fun other hother => ?_, hm, hs, hk⟩
    apply isAmong_isSkippedTool_of_ne
    intro hmodules
    obtain ⟨before, behind, rfl⟩ := List.append_of_mem hother
    rw [Exclude.keeps_below_modules hp hmodules] at hk
    cases hk
  · rintro ⟨above, inner, name, content, hfile, he, hm, hs, hk⟩
    exact ⟨above, inner, name, content, hfile, he.isSkippedTool, hm, hs, hk⟩

/-- To pass over directories named `node_modules` does not change what is collected under the standard
excludes, at any depth of a tree and for any path that leads to it: the walk that differs in this test
alone collects the same. -/
theorem collect_eq_collectPast (hd : fs.entry path = .ok (.directory d))
    (hl : d.Legible isSkippedTool path) :
    ∃ files, fs.collect .standard path = .ok files ∧
      fs.collectPast isSkippedTool .standard path = .ok files := by
  have ht : d.isTree = true := isTree_of_entry hd
  have hp : path.bytes ≠ [] := fun h =>
    not_refused_of_entry hd (.inr (.inl (SystemText.bytes_inj.mp h)))
  have hpruned := Path.pairwise_precedes_sort
    (nodup_components_found isSkippedDirectory ht .standard path)
  have hall := Path.pairwise_precedes_sort (nodup_components_found isSkippedTool ht .standard path)
  have heq : Path.sort (found isSkippedTool .standard path d) =
      Path.sort (found isSkippedDirectory .standard path d) := by
    refine hall.eq_of_mem_iff hpruned fun file => ?_
    rw [(Path.sort_perm _).mem_iff, (Path.sort_perm _).mem_iff, mem_found_isSkippedTool_iff hp]
  refine ⟨_, collectPast_eq hd hl.of_isSkippedTool .standard, ?_⟩
  rw [collectPast_eq hd hl, heq]

/-- Code of others, with a directory that cannot be listed and that no walk enters, in a directory beside a
file. -/
private def nested : Tree :=
  ⟨.of [.mk ⟨"lib", rfl⟩ (.directory (.of [.mk ⟨"node_modules", rfl⟩ (.directory (.of
      [.mk ⟨"used.js", rfl⟩ (.file (.ok .empty)),
        .mk ⟨"dist", rfl⟩ (.directory (.mk { list := .error .permissionDenied } []))]))])),
    .mk ⟨"c.ts", rfl⟩ (.file (.ok .empty))], rfl⟩

theorem collect_eq_collectPast_nested :
    let fs : FileSystem := .of nested (.ok [])
    fs.entry "/" = .ok (.directory nested.root) ∧ nested.root.Legible isSkippedTool "/" ∧
      nested.root.sources isSkippedTool "/" = .ok ["/lib/node_modules/used.js", "/c.ts"] ∧
      ∃ files, fs.collect .standard "/" = .ok files ∧
        fs.collectPast isSkippedTool .standard "/" = .ok files := by
  intro fs
  have hd : fs.entry "/" = .ok (.directory nested.root) := by cbv
  have hwalk : nested.root.sources isSkippedTool "/" =
      .ok ["/lib/node_modules/used.js", "/c.ts"] := by cbv
  have hl := ((Directory.sources_eq_ok_iff _ _).mp hwalk).1
  exact ⟨hd, hl, hwalk, collect_eq_collectPast hd hl⟩

end FileSystem

end SideEffectLint
