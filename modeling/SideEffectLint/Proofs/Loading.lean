import Mathlib
import SideEffectLint.Proofs.Consistency

/-! What has to be known of a tree to scan it. A walk passes over some directories, links and files that are
no source files, so that a tree in which these are empty gives the same report. -/

namespace SideEffectLint

mutual

/-- The entry without what no walk looks at. -/
def Entry.bare (name : FileName) : Entry → Entry
  | .file content =>
    .file (if name.isAmong SourceFile.isSupported then content else .ok .empty)
  | .directory d => .directory (if name.isAmong isSkippedDirectory then .of [] else d.bare)
  | .link _ => .link ""
  | .special _ => .special (.ok .empty)

def Directory.bare : Directory → Directory
  | .mk access children => .mk access (Child.bare children)

def Child.bare : List Child → List Child
  | [] => []
  | .unread fault :: cs => .unread fault :: Child.bare cs
  | .mk name e :: cs => .mk name (e.bare name) :: Child.bare cs

end

mutual

private theorem Entry.sources_bare : ∀ (e : Entry) (path : SystemText) (name : FileName),
    (e.bare name).sources isSkippedDirectory path name = e.sources isSkippedDirectory path name
  | .file _, path, name | .link _, path, name | .special _, path, name => by
    simp only [Entry.bare, Entry.sources]
  | .directory d, path, name => by
    simp only [Entry.bare, Entry.sources]
    split
    · rfl
    · exact d.sources_bare path

private theorem Directory.sources_bare : ∀ (d : Directory) (path : SystemText),
    d.bare.sources isSkippedDirectory path = d.sources isSkippedDirectory path
  | .mk access children, path => by
    rw [Directory.bare, Directory.sources, Directory.sources, Child.sources_bare children]

private theorem Child.sources_bare : ∀ (cs : List Child) (path : SystemText) (access : Access),
    Child.sources isSkippedDirectory path access (Child.bare cs) =
      Child.sources isSkippedDirectory path access cs
  | [], _, _ => rfl
  | .unread fault :: cs, path, access => by
    rw [Child.bare, Child.sources, Child.sources]
  | .mk name e :: cs, path, access => by
    rw [Child.bare, Child.sources, Child.sources]
    simp only [e.sources_bare, Child.sources_bare cs]

end

variable {d inner : Directory} {name : FileName} {names : List FileName} {e : Entry}
  {cs : List Child}

private theorem Child.mk_bare_mem (h : .mk name e ∈ cs) : .mk name (e.bare name) ∈ Child.bare cs := by
  induction cs with
  | nil => cases h
  | cons c cs ih =>
    cases c with
    | unread fault =>
      rcases List.mem_cons.mp h with heq | h
      · cases heq
      · exact List.mem_cons_of_mem _ (ih h)
    | mk name' e' =>
      rcases List.mem_cons.mp h with heq | h
      · cases heq
        exact List.mem_cons_self
      · exact List.mem_cons_of_mem _ (ih h)

private theorem Directory.mk_bare_mem (h : .mk name e ∈ d.children) :
    .mk name (e.bare name) ∈ d.bare.children := by
  cases d
  exact Child.mk_bare_mem h

/-- What a walk enters is there in the tree without the rest. -/
theorem Enters.bare (h : Enters isSkippedDirectory d names inner) :
    Enters isSkippedDirectory d.bare names inner.bare := by
  induction h with
  | here => exact .here
  | inside hm hs _ ih =>
    have hm := Directory.mk_bare_mem hm
    rw [Entry.bare, if_neg hs] at hm
    exact .inside hm hs ih

namespace FileSystem

variable {fs fs' : FileSystem} {path file : SystemText} {exclude : Exclude}

/-- The path of a file that is found leads to the same text. -/
private theorem readText_bare (hd : fs.entry path = .ok (.directory d))
    (hd' : fs'.entry path = .ok (.directory d.bare)) (hl : d.Legible isSkippedDirectory path)
    (hf : file ∈ found isSkippedDirectory exclude path d) :
    fs'.readText file = fs.readText file := by
  obtain ⟨names, inner, name, content, rfl, h, hm, hs, -⟩ := mem_found_iff_enters.mp hf
  have hm' := Directory.mk_bare_mem hm
  rw [Entry.bare, if_pos hs] at hm'
  have hl' : d.bare.Legible isSkippedDirectory path :=
    ((d.bare.sources_eq_ok_iff _).mp ((d.sources_bare path).trans
      ((d.sources_eq_ok_iff _).mpr ⟨hl, rfl⟩))).1
  rw [readText, readText, entry_found hd hl h hm, entry_found hd' hl' h.bare hm']

/-- A tree without what no walk looks at has the same report, or the same fault. -/
theorem scan_bare (hd : fs.entry path = .ok (.directory d))
    (hd' : fs'.entry path = .ok (.directory d.bare)) (exclude : Exclude) :
    fs'.scan exclude path = fs.scan exclude path := by
  have hcollect : fs'.collect exclude path = fs.collect exclude path := by
    simp only [collect, collectPast, underPast, hd, hd', d.sources_bare]
  rw [scan, scan, hcollect]
  cases hc : fs.collect exclude path with
  | error fault => rfl
  | ok files =>
    obtain ⟨hl, rfl⟩ := (collectPast_eq_ok_iff hd).mp hc
    have hreport : fs'.scanFiles (Path.sort (found isSkippedDirectory exclude path d)) =
        fs.scanFiles (Path.sort (found isSkippedDirectory exclude path d)) := by
      apply scanFilesBy_congr
      intro file hf
      exact readText_bare hd hd' hl ((Path.sort_perm _).mem_iff.mp hf)
    exact congrArg Except.ok hreport

end FileSystem

end SideEffectLint
