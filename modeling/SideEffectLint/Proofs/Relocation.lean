import Mathlib
import SideEffectLint.Proofs.Collect
import SideEffectLint.Proofs.Globs

/-! What the place of a tree has to do with the files that are found in it. The standard excludes look at
the path of the tree and at the paths inside of it, each by itself. But the walk comes before them: what keeps
it from reading on is a fault, be it in a tree of which all files are left out. -/

namespace SideEffectLint

section Separator

variable {α : Type} {c : α} {piece as bs : List α}

private theorem prefix_append_separator_iff (h : c ∉ piece.dropLast) :
    piece <+: as ++ c :: bs ↔ piece <+: as ++ [c] := by
  induction piece generalizing as with
  | nil => exact iff_of_true List.nil_prefix List.nil_prefix
  | cons x piece ih =>
    cases as with
    | nil =>
      rw [List.nil_append, List.nil_append, List.cons_prefix_cons, List.cons_prefix_cons]
      cases piece with
      | nil => exact and_congr_right fun _ => iff_of_true List.nil_prefix List.nil_prefix
      | cons y piece =>
        have hx : x ≠ c := by
          rintro rfl
          exact h List.mem_cons_self
        exact iff_of_false (fun hp => hx hp.1) (fun hp => hx hp.1)
    | cons a as =>
      have htail : c ∉ piece.dropLast := by
        intro hm
        apply h
        cases piece with
        | nil => cases hm
        | cons y piece => exact List.mem_cons_of_mem x hm
      rw [List.cons_append, List.cons_append, List.cons_prefix_cons, List.cons_prefix_cons,
        ih htail]

/-- No such piece goes on over a separator. -/
theorem infix_append_separator_iff (h : c ∉ piece.tail.dropLast) :
    piece <:+: as ++ c :: bs ↔ piece <:+: as ++ [c] ∨ piece <:+: c :: bs := by
  induction as with
  | nil =>
    have hc : [c] <:+: c :: bs := ⟨[], bs, rfl⟩
    exact (or_iff_right_of_imp fun hp => hp.trans hc).symm
  | cons a as ih =>
    have hp : piece <+: a :: (as ++ c :: bs) ↔ piece <+: a :: (as ++ [c]) := by
      cases piece with
      | nil => exact iff_of_true List.nil_prefix List.nil_prefix
      | cons x piece =>
        rw [List.tail_cons] at h
        rw [List.cons_prefix_cons, List.cons_prefix_cons, prefix_append_separator_iff h]
    rw [List.cons_append, List.cons_append, List.infix_cons_iff, hp, ih, ← or_assoc,
      ← List.infix_cons_iff]

end Separator

namespace Exclude

private theorem standard_keeps_append (base text : String) :
    standard.keeps (base ++ "/" ++ text) =
      (standard.keeps (base ++ "/") && standard.keeps text) := by
  have hpieces : ∀ piece ∈ pieces, '/' ∉ piece.toList.tail.dropLast := by decide
  have hiff : standard.keeps (base ++ "/" ++ text) = false ↔
      standard.keeps (base ++ "/") = false ∨ standard.keeps text = false := by
    rw [standard_keeps_eq_false_iff, standard_keeps_eq_false_iff, standard_keeps_eq_false_iff,
      ← exists_or]
    refine exists_congr fun piece => ?_
    rw [← and_or_left]
    refine and_congr_right fun hm => ?_
    have hs : '/' :: (base ++ "/" ++ text).toList = ('/' :: base.toList) ++ '/' :: text.toList := by
      simp
    have hb : '/' :: (base ++ "/").toList = ('/' :: base.toList) ++ ['/'] := by simp
    rw [hs, hb]
    exact infix_append_separator_iff (hpieces piece hm)
  rw [← Bool.and_eq_false_iff] at hiff
  rwa [Bool.coe_false_iff_false, Bool.not_inj_iff] at hiff

end Exclude

namespace Path

/-- A path as seen from a directory above it: at least one name. -/
def IsRelative (path : SystemText) : Prop :=
  ∃ (name : FileName) (names : List FileName), path = below name.text names

private theorem below_join {path : SystemText} (hp : path.bytes ≠ []) (ha : isAbsolute path = false)
    (names : List FileName) : isAbsolute (below path names) = false ∧
      ∀ base, below (join base path) names = join base (below path names) := by
  induction names generalizing path with
  | nil => exact ⟨ha, fun _ => rfl⟩
  | cons name names ih =>
    have hname := name.isAbsolute_text
    have hj : isAbsolute (join path name.text) = false := by
      rw [isAbsolute_join hp, hname, ha, Bool.or_self]
    have hne : (join path name.text).bytes ≠ [] := by
      rw [name.join_text, SystemText.bytes_append]
      exact List.append_ne_nil_of_right_ne_nil _ name.bytes_ne_nil
    obtain ⟨hrest, heq⟩ := ih hne hj
    refine ⟨hrest, fun base => ?_⟩
    rw [below_cons, join_assoc hp ha hname, heq, below_cons]

variable {path : SystemText}

private theorem IsRelative.isAbsolute_eq (h : IsRelative path) : isAbsolute path = false := by
  obtain ⟨name, names, rfl⟩ := h
  exact (below_join name.bytes_ne_nil name.isAbsolute_text names).1

theorem below_eq_join (base : SystemText) (name : FileName) (names : List FileName) :
    below base (name :: names) = join base (below name.text names) :=
  (below_join name.bytes_ne_nil name.isAbsolute_text names).2 base

private theorem components_join_relative (h : IsRelative path) (base : SystemText) :
    components (join base path) = components base ++ components path := by
  obtain ⟨name, names, rfl⟩ := h
  rw [← below_eq_join, components_below, components_below, name.components_text, List.map_cons]
  rfl

/-- Paths keep their order when they are seen from elsewhere. -/
theorem sort_map_join {paths : List SystemText} (h : ∀ path ∈ paths, IsRelative path)
    (base : SystemText) : sort (paths.map (join base)) = (sort paths).map (join base) := by
  refine (List.map_mergeSort fun a ha b hb => ?_).symm
  rw [le, le, components_join_relative (h a ha), components_join_relative (h b hb),
    compare_append_left]

end Path

namespace Exclude

theorem standard_keeps_join {base path : SystemText} (hb : base.bytes ≠ [])
    (hp : Path.IsRelative path) : standard.keeps (Path.join base path).shown =
      (standard.keeps (base.shown ++ "/") && standard.keeps path.shown) := by
  rw [Path.shown_join hp.isAbsolute_eq, Path.separator]
  split
  · rename_i h
    obtain ⟨front, rfl⟩ := Path.exists_eq_append_slash (h.resolve_left hb)
    have hfront : (front ++ SystemText.ofString "/").shown = front.shown ++ "/" := by
      have hs := SystemText.shown_append_slash front ""
      rw [SystemText.append_empty] at hs
      rw [hs, SystemText.shown_ofString, String.append_empty]
    have hslash : standard.keeps "/" = true := by decide
    rw [SystemText.shown_ofString, String.append_empty, hfront, standard_keeps_append,
      standard_keeps_append, hslash, Bool.and_true]
  · rw [SystemText.shown_ofString, standard_keeps_append]

end Exclude

namespace FileSystem

variable {fs : FileSystem} {root : SystemText} {d d' : Directory} {skips : String → Bool}

theorem exists_eq_cons_of_mem_chains {names : List FileName} (hn : names ∈ d.chains skips) :
    ∃ name more, names = name :: more := by
  obtain ⟨above, inner, name, content, rfl, -⟩ := Directory.mem_chains_iff.mp hn
  cases above with
  | nil => exact ⟨name, [], rfl⟩
  | cons first above => exact ⟨first, above ++ [name], rfl⟩

private theorem isRelative_of_mem_chains {names : List FileName} (hn : names ∈ d.chains skips) :
    Path.IsRelative (Path.below "" names) ∧
      ∀ base, Path.below base names = Path.join base (Path.below "" names) := by
  obtain ⟨name, more, rfl⟩ := exists_eq_cons_of_mem_chains hn
  have hself : Path.below "" (name :: more) = Path.below name.text more := by
    rw [Path.below_cons, name.join_text]
    rfl
  rw [hself]
  exact ⟨⟨name, more, rfl⟩, fun base => Path.below_eq_join base name more⟩

private theorem isRelative_of_mem_found {exclude : Exclude} {file : SystemText}
    (hf : file ∈ found skips exclude "" d) : Path.IsRelative file := by
  obtain ⟨names, hn, rfl⟩ := List.mem_map.mp (List.mem_filter.mp hf).1
  exact (isRelative_of_mem_chains hn).1

/-- The files of a tree are the same as seen from it, if its own path is not left out. -/
theorem found_standard (hr : root.bytes ≠ []) : found skips .standard root d =
    if Exclude.standard.keeps (root.shown ++ "/") then
      (found skips .standard "" d).map (Path.join root)
    else [] := by
  have hall : (d.chains skips).map (Path.below root) =
      ((d.chains skips).map (Path.below "")).map (Path.join root) := by
    rw [List.map_map]
    exact List.map_congr_left fun names hn => (isRelative_of_mem_chains hn).2 root
  have hkeeps : ∀ file ∈ (d.chains skips).map (Path.below ""),
      Exclude.standard.keeps (Path.join root file).shown =
        (Exclude.standard.keeps (root.shown ++ "/") && Exclude.standard.keeps file.shown) := by
    intro file hf
    obtain ⟨names, hn, rfl⟩ := List.mem_map.mp hf
    exact Exclude.standard_keeps_join hr (isRelative_of_mem_chains hn).1
  rw [found, found, hall, List.filter_map]
  split
  · rename_i hk
    refine congrArg (List.map (Path.join root)) (List.filter_congr fun file hf => ?_)
    rw [Function.comp_apply, hkeeps file hf, hk, Bool.true_and]
  · rename_i hk
    rw [List.map_eq_nil_iff, List.filter_eq_nil_iff]
    intro file hf
    rw [Function.comp_apply, hkeeps file hf, Bool.eq_false_iff.mpr hk]
    exact Bool.false_ne_true

/-- What is collected from a tree, whose directories may list what they hold in another order. -/
theorem collect_standard (hd : fs.entry root = .ok (.directory d')) (hr : d'.Relists d)
    (hl : d'.Legible isSkippedDirectory root) :
    fs.collect .standard root = .ok (if Exclude.standard.keeps (root.shown ++ "/") then
      (Path.sort (found isSkippedDirectory .standard "" d)).map (Path.join root) else []) := by
  have hne : root.bytes ≠ [] := fun h =>
    not_refused_of_entry hd (.inr (.inl (SystemText.bytes_inj.mp h)))
  rw [collect, collectPast_eq hd hl, ← sort_found_of_relists hr (isTree_of_entry hd),
    found_standard hne]
  split
  · rw [Path.sort_map_join fun file hf => isRelative_of_mem_found hf]
  · rw [Path.sort, List.mergeSort_nil]

/-- What can be read at one place can be read at another one, unless a path becomes too long there. -/
theorem legible_of_short {path path' : SystemText} (hl : d.Legible skips path)
    (hs : ∀ names inner name e, Enters skips d names inner → .mk name e ∈ inner.children →
      ¬ maxPathBytes < (Path.below path' (names ++ [name])).bytes.length) :
    d.Legible skips path' where
  lists := hl.lists
  reads := hl.reads
  tells := fun names inner name e h hm =>
    lookUp_eq_ok_iff.mpr ⟨hs names inner name e h hm,
      (lookUp_eq_ok_iff.mp (hl.tells names inner name e h hm)).2⟩

/-- Where the walk is kept from reading on, nothing is collected. -/
theorem exists_fault_of_not_legible (hd : fs.entry root = .ok (.directory d))
    (hl : ¬ d.Legible isSkippedDirectory root) (exclude : Exclude) :
    ∃ fault, fs.collect exclude root = .error fault := by
  cases hc : fs.collect exclude root with
  | error fault => exact ⟨fault, rfl⟩
  | ok files => exact absurd ((collectPast_eq_ok_iff hd).mp hc).1 hl

/-- The standard excludes keep a path behind a slash just if they keep both of its parts. So a tree has the
same files, in the same order, at any two paths that are not left out when a slash is put behind them,
and none at a path that is, whatever the tree holds; the listings of its directories may differ. Where
something keeps the walk from reading on, that is a fault, also at a path that is left out; it is nothing in
the path but its length that does. -/
theorem collect_relocated :
    (∀ base text : String, Exclude.standard.keeps (base ++ "/" ++ text) =
        (Exclude.standard.keeps (base ++ "/") && Exclude.standard.keeps text)) ∧
      ∀ (fs fs' : FileSystem) (root root' : SystemText) (d d' : Directory),
        fs.entry root = .ok (.directory d) → fs'.entry root' = .ok (.directory d') → d.Relists d' →
        (d.Legible isSkippedDirectory root → d'.Legible isSkippedDirectory root' →
          Exclude.standard.keeps (root.shown ++ "/") = true →
          Exclude.standard.keeps (root'.shown ++ "/") = true →
          ∃ relative : List SystemText, (∀ file ∈ relative, Path.IsRelative file) ∧
            fs.collect .standard root = .ok (relative.map (Path.join root)) ∧
            fs'.collect .standard root' = .ok (relative.map (Path.join root'))) ∧
        (d.Legible isSkippedDirectory root → Exclude.standard.keeps (root.shown ++ "/") = false →
          fs.collect .standard root = .ok []) ∧
        (¬ d.Legible isSkippedDirectory root → ∃ fault, fs.collect .standard root = .error fault) ∧
        (d.Legible isSkippedDirectory root →
          (∀ names inner name e, Enters isSkippedDirectory d' names inner →
            .mk name e ∈ inner.children →
            ¬ maxPathBytes < (Path.below root' (names ++ [name])).bytes.length) →
          d'.Legible isSkippedDirectory root') := by
  refine ⟨Exclude.standard_keeps_append, ?_⟩
  intro fs fs' root root' d d' hd hd' hr
  refine ⟨fun hl hl' hk hk' => ?_, fun hl hk => ?_, fun hl => ?_, fun hl hs => ?_⟩
  · refine ⟨Path.sort (found isSkippedDirectory .standard "" d), ?_, ?_, ?_⟩
    · intro file hf
      exact isRelative_of_mem_found ((Path.sort_perm _).mem_iff.mp hf)
    · rw [collect_standard hd (.refl d) hl, if_pos hk]
    · rw [collect_standard hd' hr.symm hl', if_pos hk']
  · rw [collect_standard hd (.refl d) hl, if_neg (Bool.eq_false_iff.mp hk)]
  · exact exists_fault_of_not_legible hd hl .standard
  · exact legible_of_short (hr.legible hl) hs

/-- A directory with a file of its own and a test. -/
private def project : Directory :=
  .of [.mk ⟨"d", rfl⟩ (.directory (.of [.mk ⟨"f.test.js", rfl⟩ (.file (.ok .empty)),
      .mk ⟨"e.ts", rfl⟩ (.file (.ok .empty))])),
    .mk ⟨"top", rfl⟩ (.link "..")]

private def turned : Directory :=
  .of project.children.reverse

/-- A directory in which another one cannot be listed. -/
private def shut : Directory :=
  .of [.mk ⟨"in", rfl⟩ (.directory (.mk { list := .error .permissionDenied } []))]

/-- The project at three places, at one of them with its items in another order. -/
private def copies : FileSystem :=
  .of ⟨.of [.mk ⟨"a", rfl⟩ (.directory project),
    .mk ⟨"b", rfl⟩ (.directory (.of [.mk ⟨"c", rfl⟩ (.directory turned)])),
    .mk ⟨"__mocks__", rfl⟩ (.directory project), .mk ⟨"shut", rfl⟩ (.directory shut)], rfl⟩ (.ok [])

theorem collect_relocated_copies :
    copies.entry "a/" = .ok (.directory project) ∧ copies.entry "/b/c" = .ok (.directory turned) ∧
      copies.entry "__mocks__" = .ok (.directory project) ∧
      copies.entry "shut" = .ok (.directory shut) ∧ project.Relists turned ∧
      (∃ relative : List SystemText, relative.length = 1 ∧
        copies.collect .standard "a/" = .ok (relative.map (Path.join "a/")) ∧
        copies.collect .standard "/b/c" = .ok (relative.map (Path.join "/b/c"))) ∧
      copies.collect .standard "__mocks__" = .ok [] ∧
      ∃ fault, copies.collect .standard "shut" = .error fault := by
  have hfirst : copies.entry "a/" = .ok (.directory project) := by cbv
  have hother : copies.entry "/b/c" = .ok (.directory turned) := by cbv
  have hmocks : copies.entry "__mocks__" = .ok (.directory project) := by cbv
  have hshut : copies.entry "shut" = .ok (.directory shut) := by cbv
  have hlisted : project.Relists turned := .of_perm (List.reverse_perm _).symm
  have hwalk : project.sources isSkippedDirectory "a/" =
      .ok ["a/d/f.test.js", "a/d/e.ts"] := by cbv
  have hwalk' : turned.sources isSkippedDirectory "/b/c" =
      .ok ["/b/c/d/f.test.js", "/b/c/d/e.ts"] := by cbv
  have hwalkMocks : project.sources isSkippedDirectory "__mocks__" =
      .ok ["__mocks__/d/f.test.js", "__mocks__/d/e.ts"] := by cbv
  have hwalkShut : shut.sources isSkippedDirectory "shut" =
      .error (.unreadable "shut/in" .permissionDenied) := by cbv
  have hl := ((Directory.sources_eq_ok_iff _ _).mp hwalk).1
  have hl' := ((Directory.sources_eq_ok_iff _ _).mp hwalk').1
  have hlMocks := ((Directory.sources_eq_ok_iff _ _).mp hwalkMocks).1
  have hlShut : ¬ shut.Legible isSkippedDirectory "shut" := by
    intro h
    rw [(Directory.sources_eq_ok_iff _ _).mpr ⟨h, rfl⟩] at hwalkShut
    cases hwalkShut
  obtain ⟨hsame, -, -, -⟩ :=
    collect_relocated.2 copies copies "a/" "/b/c" project turned hfirst hother hlisted
  obtain ⟨-, hnone, -, -⟩ :=
    collect_relocated.2 copies copies "__mocks__" "/b/c" project turned hmocks hother hlisted
  obtain ⟨-, -, hfault, -⟩ :=
    collect_relocated.2 copies copies "shut" "shut" shut shut hshut hshut (.refl shut)
  obtain ⟨relative, -, hrelative, hmoved⟩ := hsame hl hl' (by cbv) (by cbv)
  have hfiles : copies.collect .standard "a/" = .ok ["a/d/e.ts"] := by cbv
  have hone : relative.map (Path.join "a/") = ["a/d/e.ts"] :=
    Except.ok.inj (hrelative.symm.trans hfiles)
  have hlength : relative.length = 1 := by
    have h := congrArg List.length hone
    rwa [List.length_map] at h
  exact ⟨hfirst, hother, hmocks, hshut, hlisted, ⟨relative, hlength, hrelative, hmoved⟩,
    hnone hlMocks (by cbv), hfault hlShut⟩

/-- A directory under `__mocks__`, of which all files are left out, cannot be listed. -/
theorem collect_excluded_closed :
    let fs : FileSystem := .of ⟨.of [.mk ⟨"__mocks__", rfl⟩ (.directory shut)], rfl⟩ (.ok [])
    fs.entry "__mocks__" = .ok (.directory shut) ∧
      Exclude.standard.keeps ((SystemText.ofString "__mocks__").shown ++ "/") = false ∧
      fs.collect .standard "__mocks__" =
        .error (.unreadable "__mocks__/in" .permissionDenied) ∧
      fs.collect .standard "__mocks__" ≠ .ok [] := by
  intro fs
  have hfault : fs.collect .standard "__mocks__" =
      .error (.unreadable "__mocks__/in" .permissionDenied) := by cbv
  refine ⟨by cbv, by cbv, hfault, ?_⟩
  rw [hfault]
  intro h
  cases h

end FileSystem

end SideEffectLint
