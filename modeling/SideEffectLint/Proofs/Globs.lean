import Mathlib.Data.List.Infix
import SideEffectLint.Path.Exclude

/-! What patterns for paths mean, and which paths the standard excludes leave out: those with the mark of a
test anywhere in them, and those that lead through certain directories. -/

namespace SideEffectLint

/-- The texts that a part of a pattern stands for. -/
inductive GlobPart.Stands : GlobPart → List Char → Prop
  | char (c : Char) : Stands (.char c) [c]
  | anything (cs : List Char) : Stands .anything cs
  | nowhere : Stands .directories []
  | below (cs : List Char) : Stands .directories (cs ++ ['/'])

/-- The text is put together from texts that the parts stand for. -/
inductive Glob.Matches : List GlobPart → List Char → Prop
  | nil : Matches [] []
  | cons {part : GlobPart} {parts : List GlobPart} {text rest : List Char} (hp : part.Stands text)
    (hr : Matches parts rest) : Matches (part :: parts) (text ++ rest)

namespace Glob

variable {parts : List GlobPart} {cs ds chars : List Char}

private theorem mem_tails_iff : ds ∈ tails cs ↔ ds <:+ cs := by
  induction cs with
  | nil => simp [tails]
  | cons c cs ih => rw [tails, List.mem_cons, ih, List.suffix_cons_iff]

private theorem mem_tailsAfterSlash_iff : ds ∈ tailsAfterSlash cs ↔ '/' :: ds <:+ cs := by
  induction cs with
  | nil => simp [tailsAfterSlash]
  | cons c cs ih =>
    rw [tailsAfterSlash, List.suffix_cons_iff, List.cons.injEq, ← ih]
    split
    · rename_i hc
      simp [hc]
    · rename_i hc
      simp [Ne.symm hc]

private theorem matches_of_accepts (h : accepts parts cs = true) : Matches parts cs := by
  induction parts generalizing cs with
  | nil =>
    obtain rfl := List.isEmpty_iff.mp h
    exact .nil
  | cons part parts ih =>
    cases part with
    | char p =>
      cases cs with
      | nil => cases h
      | cons c cs =>
        rw [accepts, Bool.and_eq_true, decide_eq_true_iff] at h
        obtain ⟨rfl, h⟩ := h
        exact .cons (.char c) (ih h)
    | anything =>
      obtain ⟨rest, hm, hrest⟩ := List.any_eq_true.mp h
      obtain ⟨text, rfl⟩ := mem_tails_iff.mp hm
      exact .cons (.anything text) (ih hrest)
    | directories =>
      obtain ⟨rest, hm, hrest⟩ := List.any_eq_true.mp h
      rcases List.mem_cons.mp hm with rfl | hm
      · exact .cons .nowhere (ih hrest)
      · obtain ⟨text, rfl⟩ := mem_tailsAfterSlash_iff.mp hm
        rw [List.append_cons]
        exact .cons (.below text) (ih hrest)

private theorem accepts_of_matches (h : Matches parts cs) : accepts parts cs = true := by
  induction h with
  | nil => rfl
  | @cons part parts text rest hp _ ih =>
    cases hp with
    | char c =>
      rw [List.singleton_append, accepts, ih, Bool.and_true, decide_eq_true_iff]
    | anything =>
      have hm : rest ∈ tails (text ++ rest) := mem_tails_iff.mpr (List.suffix_append text rest)
      exact List.any_eq_true.mpr ⟨rest, hm, ih⟩
    | nowhere => exact List.any_eq_true.mpr ⟨rest, List.mem_cons_self, ih⟩
    | below text =>
      have hm : rest ∈ tailsAfterSlash (text ++ ['/'] ++ rest) := by
        rw [mem_tailsAfterSlash_iff, ← List.append_cons]
        exact List.suffix_append text ('/' :: rest)
      exact List.any_eq_true.mpr ⟨rest, List.mem_cons_of_mem _ hm, ih⟩

private theorem isMatch_iff_matches {g : Glob} {path : String} :
    g.isMatch path = true ↔ Matches g.parts path.toList :=
  ⟨matches_of_accepts, accepts_of_matches⟩

/-- The text starts with the characters. -/
theorem matches_start_iff : Matches (chars.map .char ++ [.anything]) cs ↔ chars <+: cs := by
  induction chars generalizing cs with
  | nil =>
    have h := Matches.cons (.anything cs) .nil
    rw [List.append_nil] at h
    exact iff_of_true h List.nil_prefix
  | cons c chars ih =>
    constructor
    · rintro (_ | ⟨⟨⟩, h⟩)
      exact List.cons_prefix_cons.mpr ⟨rfl, ih.mp h⟩
    · intro h
      obtain ⟨rest, rfl⟩ := h
      have hr := ih.mpr (List.prefix_append chars rest)
      have hm := Matches.cons (.char c) hr
      exact hm

/-- The characters stand in the text. -/
theorem matches_anywhere_iff :
    Matches (.directories :: .anything :: (chars.map .char ++ [.anything])) cs ↔ chars <:+: cs := by
  constructor
  · rintro (_ | @⟨_, _, first, _, _, _ | @⟨_, _, second, _, _, h⟩⟩)
    obtain ⟨rest, rfl⟩ := matches_start_iff.mp h
    exact ⟨first ++ second, rest, by simp⟩
  · rintro ⟨first, rest, rfl⟩
    have h := matches_start_iff.mpr (List.prefix_append chars rest)
    have hm := Matches.cons .nowhere (.cons (.anything first) h)
    rwa [List.nil_append, ← List.append_assoc] at hm

/-- The characters stand at the start of the text or right behind a slash. -/
theorem matches_behind_slash_iff :
    Matches (.directories :: (chars.map .char ++ [.anything])) cs ↔
      '/' :: chars <:+: '/' :: cs := by
  constructor
  · rintro (_ | ⟨hd, h⟩)
    obtain ⟨rest, rfl⟩ := matches_start_iff.mp h
    cases hd with
    | nowhere => exact ⟨[], rest, rfl⟩
    | below first => exact ⟨'/' :: first, rest, by simp⟩
  · intro h
    rcases List.infix_cons_iff.mp h with h | ⟨first, rest, rfl⟩
    · have hp := (List.cons_prefix_cons.mp h).2
      exact .cons .nowhere (matches_start_iff.mpr hp)
    · have h := matches_start_iff.mpr (List.prefix_append chars rest)
      have hm := Matches.cons (.below first) h
      rwa [List.append_assoc] at hm ⊢

end Glob

namespace Exclude

variable {e : Exclude} {path : String}

private theorem keeps_eq_false_iff :
    e.keeps path = false ↔ ∃ glob ∈ e.globs, Glob.Matches glob.parts path.toList := by
  rw [keeps, Bool.not_eq_false', List.any_eq_true]
  simp only [Glob.isMatch_iff_matches]

/-- What a path that is left out has in it when a slash is put in front: the mark of a test, or a directory
that is passed. -/
def pieces : List String :=
  [".spec.", ".test.", "/__tests__/", "/__mocks__/", "/node_modules/"]

private theorem parts_standard : standard.globs.map Glob.parts =
    ([".spec.", ".test."].map fun mark =>
      .directories :: .anything :: (mark.toList.map .char ++ [.anything])) ++
    ["__tests__/", "__mocks__/", "node_modules/"].map fun name =>
      .directories :: (name.toList.map .char ++ [.anything]) :=
  rfl

/-- A mark that starts with a dot cannot start at a slash. -/
private theorem infix_cons_slash_iff {cs ds : List Char} :
    '.' :: cs <:+: '/' :: ds ↔ '.' :: cs <:+: ds := by
  simp [List.infix_cons_iff, List.cons_prefix_cons]

/-- The standard excludes look for pieces of the path. -/
theorem standard_keeps_eq_false_iff : standard.keeps path = false ↔
    ∃ piece ∈ pieces, piece.toList <:+: '/' :: path.toList := by
  have hparts : standard.keeps path = false ↔
      ∃ parts ∈ standard.globs.map Glob.parts, Glob.Matches parts path.toList := by
    rw [keeps_eq_false_iff]
    simp only [List.mem_map, exists_exists_and_eq_and]
  rw [hparts, parts_standard, pieces]
  simp only [List.map_cons, List.map_nil, List.cons_append, List.nil_append, List.mem_cons,
    List.not_mem_nil, or_false, exists_eq_or_imp, exists_eq_left, Glob.matches_anywhere_iff,
    Glob.matches_behind_slash_iff]
  simp [infix_cons_slash_iff]

/-- A path is left out by the standard excludes if it has the mark of a test in it, be it in the name of a
directory, or if it leads through one of three directories, which may be its first component. -/
theorem keeps_standard_eq_false_iff (path : String) : standard.keeps path = false ↔
    ".spec.".toList <:+: path.toList ∨ ".test.".toList <:+: path.toList ∨
      ∃ name ∈ ["__tests__", "__mocks__", "node_modules"],
        (name ++ "/").toList <+: path.toList ∨ ("/" ++ name ++ "/").toList <:+: path.toList := by
  rw [standard_keeps_eq_false_iff, pieces]
  simp [List.infix_cons_iff, List.cons_prefix_cons]

/-- What is in such a directory is left out, its own path is not. -/
example : standard.keeps "src/__tests__" = true ∧ standard.keeps "src/__tests__/" = false := by
  decide

end Exclude

end SideEffectLint
