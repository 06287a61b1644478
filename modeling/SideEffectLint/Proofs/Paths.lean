import Mathlib.Data.List.Nodup
import SideEffectLint.Path.Basic
import SideEffectLint.Proofs.SystemText

/-! How paths are sorted and what joining does to them. Paths are ordered by their components, and those by
their bytes. -/

open Std

namespace SideEffectLint

section

variable {α β : Type} [Ord α] [Ord β]

theorem compare_append_left [ReflOrd α] (p x y : List α) :
    compare (p ++ x) (p ++ y) = compare x y := by
  induction p with
  | nil => rfl
  | cons a p ih =>
    rw [List.cons_append, List.cons_append, List.compare_cons_cons, ReflOrd.compare_self, ih]
    rfl

private theorem compare_map {f : α → β} (hf : ∀ a b, compare (f a) (f b) = compare a b) (xs ys : List α) :
    compare (xs.map f) (ys.map f) = compare xs ys := by
  induction xs generalizing ys with
  | nil => cases ys <;> rfl
  | cons x xs ih =>
    cases ys with
    | nil => rfl
    | cons y ys =>
      rw [List.map_cons, List.map_cons, List.compare_cons_cons, List.compare_cons_cons, hf, ih]

end

namespace Path

namespace Component

/-- The bytes that a component is compared by: what kind it is of, then its text. -/
def bytes : Component → List UInt8
  | root => [0]
  | current => [1]
  | parent => [2]
  | name text => 3 :: text.bytes

private theorem compare_name (s t : SystemText) : compare (name s) (name t) = compare s.bytes t.bytes :=
  Ordering.then_eq

private theorem compare_bytes (c d : Component) : compare c.bytes d.bytes = compare c d := by
  cases c <;> cases d
  case name.name s t =>
    rw [compare_name, bytes, bytes, List.compare_cons_cons, ReflOrd.compare_self]
    rfl
  all_goals rfl

instance : TransOrd Component where
  eq_swap {c d} := by
    rw [← compare_bytes, ← compare_bytes d]
    exact OrientedOrd.eq_swap
  isLE_trans {c d e} := by
    rw [← compare_bytes, ← compare_bytes d, ← compare_bytes c e]
    exact TransOrd.isLE_trans

instance : LawfulEqOrd Component where
  compare_self {c} := by
    rw [← compare_bytes, ReflOrd.compare_self]
  eq_of_compare {c d} h := by
    cases c <;> cases d
    case name.name s t =>
      rw [compare_name] at h
      exact congrArg name (SystemText.bytes_inj.mp (LawfulEqOrd.eq_of_compare h))
    all_goals first | rfl | cases h

end Component

/-- The path stands before another in the order of components, which are compared by their bytes. -/
def Precedes (a b : SystemText) : Prop :=
  compare ((components a).map Component.bytes) ((components b).map Component.bytes) = .lt

section

variable {a b : SystemText} {paths paths' : List SystemText}

private theorem precedes_iff : Precedes a b ↔ compare (components a) (components b) = .lt := by
  rw [Precedes, compare_map Component.compare_bytes]

theorem ne_of_precedes (h : Precedes a b) : a ≠ b := by
  rintro rfl
  rw [precedes_iff, ReflOrd.compare_self] at h
  cases h

instance : Asymm Precedes where
  asymm a b hab hba := by
    rw [precedes_iff] at hab hba
    rw [OrientedOrd.eq_swap, hba] at hab
    cases hab

theorem le_trans (a b c : SystemText) (hab : le a b) (hbc : le b c) : le a c :=
  TransOrd.isLE_trans hab hbc

private theorem le_total (a b : SystemText) : le a b || le b a := by
  unfold le
  rw [OrientedOrd.eq_swap (a := components b)]
  cases compare (components a) (components b) <;> rfl

private theorem components_eq_of_le (hab : le a b) (hba : le b a) : components a = components b :=
  LawfulEqOrd.eq_of_compare (OrientedCmp.isLE_antisymm hab hba)

private theorem precedes_of_le (h : le a b) (hn : components a ≠ components b) : Precedes a b := by
  rw [precedes_iff]
  unfold le at h
  cases hc : compare (components a) (components b) with
  | lt => rfl
  | eq => exact absurd (LawfulEqOrd.eq_of_compare hc) hn
  | gt =>
    rw [hc] at h
    cases h

private theorem pairwise_sort (paths : List SystemText) : (sort paths).Pairwise fun a b => le a b :=
  List.pairwise_mergeSort le_trans le_total paths

theorem sort_perm (paths : List SystemText) : (sort paths).Perm paths :=
  List.mergeSort_perm paths le

/-- Paths of different components are put into one strict order. -/
theorem pairwise_precedes_sort (h : (paths.map components).Nodup) :
    (sort paths).Pairwise Precedes := by
  have hn : ((sort paths).map components).Nodup := ((sort_perm paths).map components).nodup_iff.mpr h
  rw [List.Nodup, List.pairwise_map] at hn
  exact (pairwise_sort paths).imp₂ (fun _ _ => precedes_of_le) hn

/-- It does not matter in which order paths of different components were. -/
theorem sort_eq_of_perm (h : paths.Perm paths') (hn : (paths.map components).Nodup) :
    sort paths = sort paths' := by
  have hp := (sort_perm paths).trans (h.trans (sort_perm paths').symm)
  refine hp.eq_of_pairwise ?_ (pairwise_sort paths) (pairwise_sort paths')
  intro a b ha hb hab hba
  have ha := (sort_perm paths).mem_iff.mp ha
  have hb := h.mem_iff.mpr ((sort_perm paths').mem_iff.mp hb)
  exact List.inj_on_of_nodup_map hn ha hb (components_eq_of_le hab hba)

end

theorem isName_iff {text : SystemText} : isName text ↔
    text ≠ "" ∧ text ≠ "." ∧ text ≠ ".." ∧ slash ∉ text.bytes ∧ 0 ∉ text.bytes ∧
      text.bytes.length ≤ maxNameBytes := by
  simp [isName, and_assoc, eq_comm (b := text)]

private theorem splitSlashes_ne_nil (bs : List UInt8) : splitSlashes bs ≠ [] := by
  cases bs with
  | nil => exact List.cons_ne_nil _ _
  | cons b bs =>
    rw [splitSlashes]
    split
    · exact List.cons_ne_nil _ _
    · split <;> exact List.cons_ne_nil _ _

private theorem splitSlashes_append_slash (as bs : List UInt8) :
    splitSlashes (as ++ slash :: bs) = splitSlashes as ++ splitSlashes bs := by
  induction as with
  | nil => rfl
  | cons a as ih =>
    rw [List.cons_append, splitSlashes, splitSlashes, ih]
    split
    · rfl
    · obtain ⟨p, ps, hp⟩ := List.exists_cons_of_ne_nil (splitSlashes_ne_nil as)
      rw [hp]
      rfl

private theorem splitSlashes_of_notMem {bs : List UInt8} (h : slash ∉ bs) : splitSlashes bs = [bs] := by
  induction bs with
  | nil => rfl
  | cons b bs ih =>
    rw [List.mem_cons, not_or] at h
    rw [splitSlashes, if_neg (Ne.symm h.1), ih h.2]

private theorem bytes_append_slash (base text : SystemText) :
    (base ++ "/" ++ text).bytes = base.bytes ++ slash :: text.bytes := by
  rw [SystemText.append_assoc]
  rfl

theorem parts_append_slash (base text : SystemText) :
    parts (base ++ "/" ++ text) = parts base ++ parts text := by
  rw [parts, bytes_append_slash, splitSlashes_append_slash, List.map_append]
  rfl

theorem exists_eq_append_slash {path : SystemText} (h : path.bytes.getLast? = some slash) :
    ∃ front : SystemText, path = front ++ "/" := by
  obtain ⟨bs, hbs⟩ := List.getLast?_eq_some_iff.mp h
  exact ⟨⟨bs⟩, SystemText.bytes_inj.mp hbs⟩

private theorem isAbsolute_append {base : SystemText} (h : base.bytes ≠ []) (text : SystemText) :
    isAbsolute (base ++ text) = isAbsolute base := by
  rw [isAbsolute, isAbsolute, SystemText.bytes_append, List.head?_append_of_ne_nil _ h]

private theorem components_slash (text : SystemText) :
    components ("/" ++ text) = .root :: (parts text).filterMap ofPart := by
  have ha : isAbsolute ("/" ++ text) = true := decide_eq_true rfl
  have hp := parts_append_slash "" text
  have he : SystemText.ofString "" ++ SystemText.ofString "/" = SystemText.ofString "/" := rfl
  rw [he] at hp
  rw [components, if_pos ha, hp]
  rfl

private theorem components_append_slash {base : SystemText} (h : base.bytes ≠ []) (text : SystemText) :
    components (base ++ "/" ++ text) = components base ++ (parts text).filterMap ofPart := by
  have ha : isAbsolute (base ++ "/" ++ text) = isAbsolute base := by
    rw [SystemText.append_assoc, isAbsolute_append h]
  have hn : parts base ≠ [] := fun hp =>
    splitSlashes_ne_nil base.bytes (List.map_eq_nil_iff.mp hp)
  rw [components, components, ha, parts_append_slash, List.head?_append_of_ne_nil _ hn,
    List.filterMap_append, List.append_assoc]

/-- What comes between a path and what is joined to it. -/
def separator (base : SystemText) : SystemText :=
  if base.bytes = [] ∨ base.bytes.getLast? = some slash then "" else "/"

private theorem join_of_not_isAbsolute {path : SystemText} (h : isAbsolute path = false)
    (base : SystemText) : join base path = base ++ separator base ++ path := by
  rw [join, h, if_neg Bool.false_ne_true, separator]
  split
  · rw [SystemText.append_empty]
  · rfl

private theorem separator_append {path : SystemText} (h : path.bytes ≠ []) (base : SystemText) :
    separator (base ++ path) = separator path := by
  rw [separator, separator, SystemText.bytes_append, List.getLast?_append_of_ne_nil _ h]
  simp [h]

theorem join_assoc {path rest : SystemText} (hp : path.bytes ≠ []) (ha : isAbsolute path = false)
    (hr : isAbsolute rest = false) (base : SystemText) :
    join (join base path) rest = join base (join path rest) := by
  have hj : isAbsolute (join path rest) = false := by
    rw [join_of_not_isAbsolute hr, SystemText.append_assoc, isAbsolute_append hp, ha]
  rw [join_of_not_isAbsolute hj, join_of_not_isAbsolute hr, join_of_not_isAbsolute hr,
    join_of_not_isAbsolute ha, separator_append hp]
  simp only [SystemText.append_assoc]

theorem isAbsolute_join {base : SystemText} (hb : base.bytes ≠ []) (path : SystemText) :
    isAbsolute (join base path) = (isAbsolute path || isAbsolute base) := by
  by_cases ha : isAbsolute path = true
  · rw [join, if_pos ha, ha, Bool.true_or]
  · have ha := Bool.eq_false_iff.mpr ha
    rw [join_of_not_isAbsolute ha, SystemText.append_assoc, isAbsolute_append hb, ha, Bool.false_or]

end Path

namespace FileName

open SideEffectLint.Path

variable (name : FileName)

theorem text_inj {name name' : FileName} : name.text = name'.text ↔ name = name' := by
  cases name
  cases name'
  simp

private theorem slash_notMem : slash ∉ name.text.bytes :=
  (isName_iff.mp name.isName).2.2.2.1

theorem bytes_ne_nil : name.text.bytes ≠ [] :=
  fun h => (isName_iff.mp name.isName).1 (SystemText.bytes_inj.mp h)

theorem parts_text : parts name.text = [name.text] := by
  rw [parts, splitSlashes_of_notMem name.slash_notMem, List.map_singleton]

private theorem ofPart_text : ofPart name.text = some (.name name.text) := by
  obtain ⟨he, hc, hp, -⟩ := isName_iff.mp name.isName
  rw [ofPart, if_neg (not_or.mpr ⟨he, hc⟩), if_neg hp]

theorem isAbsolute_text : isAbsolute name.text = false :=
  decide_eq_false fun h => name.slash_notMem (List.mem_of_mem_head? h)

theorem join_text (base : SystemText) : join base name.text = base ++ separator base ++ name.text :=
  join_of_not_isAbsolute name.isAbsolute_text base

theorem components_text : components name.text = [.name name.text] := by
  have hh : (parts name.text).head? ≠ some (SystemText.ofString ".") := by
    rw [name.parts_text]
    exact fun h => (isName_iff.mp name.isName).2.1 (Option.some.inj h)
  rw [components, if_neg (ne_true_of_eq_false name.isAbsolute_text), if_neg hh, name.parts_text,
    List.filterMap_cons_some name.ofPart_text]
  rfl

end FileName

namespace Path

/-- Joining adds a name at the end. -/
theorem components_join (base : SystemText) (name : FileName) :
    components (join base name.text) = components base ++ [.name name.text] := by
  have ho : (parts name.text).filterMap ofPart = [.name name.text] := by
    rw [name.parts_text, List.filterMap_cons_some name.ofPart_text, List.filterMap_nil]
  rw [name.join_text, separator]
  split
  · rename_i hb
    rw [SystemText.append_empty]
    rcases hb with hb | hb
    · obtain rfl : base = "" := SystemText.bytes_inj.mp hb
      exact name.components_text
    · obtain ⟨front, rfl⟩ := exists_eq_append_slash hb
      by_cases hfront : front.bytes = []
      · obtain rfl : front = "" := SystemText.bytes_inj.mp hfront
        have he : SystemText.ofString "" ++ SystemText.ofString "/" = SystemText.ofString "/" := rfl
        rw [he, components_slash, ho]
        rfl
      · have hslash := components_append_slash hfront ""
        rw [SystemText.append_empty] at hslash
        rw [components_append_slash hfront, hslash, ho]
        exact congrArg (· ++ _) (List.append_nil _).symm
  · rename_i hb
    rw [components_append_slash (fun he => hb (.inl he)), ho]

theorem below_cons (base : SystemText) (name : FileName) (names : List FileName) :
    below base (name :: names) = below (join base name.text) names :=
  rfl

theorem below_append (base : SystemText) (names names' : List FileName) :
    below base (names ++ names') = below (below base names) names' :=
  List.foldl_append

theorem components_below (base : SystemText) (names : List FileName) :
    components (below base names) = components base ++ names.map fun name => .name name.text := by
  induction names generalizing base with
  | nil => exact (List.append_nil _).symm
  | cons name names ih =>
    rw [below_cons, ih, components_join, List.append_assoc]
    rfl

theorem components_below_injective (base : SystemText) :
    Function.Injective fun names => components (below base names) := by
  intro names names' h
  simp only [components_below] at h
  refine List.map_injective_iff.mpr (fun a b hab => ?_) (List.append_cancel_left h)
  exact FileName.text_inj.mp (Component.name.inj hab)

/-- Seen from a directory that is told from the root, a path that was seen from there is the same. -/
theorem join_join {base : SystemText} (hb : isAbsolute base) (path : SystemText) :
    join base (join base path) = join base path := by
  have hne : base.bytes ≠ [] := by
    intro he
    rw [isAbsolute, he] at hb
    cases hb
  have ha : isAbsolute (join base path) = true := by
    rw [isAbsolute_join hne, hb, Bool.or_true]
  generalize join base path = joined at ha ⊢
  rw [join, if_pos ha]

theorem shown_join {path : SystemText} (h : isAbsolute path = false) (base : SystemText) :
    (join base path).shown = base.shown ++ (separator base).shown ++ path.shown := by
  rw [join_of_not_isAbsolute h, separator]
  split
  · rename_i hb
    rcases hb with hb | hb
    · obtain rfl : base = "" := SystemText.bytes_inj.mp hb
      rw [SystemText.append_empty]
      exact (String.empty_append).symm
    · obtain ⟨front, rfl⟩ := exists_eq_append_slash hb
      have hs := SystemText.shown_append_slash front ""
      rw [SystemText.append_empty] at hs
      rw [SystemText.append_empty, SystemText.shown_append_slash, hs]
      simp
  · rw [SystemText.shown_append_slash, SystemText.shown_ofString]

end Path

end SideEffectLint
