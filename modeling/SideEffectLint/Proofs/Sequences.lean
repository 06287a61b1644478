import Mathlib.Data.List.TakeWhile
import SideEffectLint.Text.Styled

/-! One pass that takes the escape sequences out of a text. Styled text and the text itself come out
of it the same, whatever sequences the text holds and whatever follows it. -/

namespace SideEffectLint

namespace Text

/-- What may stand between the bracket of an escape sequence and its last letter. -/
def isParameter (c : Char) : Bool :=
  c.isDigit || c = ';'

/-- What follows the escape sequence that a text starts with. -/
def afterSequence? : List Char → Option (List Char)
  | '\x1b' :: '[' :: cs =>
    match cs.dropWhile isParameter with
    | 'm' :: rest => some rest
    | _ => none
  | _ => none

private theorem afterSequence?_eq_some_iff {cs rest : List Char} :
    afterSequence? cs = some rest ↔
      ∃ ps, (∀ p ∈ ps, isParameter p) ∧ cs = '\x1b' :: '[' :: ps ++ 'm' :: rest := by
  constructor
  · intro h
    unfold afterSequence? at h
    split at h
    · rename_i cs
      split at h
      · rename_i hd
        obtain rfl := Option.some.inj h
        refine ⟨cs.takeWhile isParameter, fun p => List.mem_takeWhile_imp, ?_⟩
        rw [List.cons_append, List.cons_append, ← hd, List.takeWhile_append_dropWhile]
      · cases h
    · cases h
  · rintro ⟨ps, hps, rfl⟩
    have hd : (ps ++ 'm' :: rest).dropWhile isParameter = 'm' :: rest := by
      rw [List.dropWhile_append_of_pos hps]
      rfl
    simp only [List.cons_append, afterSequence?, hd]

private theorem afterSequence?_append {cs rest : List Char} (h : afterSequence? cs = some rest)
    (q : List Char) : afterSequence? (cs ++ q) = some (rest ++ q) := by
  obtain ⟨ps, hps, rfl⟩ := afterSequence?_eq_some_iff.mp h
  exact afterSequence?_eq_some_iff.mpr ⟨ps, hps, List.append_assoc ..⟩

private theorem length_lt_of_afterSequence? {cs rest : List Char} (h : afterSequence? cs = some rest) :
    rest.length < cs.length := by
  obtain ⟨ps, _, rfl⟩ := afterSequence?_eq_some_iff.mp h
  simp only [List.cons_append, List.length_cons, List.length_append]
  omega

/-- What one pass from left to right leaves of a text when it deletes every escape sequence. -/
def withoutSequences : List Char → List Char
  | [] => []
  | c :: cs =>
    match _h : afterSequence? (c :: cs) with
    | some rest => withoutSequences rest
    | none => c :: withoutSequences cs
termination_by cs => cs.length
decreasing_by
  · exact length_lt_of_afterSequence? _h
  · exact Nat.lt_succ_self _

theorem withoutSequences_nil : withoutSequences [] = [] := by
  rw [withoutSequences]

private theorem withoutSequences_of_some {cs rest : List Char} (h : afterSequence? cs = some rest) :
    withoutSequences cs = withoutSequences rest := by
  cases cs with
  | nil => cases h
  | cons c cs =>
    rw [withoutSequences]
    split
    · rename_i hr
      rw [Option.some.inj (hr.symm.trans h)]
    · rename_i hn
      cases hn.symm.trans h

private theorem withoutSequences_of_none {c : Char} {cs : List Char} (h : afterSequence? (c :: cs) = none) :
    withoutSequences (c :: cs) = c :: withoutSequences cs := by
  rw [withoutSequences]
  split
  · rename_i hr
    cases hr.symm.trans h
  · rfl

/-- A character after which an escape sequence may go on. -/
def IsInner (c : Char) : Prop :=
  c = '\x1b' ∨ c = '[' ∨ isParameter c

/-- A character that may carry an escape sequence on. -/
def Continues (c : Char) : Prop :=
  c = '[' ∨ isParameter c ∨ c = 'm'

instance : DecidablePred IsInner := fun _ => inferInstanceAs (Decidable (_ ∨ _))

instance : DecidablePred Continues := fun _ => inferInstanceAs (Decidable (_ ∨ _))

/-- No escape sequence starts in the first text and ends in the second. -/
def Apart (p q : List Char) : Prop :=
  (∀ c ∈ p.getLast?, ¬ IsInner c) ∨ ∀ c ∈ q.head?, ¬ Continues c

private theorem isInner_of_mem {ps : List Char} (hps : ∀ p ∈ ps, isParameter p) {c : Char}
    (hc : c ∈ '\x1b' :: '[' :: ps) : IsInner c := by
  rcases List.mem_cons.mp hc with rfl | hc
  · exact Or.inl rfl
  · rcases List.mem_cons.mp hc with rfl | hc
    · exact Or.inr (Or.inl rfl)
    · exact Or.inr (Or.inr (hps c hc))

private theorem continues_of_mem {ps : List Char} (hps : ∀ p ∈ ps, isParameter p) {c : Char}
    (hc : c ∈ '[' :: (ps ++ ['m'])) : Continues c := by
  rcases List.mem_cons.mp hc with rfl | hc
  · exact Or.inl rfl
  · rcases List.mem_append.mp hc with hc | hc
    · exact Or.inr (Or.inl (hps c hc))
    · exact Or.inr (Or.inr (List.mem_singleton.mp hc))

/-- A sequence at the start of two texts lies in the first. -/
theorem afterSequence?_append_of_none {p q : List Char} (hp : p ≠ []) (h : afterSequence? p = none)
    (ha : Apart p q) : afterSequence? (p ++ q) = none := by
  by_contra hn
  obtain ⟨rest, hr⟩ := Option.ne_none_iff_exists'.mp hn
  obtain ⟨ps, hps, he⟩ := afterSequence?_eq_some_iff.mp hr
  have he' : p ++ q = ('\x1b' :: '[' :: (ps ++ ['m'])) ++ rest := by simpa using he
  rcases List.append_eq_append_iff.mp he' with ⟨inner, hi, hq⟩ | ⟨beyond, hb, -⟩
  · -- The sequence ends in `q`, so `p` ends inside of it and `q` carries it on.
    cases inner with
    | nil =>
      rw [List.append_nil] at hi
      have hs := afterSequence?_eq_some_iff.mpr ⟨ps, hps, (by simpa using hi.symm : p = _ ++ 'm' :: [])⟩
      cases h.symm.trans hs
    | cons c inner =>
      rcases ha with ha | ha
      · have hl := List.getLast?_eq_some_getLast hp
        have hc := List.dropLast_concat_getLast (List.cons_ne_nil c inner)
        rw [← hc, ← List.append_assoc, ← List.cons_append, ← List.cons_append] at hi
        have hm := (List.append_inj_left' hi rfl) ▸ List.mem_append_left _ (List.getLast_mem hp)
        exact ha _ hl (isInner_of_mem hps hm)
      · obtain ⟨a, p, rfl⟩ := List.exists_cons_of_ne_nil hp
        have ht := (List.cons.inj hi).2
        have hm : c ∈ '[' :: (ps ++ ['m']) := ht ▸ List.mem_append_right p List.mem_cons_self
        exact ha c (hq ▸ rfl) (continues_of_mem hps hm)
  · have hs := afterSequence?_eq_some_iff.mpr ⟨ps, hps, (by simpa using hb : p = _ ++ 'm' :: beyond)⟩
    cases h.symm.trans hs

private theorem Apart.of_suffix {p t q : List Char} (h : Apart p q) (hs : t <:+ p) : Apart t q := by
  obtain ⟨init, rfl⟩ := hs
  refine h.imp_left fun hl c hc => hl c ?_
  rw [List.getLast?_append, hc]
  rfl

/-- A pass over two texts that are apart is one over each of them. -/
theorem withoutSequences_append (p q : List Char) (h : Apart p q) :
    withoutSequences (p ++ q) = withoutSequences p ++ withoutSequences q := by
  fun_induction withoutSequences p with
  | case1 => rfl
  | case2 c cs rest hr ih =>
    obtain ⟨ps, _, he⟩ := afterSequence?_eq_some_iff.mp hr
    have hs : rest <:+ c :: cs := ⟨'\x1b' :: '[' :: ps ++ ['m'], by simp [he]⟩
    rw [withoutSequences_of_some (afterSequence?_append hr q), ih (h.of_suffix hs)]
  | case3 c cs hn ih =>
    have hn' := afterSequence?_append_of_none (List.cons_ne_nil c cs) hn h
    rw [List.cons_append] at hn' ⊢
    rw [withoutSequences_of_none hn', ih (h.of_suffix (List.suffix_cons c cs)), List.cons_append]

end Text

namespace Style

open Text

/-- A style opens with sequences only. -/
theorem withoutSequences_opening_append (style : Style) (cs : List Char) :
    withoutSequences (style.opening ++ cs) = withoutSequences cs := by
  cases style with
  | heading | alarm =>
    exact (withoutSequences_of_some rfl).trans (withoutSequences_of_some rfl)
  | _ => exact withoutSequences_of_some rfl

private theorem withoutSequences_closing_append (cs : List Char) :
    withoutSequences (closing ++ cs) = withoutSequences cs :=
  withoutSequences_of_some rfl

private theorem reopen_cons (style : Style) (c : Char) (cs : List Char) :
    (∃ rest, c :: cs = closing ++ rest ∧
      style.reopen (c :: cs) = closing ++ style.opening ++ style.reopen rest) ∨
    style.reopen (c :: cs) = c :: style.reopen cs := by
  by_cases h : ∃ rest, c :: cs = closing ++ rest
  · obtain ⟨rest, hr⟩ := h
    refine Or.inl ⟨rest, hr, ?_⟩
    rw [hr]
    rfl
  · refine Or.inr (reopen.eq_2 style c cs ?_)
    rintro rest rfl rfl
    exact h ⟨rest, rfl⟩

private theorem reopen_cons_of_ne (style : Style) {c : Char} (hc : c ≠ '\x1b') (cs : List Char) :
    style.reopen (c :: cs) = c :: style.reopen cs := by
  rcases style.reopen_cons c cs with ⟨rest, he, -⟩ | h
  · exact absurd (List.cons.inj he).1 hc
  · exact h

private theorem reopen_append (style : Style) {cs : List Char} (hcs : '\x1b' ∉ cs)
    (rest : List Char) : style.reopen (cs ++ rest) = cs ++ style.reopen rest := by
  induction cs with
  | nil => rfl
  | cons c cs ih =>
    obtain ⟨hc, hcs⟩ := List.ne_and_not_mem_of_not_mem_cons hcs
    rw [List.cons_append, style.reopen_cons_of_ne hc.symm, ih hcs, List.cons_append]

/-- Up to the first escape character a text stays as it is. -/
private theorem exists_of_reopen_eq_append (style : Style) {cs kept rest : List Char}
    (hk : '\x1b' ∉ kept) (h : style.reopen cs = kept ++ rest) : ∃ rest', cs = kept ++ rest' := by
  induction kept generalizing cs with
  | nil => exact ⟨cs, rfl⟩
  | cons k kept ih =>
    obtain ⟨hne, hk'⟩ := List.ne_and_not_mem_of_not_mem_cons hk
    cases cs with
    | nil => cases h
    | cons c cs =>
      rcases style.reopen_cons c cs with ⟨rest', -, hr⟩ | hr
      · exact absurd (List.cons.inj (hr.symm.trans h)).1 hne
      · obtain ⟨rfl, ht⟩ := List.cons.inj (hr.symm.trans h)
        obtain ⟨rest', rfl⟩ := ih hk' ht
        exact ⟨rest', rfl⟩

private theorem escape_not_mem {ps : List Char} (hps : ∀ p ∈ ps, isParameter p) :
    '\x1b' ∉ '[' :: (ps ++ ['m']) := by
  intro h
  rcases List.mem_cons.mp h with h | h
  · cases h
  · rcases List.mem_append.mp h with h | h
    · cases hps _ h
    · cases List.mem_singleton.mp h

/-- Turning the style on again adds sequences only. -/
theorem withoutSequences_reopen (style : Style) (cs : List Char) :
    withoutSequences (style.reopen cs) = withoutSequences cs := by
  fun_induction withoutSequences cs with
  | case1 => exact withoutSequences_nil
  | case2 c cs rest hr ih =>
    rcases style.reopen_cons c cs with ⟨rest', he, ho⟩ | ho
    · obtain rfl : rest' = rest := Option.some.inj ((congrArg afterSequence? he).symm.trans hr)
      rw [ho, List.append_assoc, withoutSequences_closing_append,
        withoutSequences_opening_append, ih]
    · obtain ⟨ps, hps, he⟩ := afterSequence?_eq_some_iff.mp hr
      obtain ⟨rfl, ht⟩ := List.cons.inj he
      have ht' : cs = '[' :: (ps ++ ['m']) ++ rest := by simpa using ht
      rw [ht', style.reopen_append (escape_not_mem hps)] at ho
      rw [ht', ho, ← ih]
      exact withoutSequences_of_some (afterSequence?_eq_some_iff.mpr ⟨ps, hps, by simp⟩)
  | case3 c cs hn ih =>
    rcases style.reopen_cons c cs with ⟨rest, he, -⟩ | ho
    · rw [he] at hn
      cases hn
    · have hn' : afterSequence? (c :: style.reopen cs) = none := by
        by_contra hs
        obtain ⟨rest, hr⟩ := Option.ne_none_iff_exists'.mp hs
        obtain ⟨ps, hps, he⟩ := afterSequence?_eq_some_iff.mp hr
        obtain ⟨rfl, ht⟩ := List.cons.inj he
        have ht' : style.reopen cs = '[' :: (ps ++ ['m']) ++ rest := by simpa using ht
        obtain ⟨rest', rfl⟩ := style.exists_of_reopen_eq_append (escape_not_mem hps) ht'
        have hr' := afterSequence?_eq_some_iff.mpr ⟨ps, hps, (by simp :
          '\x1b' :: ('[' :: (ps ++ ['m']) ++ rest') = _ ++ 'm' :: rest')⟩
        cases hn.symm.trans hr'
      rw [ho, withoutSequences_of_none hn', ih]

/-- Styled text without its sequences, and what follows it. -/
theorem withoutSequences_apply_append (style : Style) (text : String) (rest : List Char) :
    withoutSequences ((style.apply text).toList ++ rest) =
      withoutSequences text.toList ++ withoutSequences rest := by
  have ha : Apart (style.reopen text.toList) (closing ++ rest) := by
    right
    rintro c ⟨⟩
    decide
  rw [apply, String.toList_ofList, List.append_assoc, List.append_assoc,
    withoutSequences_opening_append, withoutSequences_append _ _ ha, withoutSequences_reopen,
    withoutSequences_closing_append]

end Style

end SideEffectLint
