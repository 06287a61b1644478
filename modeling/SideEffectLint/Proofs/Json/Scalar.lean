import SideEffectLint.Json.Literal
import SideEffectLint.Json.Printer

/-! Reading scalars from the text that was printed for them. -/

namespace SideEffectLint.Json

namespace Reader

variable {α β : Type}

/-- The reader takes the value from the front of the text and leaves the rest, wherever in a larger
text this is. -/
def Yields (r : Reader α) (depth : Nat) (cs : List Char) (value : α) (rest : List Char) : Prop :=
  ∀ offset, ∃ offset', r depth ⟨cs, offset⟩ = .done value ⟨rest, offset'⟩

section

variable {depth : Nat} {cs ds es : List Char}

theorem yields_pure (value : α) (depth : Nat) (cs : List Char) :
    (pure value : Reader α).Yields depth cs value cs :=
  fun offset => ⟨offset, rfl⟩

theorem Yields.bind {r : Reader α} {f : α → Reader β} {a : α} {b : β} (hr : r.Yields depth cs a ds)
    (hf : (f a).Yields depth ds b es) : (r >>= f).Yields depth cs b es := by
  intro offset
  obtain ⟨offset', hr⟩ := hr offset
  obtain ⟨offset'', hf⟩ := hf offset'
  refine ⟨offset'', ?_⟩
  simp only [Bind.bind, hr]
  exact hf

theorem Yields.placed {r : Reader α} {value : α} (h : r.Yields depth cs value ds) :
    (placed r).Yields depth cs value ds := by
  intro offset
  obtain ⟨offset', h⟩ := h offset
  refine ⟨offset', ?_⟩
  rw [Reader.placed, h]

theorem yields_advance (n depth : Nat) (cs : List Char) :
    (advance n).Yields depth cs () (cs.drop n) :=
  fun _ => ⟨_, rfl⟩

theorem yields_peek {blanks : List Char} (hb : ∀ b ∈ blanks, isBlank b) {c : Char}
    (hc : isBlank c = false) (depth : Nat) (cs : List Char) :
    peek.Yields depth (blanks ++ c :: cs) (some c) (c :: cs) := by
  have hp : peek.Yields depth (blanks ++ c :: cs) ((blanks ++ c :: cs).dropWhile isBlank).head?
      ((blanks ++ c :: cs).dropWhile isBlank) := fun _ => ⟨_, rfl⟩
  rwa [List.dropWhile_append_of_pos hb, List.dropWhile_cons_of_neg (ne_true_of_eq_false hc)] at hp

theorem yields_peek_end (depth : Nat) : peek.Yields depth [] none [] :=
  fun _ => ⟨_, rfl⟩

end

private theorem hexOf_hex : ∀ n < 32,
    (match Text.hex 4 n with
      | [a, b, c, d] => hexOf a b c d
      | _ => none) = some n := by
  decide

private theorem stringFrom_unicode {n : Nat} (hn : n < 32) (acc cs : List Char) (offset : Nat) :
    stringFrom none acc ('\\' :: 'u' :: Text.hex 4 n ++ cs) offset =
      stringFrom none (Char.ofNat n :: acc) cs (offset + 6) := by
  have hx := hexOf_hex n hn
  split at hx
  · rename_i a b c d hd
    rw [hd]
    simp only [List.cons_append, List.nil_append, stringFrom, hx]
    rw [if_neg, if_neg] <;> simp <;> omega
  · cases hx

theorem stringFrom_plain {c : Char} (hq : c ≠ '"') (hb : c ≠ '\\') (hc : ¬ c < ' ')
    (acc cs : List Char) (offset : Nat) :
    stringFrom none acc (c :: cs) offset = stringFrom none (c :: acc) cs (offset + c.utf8Size) := by
  rw [stringFrom]
  · exact if_neg hc
  all_goals simp_all

/-- An escaped character is read as itself. -/
theorem stringFrom_escapedChar (c : Char) (acc cs : List Char) (offset : Nat) :
    ∃ offset', stringFrom none acc (escapedChar c ++ cs) offset =
      stringFrom none (c :: acc) cs offset' := by
  unfold escapedChar
  split
  · exact ⟨_, rfl⟩
  · exact ⟨_, rfl⟩
  · exact ⟨_, rfl⟩
  · exact ⟨_, rfl⟩
  · exact ⟨_, rfl⟩
  · exact ⟨_, rfl⟩
  · exact ⟨_, rfl⟩
  · rename_i hq hb _ _ _ _ _
    split
    · rename_i hc
      have hu := stringFrom_unicode (n := c.toNat) hc acc cs offset
      rw [Char.ofNat_toNat] at hu
      exact ⟨_, hu⟩
    · rename_i hc
      exact ⟨_, stringFrom_plain hq hb hc acc cs offset⟩

private theorem stringFrom_escaped (text acc rest : List Char) (offset : Nat) :
    ∃ offset', stringFrom none acc (text.flatMap escapedChar ++ '"' :: rest) offset =
      .done (String.ofList (acc.reverse ++ text)) ⟨rest, offset'⟩ := by
  induction text generalizing acc offset with
  | nil => exact ⟨offset + 1, by rw [List.append_nil]; rfl⟩
  | cons c text ih =>
    obtain ⟨offset', hc⟩ := stringFrom_escapedChar c acc
      (text.flatMap escapedChar ++ '"' :: rest) offset
    obtain ⟨offset'', ht⟩ := ih (c :: acc) offset'
    refine ⟨offset'', ?_⟩
    rw [List.flatMap_cons, List.append_assoc, hc, ht, List.reverse_cons, List.append_assoc]
    rfl

/-- Every text is read back from its quoted form. -/
theorem yields_string (text : String) (depth : Nat) (rest : List Char) :
    string.Yields depth (quotedChars text ++ rest) text rest := by
  intro offset
  obtain ⟨offset', h⟩ := stringFrom_escaped text.toList [] rest (offset + 1)
  refine ⟨offset', ?_⟩
  rw [string, quotedChars]
  simp only [List.cons_append, List.append_assoc, List.drop_succ_cons, List.drop_zero,
    List.nil_append] at h ⊢
  rw [h, List.reverse_nil, List.nil_append, String.ofList_toList]

/-- What may follow a number without being taken for a part of it. -/
def Delimits (rest : List Char) : Prop :=
  ∀ c ∈ rest.head?, c.isDigit = false ∧ c ≠ '.' ∧ c ≠ 'e' ∧ c ≠ 'E'

private theorem head?_toDigits_ne_zero {n : Nat} (hn : 0 < n) : (Nat.toDigits 10 n).head? ≠ some '0' := by
  induction n using Nat.strongRecOn with
  | _ n ih =>
    rw [Nat.toDigits_eq_if (by decide)]
    split
    · rename_i h
      have hd : ∀ d < 10, 0 < d → d.digitChar ≠ '0' := by decide
      exact fun he => hd n h hn (Option.some.inj he)
    · rename_i h
      have hd := ih (n / 10) (by omega) (by omega)
      obtain ⟨d, ds, hds⟩ :=
        List.exists_cons_of_ne_nil (Nat.toDigits_ne_nil (n := n / 10) (b := 10))
      rw [hds] at hd ⊢
      exact hd

private theorem le_ofDigitChars (ds : List Char) (value : Nat) : value ≤ Nat.ofDigitChars 10 ds value := by
  induction ds generalizing value with
  | nil => exact Nat.le_of_eq Nat.ofDigitChars_nil.symm
  | cons d ds ih =>
    rw [Nat.ofDigitChars_cons]
    exact Nat.le_trans (by omega) (ih _)

/-- Digits are all taken into a number that fits. -/
theorem keep_eq {ds : List Char} {value : Nat}
    (h : Nat.ofDigitChars 10 ds value < UInt64.size) :
    keep ds value = (Nat.ofDigitChars 10 ds value, 0) := by
  induction ds generalizing value with
  | nil => rw [keep, Nat.ofDigitChars_nil]
  | cons d ds ih =>
    rw [Nat.ofDigitChars_cons] at h ⊢
    rw [keep, ← ih h]
    exact if_pos (Nat.lt_of_le_of_lt (le_ofDigitChars ds _) h)

theorem yields_next (depth : Nat) (cs : List Char) : next.Yields depth cs cs.head? cs :=
  fun offset => ⟨offset, rfl⟩

theorem takeWhile_dropWhile_digits {ds rest : List Char} (hd : ∀ d ∈ ds, d.isDigit)
    (hr : ∀ c ∈ rest.head?, c.isDigit = false) :
    (ds ++ rest).takeWhile Char.isDigit = ds ∧ (ds ++ rest).dropWhile Char.isDigit = rest := by
  have hn : rest.takeWhile Char.isDigit = [] ∧ rest.dropWhile Char.isDigit = rest := by
    cases rest with
    | nil => exact ⟨rfl, rfl⟩
    | cons c rest =>
      have hc := ne_true_of_eq_false (hr c rfl)
      exact ⟨List.takeWhile_cons_of_neg hc, List.dropWhile_cons_of_neg hc⟩
  rw [List.takeWhile_append_of_pos hd, List.dropWhile_append_of_pos hd, hn.1, hn.2, List.append_nil]
  exact ⟨rfl, rfl⟩

theorem yields_digits {ds rest : List Char} (hd : ∀ d ∈ ds, d.isDigit)
    (hr : ∀ c ∈ rest.head?, c.isDigit = false) (depth : Nat) :
    digits.Yields depth (ds ++ rest) ds rest := by
  have hy : digits.Yields depth (ds ++ rest) ((ds ++ rest).takeWhile Char.isDigit)
      ((ds ++ rest).dropWhile Char.isDigit) := fun _ => ⟨_, rfl⟩
  rwa [(takeWhile_dropWhile_digits hd hr).1, (takeWhile_dropWhile_digits hd hr).2] at hy

private theorem yields_afterWhole (n : Nat) {rest : List Char} (hr : Delimits rest) (depth : Nat) :
    (afterWhole false n 0).Yields depth rest (.whole n) rest := by
  refine (yields_next depth rest).bind ?_
  cases rest with
  | nil => exact yields_pure _ depth []
  | cons c rest =>
    obtain ⟨hd, hp, he, hE⟩ := hr c rfl
    rw [List.head?_cons]
    split
    · exact absurd (Option.some.inj ‹_›) hp
    · exact absurd (Option.some.inj ‹_›) he
    · exact absurd (Option.some.inj ‹_›) hE
    · rename_i h
      obtain rfl := Option.some.inj h
      rw [if_neg (ne_true_of_eq_false hd)]
      exact yields_pure _ depth _
    · cases ‹some c = none›

/-- A natural number is read back from its digits. -/
theorem yields_number {n : Nat} (hn : n < UInt64.size) {rest : List Char} (hr : Delimits rest)
    (depth : Nat) : number.Yields depth (Nat.toDigits 10 n ++ rest) (.whole n) rest := by
  obtain ⟨first, ds, hds⟩ := List.exists_cons_of_ne_nil (Nat.toDigits_ne_nil (n := n) (b := 10))
  have hall : ∀ d ∈ first :: ds, d.isDigit := fun d hd =>
    Nat.isDigit_of_mem_toDigits (by decide) (by decide) (hds ▸ hd)
  have hfirst : first.isDigit := hall first List.mem_cons_self
  have hkeep : keep (first :: ds) 0 = (n, 0) := by
    rw [← hds, keep_eq] <;> rw [Nat.ofDigitChars_ten_toDigits]
    exact hn
  have hzero (h0 : first = '0') : (do advance 1; pure ['0'] : Reader (List Char)).Yields depth
      (first :: ds ++ rest) (first :: ds) rest := by
    obtain rfl : n = 0 := Nat.eq_zero_of_not_pos fun hn =>
      head?_toDigits_ne_zero hn (by rw [hds, h0]; rfl)
    obtain ⟨rfl, rfl⟩ := List.cons.inj ((Nat.toDigits_zero 10).symm.trans hds)
    exact (yields_advance 1 depth _).bind (yields_pure _ depth rest)
  rw [hds]
  refine (yields_next depth _).bind ?_
  rw [List.cons_append, List.head?_cons]
  split
  · rename_i h
    cases Option.some.inj h
    cases hfirst
  · refine (yields_next depth _).bind ?_
    rw [List.head?_cons]
    simp only [hfirst, Bool.not_true, Bool.false_eq_true, if_false]
    split
    · refine (hzero ‹_›).bind ?_
      rw [hkeep]
      exact yields_afterWhole n hr depth
    · refine (yields_digits hall (fun c hc => (hr c hc).1) depth).bind ?_
      rw [hkeep]
      exact yields_afterWhole n hr depth

theorem yields_word (ws : List Char) (depth : Nat) (rest : List Char) :
    (word ws).Yields depth (ws ++ rest) () rest := by
  induction ws with
  | nil => exact yields_pure () depth rest
  | cons w ws ih =>
    intro offset
    obtain ⟨offset', h⟩ := ih (offset + Cursor.utf8Length [w])
    refine ⟨offset', ?_⟩
    rw [word]
    exact (if_pos rfl).trans h

end Reader

namespace Scalar

/-- A scalar without numbers below zero, above 64 bits or with a point. -/
def IsPlain : Scalar → Prop
  | number (.whole n) => ∃ m : Nat, n = m ∧ m < UInt64.size
  | number (.fraction _) => False
  | _ => True

/-- A blank or a bracket. -/
def isMark (c : Char) : Bool :=
  Reader.isBlank c || ['[', ']', '\x7b', '\x7d'].contains c

theorem isMark_of_isDigit {c : Char} (h : c.isDigit) : isMark c = false := by
  cases hm : isMark c with
  | false => rfl
  | true =>
    simp only [isMark, Reader.isBlank, Bool.or_eq_true, decide_eq_true_eq, List.contains_eq_mem,
      List.mem_cons, List.not_mem_nil, or_false] at hm
    rcases hm with (((rfl | rfl) | rfl) | rfl) | rfl | rfl | rfl | rfl <;> cases h

private theorem chars_natural (n : Nat) : (number (.whole n)).chars = Nat.toDigits 10 n :=
  Nat.toList_repr

theorem exists_chars_eq_cons {s : Scalar} (h : s.IsPlain) :
    ∃ c cs, s.chars = c :: cs ∧ isMark c = false := by
  match s, h with
  | .null, _ => exact ⟨_, _, rfl, by decide⟩
  | .bool true, _ => exact ⟨_, _, rfl, by decide⟩
  | .bool false, _ => exact ⟨_, _, rfl, by decide⟩
  | .string text, _ => exact ⟨_, _, rfl, by decide⟩
  | .number (.whole _), ⟨n, rfl, _⟩ =>
    obtain ⟨c, cs, hcs⟩ := List.exists_cons_of_ne_nil (Nat.toDigits_ne_nil (n := n) (b := 10))
    have hc : c ∈ Nat.toDigits 10 n := hcs ▸ List.mem_cons_self
    exact ⟨c, cs, (chars_natural n).trans hcs,
      isMark_of_isDigit (Nat.isDigit_of_mem_toDigits (by decide) (by decide) hc)⟩

open Reader in
/-- A scalar is read back from its text by the reader for its first character. -/
theorem yields_scalar {s : Scalar} (h : s.IsPlain) {c : Char} {cs rest : List Char}
    (hc : s.chars = c :: cs) (hr : Delimits rest) (depth : Nat) :
    (scalar c).Yields depth (s.chars ++ rest) s rest := by
  match s, h, hc with
  | .null, _, rfl => exact (yields_word _ depth rest).bind (yields_pure _ depth rest)
  | .bool true, _, rfl => exact (yields_word _ depth rest).bind (yields_pure _ depth rest)
  | .bool false, _, rfl => exact (yields_word _ depth rest).bind (yields_pure _ depth rest)
  | .string text, _, rfl => exact (yields_string text depth rest).bind (yields_pure _ depth rest)
  | .number (.whole _), ⟨n, rfl, hn⟩, hc =>
    rw [chars_natural] at hc ⊢
    have hd : c.isDigit :=
      Nat.isDigit_of_mem_toDigits (by decide) (by decide) (hc ▸ List.mem_cons_self)
    unfold scalar
    split
    · cases hd
    · cases hd
    · cases hd
    · cases hd
    · rw [if_pos (by rw [hd, Bool.or_true])]
      exact (yields_number hn hr depth).bind (yields_pure _ depth rest)

end Scalar

end SideEffectLint.Json
