import SideEffectLint.Proofs.Json.Document
import SideEffectLint.Proofs.Json.Value

/-! Reading the scalars of the grammar. A reader takes from a text what its tree means, and comes to no
answer if it means nothing. -/

namespace SideEffectLint.Json

/-- The reply is the value, in front of the rest of the text; or there is none and it is no value. -/
def Reply.Answers {α : Type} (reply : Reply α) (value? : Option α) (rest : List Char) : Prop :=
  match value? with
  | some a => ∃ offset, reply = .done a ⟨rest, offset⟩
  | none => ∀ a c, reply ≠ .done a c

private theorem Reply.answers_failed {α : Type} (fault : Fault) (offset : Nat) (rest : List Char) :
    (failed fault offset : Reply α).Answers none rest :=
  fun _ _ => nofun

namespace Reader

variable {α β : Type}

/-- The reader comes to no answer, wherever in a larger text this is. -/
def Rejects (r : Reader α) (depth : Nat) (cs : List Char) : Prop :=
  ∀ offset a c, r depth ⟨cs, offset⟩ ≠ .done a c

/-- The reader takes the value from the front of the text, or there is none and it comes to no answer. -/
def Gives (r : Reader α) (depth : Nat) (cs : List Char) (value? : Option α) (rest : List Char) : Prop :=
  ∀ offset, (r depth ⟨cs, offset⟩).Answers value? rest

section

variable {depth : Nat} {cs ds rest : List Char} {r : Reader α} {f : α → Reader β} {a : α}
  {a? : Option α} {b? : Option β}

theorem rejects_refuse (cause : Mismatch) (depth : Nat) (cs : List Char) :
    (refuse cause : Reader α).Rejects depth cs :=
  fun _ _ _ => nofun

theorem Rejects.bind (h : r.Rejects depth cs) : (r >>= f).Rejects depth cs := by
  intro offset b c hb
  simp only [Bind.bind] at hb
  split at hb
  · exact h _ _ _ ‹_›
  · cases hb
  · cases hb

theorem rejects_bind (h : ∀ a cs, (f a).Rejects depth cs) : (r >>= f).Rejects depth cs := by
  intro offset b c hb
  simp only [Bind.bind] at hb
  split at hb
  · exact h _ _ _ _ _ hb
  · cases hb
  · cases hb

theorem Yields.bind_rejects (h : r.Yields depth cs a ds) (hf : (f a).Rejects depth ds) :
    (r >>= f).Rejects depth cs := by
  intro offset b c hb
  obtain ⟨offset', h⟩ := h offset
  simp only [Bind.bind, h] at hb
  exact hf _ _ _ hb

theorem Yields.bind_gives (h : r.Yields depth cs a ds) (hf : (f a).Gives depth ds b? rest) :
    (r >>= f).Gives depth cs b? rest := by
  cases b? with
  | none => exact h.bind_rejects hf
  | some b => exact h.bind hf

theorem Gives.bind {g : α → Option β} (h : r.Gives depth cs a? ds)
    (hf : ∀ a, a? = some a → (f a).Gives depth ds (g a) rest) :
    (r >>= f).Gives depth cs (a?.bind g) rest := by
  cases a? with
  | none => exact Rejects.bind h
  | some a => exact Yields.bind_gives h (hf a rfl)

theorem Gives.map (h : r.Gives depth cs a? rest) (f : α → β) :
    (do return f (← r) : Reader β).Gives depth cs (a?.map f) rest := by
  cases a? with
  | none => exact Rejects.bind h
  | some a => exact Yields.bind h (yields_pure (f a) depth rest)

theorem Rejects.placed (h : r.Rejects depth cs) : r.placed.Rejects depth cs := by
  intro offset a c ha
  rw [Reader.placed] at ha
  split at ha
  · cases ha
  · exact h _ _ _ ha

theorem Gives.placed (h : r.Gives depth cs a? rest) : r.placed.Gives depth cs a? rest := by
  cases a? with
  | none => exact Rejects.placed h
  | some a => exact Yields.placed h

theorem gives_ofExcept (x : Except Mismatch α) (depth : Nat) (cs : List Char) :
    (ofExcept x).Gives depth cs x.toOption cs := by
  cases x with
  | ok a => exact yields_pure a depth cs
  | error cause => exact rejects_refuse cause depth cs

end

private theorem stringFrom_escape {mark c : Char} (h : escaped mark = some c) (acc cs : List Char)
    (offset : Nat) : stringFrom none acc ('\\' :: mark :: cs) offset =
      stringFrom none (c :: acc) cs (offset + 2) := by
  rw [stringFrom]
  · rw [h]
  · rintro _ _ _ _ _ rfl
    cases h
  · rintro rfl
    cases h

private theorem stringFrom_code {a b c d : Char} {n : Nat} (h : hexOf a b c d = some n) (acc cs : List Char)
    (offset : Nat) : stringFrom none acc ('\\' :: 'u' :: a :: b :: c :: d :: cs) offset =
      if 0xdc00 ≤ n && n < 0xe000 then .failed (.malformed .loneSurrogate) (offset + 6)
      else if 0xd800 ≤ n && n < 0xdc00 then stringFrom (some n) acc cs (offset + 6)
      else stringFrom none (Char.ofNat n :: acc) cs (offset + 6) := by
  conv_lhs => rw [stringFrom, h]

private theorem stringFrom_secondCode {a b c d : Char} {high low : Nat} (h : hexOf a b c d = some low)
    (acc cs : List Char) (offset : Nat) :
    stringFrom (some high) acc ('\\' :: 'u' :: a :: b :: c :: d :: cs) offset =
      if 0xdc00 ≤ low && low < 0xe000 then
        stringFrom none
          (Char.ofNat (0x10000 + (high - 0xd800) * 0x400 + (low - 0xdc00)) :: acc) cs (offset + 6)
      else .failed (.malformed .loneSurrogate) (offset + 6) := by
  rw [stringFrom, h]

private theorem stringFrom_unpaired {high : Nat} {c : Char} (hc : c ≠ '\\') (acc cs : List Char)
    (offset : Nat) : stringFrom (some high) acc (c :: cs) offset =
      .failed (.malformed .unfinishedSurrogatePair) (offset + 1) := by
  rw [stringFrom] <;> simp_all

private theorem stringFrom_unpairedEscape {high : Nat} {mark : Char} (hm : mark ≠ 'u') (acc cs : List Char)
    (offset : Nat) : stringFrom (some high) acc ('\\' :: mark :: cs) offset =
      .failed (.malformed .unfinishedSurrogatePair) (offset + 2) := by
  rw [stringFrom] <;> simp_all

private theorem answers_stringFrom (parts : List StringPart) (pending : Option Nat) (acc rest : List Char)
    (offset : Nat) :
    (stringFrom pending acc (parts.flatMap StringPart.chars ++ '"' :: rest) offset).Answers
      ((StringPart.charsAfter? pending parts).map fun cs => String.ofList (acc.reverse ++ cs)) rest := by
  have hcons (c : Char) (cs? : Option (List Char)) (acc : List Char) :
      ((cs?.map (c :: ·)).map fun cs => String.ofList (acc.reverse ++ cs)) =
        cs?.map fun cs => String.ofList ((c :: acc).reverse ++ cs) := by
    cases cs? <;> simp
  induction parts generalizing pending acc offset with
  | nil =>
    cases pending with
    | none => exact ⟨offset + 1, by simp [stringFrom]⟩
    | some high =>
      rw [List.flatMap_nil, List.nil_append, stringFrom_unpaired (by decide)]
      exact Reply.answers_failed _ _ _
  | cons part parts ih =>
    rw [List.flatMap_cons, List.append_assoc]
    cases pending with
    | none =>
      cases part with
      | plain c hq hb hc =>
        rw [StringPart.charsAfter?, hcons]
        change (stringFrom none acc (c :: _) offset).Answers _ rest
        rw [stringFrom_plain hq hb hc]
        exact ih none (c :: acc) _
      | escape mark c h =>
        rw [StringPart.charsAfter?, hcons]
        change (stringFrom none acc ('\\' :: mark :: _) offset).Answers _ rest
        rw [stringFrom_escape h]
        exact ih none (c :: acc) _
      | code a b c d n h =>
        rw [StringPart.charsAfter?]
        change (stringFrom none acc ('\\' :: 'u' :: a :: b :: c :: d :: _) offset).Answers _ rest
        rw [stringFrom_code h]
        split
        · exact Reply.answers_failed _ _ _
        · split
          · exact ih (some n) acc _
          · rw [hcons]
            exact ih none (Char.ofNat n :: acc) _
    | some high =>
      -- Only the second half may follow, and only as a code.
      cases part with
      | plain c hq hb hc =>
        change (stringFrom (some high) acc (c :: _) offset).Answers none rest
        rw [stringFrom_unpaired hb]
        exact Reply.answers_failed _ _ _
      | escape mark c h =>
        change (stringFrom (some high) acc ('\\' :: mark :: _) offset).Answers none rest
        rw [stringFrom_unpairedEscape]
        · exact Reply.answers_failed _ _ _
        · rintro rfl
          cases h
      | code a b c d low h =>
        rw [StringPart.charsAfter?]
        change (stringFrom (some high) acc ('\\' :: 'u' :: a :: b :: c :: d :: _) offset).Answers _ rest
        rw [stringFrom_secondCode h]
        split
        · rw [hcons]
          exact ih none _ _
        · exact Reply.answers_failed _ _ _

theorem gives_string (parts : List StringPart) (depth : Nat) (rest : List Char) :
    string.Gives depth (StringPart.quoted parts ++ rest) (StringPart.text? parts) rest := by
  intro offset
  have h := answers_stringFrom parts none [] rest (offset + 1)
  rw [string, StringPart.quoted, StringPart.text?]
  simp only [List.cons_append, List.append_assoc, List.drop_succ_cons, List.drop_zero,
    List.nil_append, List.reverse_nil] at h ⊢
  exact h

section

variable {depth : Nat} {rest : List Char}

private theorem gives_finish (n? : Option Number) (depth : Nat) (cs : List Char) :
    (finish n?).Gives depth cs n? cs := by
  cases n? with
  | none => exact fun _ => Reply.answers_failed _ _ _
  | some n => exact fun offset => ⟨offset, rfl⟩

theorem Delimits.head (hr : Delimits rest) : ∀ c ∈ rest.head?, c.isDigit = false :=
  fun c hc => (hr c hc).1

private theorem ne_of_isDigit {c d : Char} (hc : c.isDigit) (hd : d.isDigit = false) : c ≠ d := by
  rintro rfl
  rw [hc] at hd
  cases hd

private theorem gives_exponentDigits (e : ExponentForm) (negative : Bool) (value : Nat) (shift : Int)
    (hr : Delimits rest) (depth : Nat) : (exponentDigits negative value shift e.below).Gives depth
      (e.digits.chars ++ rest) (e.number? negative value shift) rest := by
  intro offset
  obtain ⟨ht, hd⟩ := takeWhile_dropWhile_digits e.digits.digit hr.head
  rw [exponentDigits, ExponentForm.number?, Cursor.dropWhile, ht, hd]
  dsimp only
  split
  · exact absurd ‹_› e.digits.ne_nil
  · cases bounded e.digits.chars 0 0 with
    | inl n =>
      dsimp only
      exact gives_finish _ depth rest _
    | inr count =>
      dsimp only
      split
      · exact Reply.answers_failed _ _ _
      · exact gives_finish _ depth rest _

private theorem gives_exponent (e : ExponentForm) (negative : Bool) (value : Nat) (shift : Int)
    (hr : Delimits rest) (depth : Nat) : (exponent negative value shift).Gives depth (e.chars ++ rest)
      (e.number? negative value shift) rest := by
  have hdigits := gives_exponentDigits e negative value shift hr depth
  refine (yields_advance 1 depth _).bind_gives ?_
  refine (yields_next depth _).bind_gives ?_
  rw [ExponentForm.chars, ExponentForm.signChars]
  cases hs : e.sign with
  | none =>
    rw [ExponentForm.below, hs] at hdigits
    obtain ⟨d, ds, hds, hd⟩ := e.digits.exists_cons
    rw [hds] at hdigits ⊢
    split
    · rename_i h
      exact absurd (Option.some.inj h) (ne_of_isDigit hd rfl)
    · rename_i h
      exact absurd (Option.some.inj h) (ne_of_isDigit hd rfl)
    · exact hdigits
  | some below =>
    rw [ExponentForm.below, hs] at hdigits
    cases below with
    | false => exact (yields_advance 1 depth _).bind_gives hdigits
    | true => exact (yields_advance 1 depth _).bind_gives hdigits

private theorem head_exponentChars (e? : Option ExponentForm) (hr : Delimits rest) :
    ∀ c ∈ (NumberForm.exponentChars e? ++ rest).head?, c.isDigit = false := by
  cases e? with
  | none => exact hr.head
  | some e =>
    obtain ⟨capital, sign, digits⟩ := e
    rintro c ⟨⟩
    cases capital <;> rfl

private theorem head_fractionChars (ds? : Option Digits) (e? : Option ExponentForm) (hr : Delimits rest) :
    ∀ c ∈ (NumberForm.fractionChars ds? ++ (NumberForm.exponentChars e? ++ rest)).head?,
      c.isDigit = false := by
  cases ds? with
  | none => exact head_exponentChars e? hr
  | some ds =>
    rintro c ⟨⟩
    rfl

private theorem gives_afterPoint (ds : Digits) (e? : Option ExponentForm) (negative : Bool) (value : Nat)
    (shift : Int) (hr : Delimits rest) (depth : Nat) : (afterPoint negative value shift).Gives depth
      ('.' :: ds.chars ++ (NumberForm.exponentChars e? ++ rest))
      (ExponentForm.scaled? e? negative (keep ds.chars value).1
        (shift - (ds.chars.length - (keep ds.chars value).2 : Nat))) rest := by
  refine (yields_advance 1 depth _).bind_gives ?_
  refine (yields_digits ds.digit (head_exponentChars e? hr) depth).bind_gives ?_
  rw [if_neg (by simpa using ds.ne_nil)]
  refine (yields_next depth _).bind_gives ?_
  cases e? with
  | none =>
    split
    · exact absurd rfl (hr _ ‹_›).2.2.1
    · exact absurd rfl (hr _ ‹_›).2.2.2
    · exact gives_finish _ depth rest
  | some e =>
    have he := gives_exponent e negative (keep ds.chars value).1
      (shift - (ds.chars.length - (keep ds.chars value).2 : Nat)) hr depth
    obtain ⟨capital, sign, digits⟩ := e
    cases capital <;> exact he

private theorem gives_afterWhole (n : NumberForm) (hr : Delimits rest) (depth : Nat) :
    (afterWhole n.negative (keep n.whole.chars 0).1 (keep n.whole.chars 0).2).Gives depth
      (NumberForm.fractionChars n.fraction ++ (NumberForm.exponentChars n.exponent ++ rest))
      n.number? rest := by
  refine (yields_next depth _).bind_gives ?_
  rw [NumberForm.number?]
  generalize keep n.whole.chars 0 = kept
  obtain ⟨value, dropped⟩ := kept
  obtain ⟨negative, _, _, fraction?, exponent?⟩ := n
  cases fraction? with
  | some ds => exact gives_afterPoint ds exponent? negative value dropped hr depth
  | none =>
    cases exponent? with
    | some e =>
      have he := gives_exponent e negative value dropped hr depth
      obtain ⟨capital, _, _⟩ := e
      cases capital <;> exact he
    | none =>
      have hend : (if dropped = 0 then pure (whole negative value)
          else finish (fraction negative value dropped) : Reader Number).Gives depth rest
            (if true ∧ dropped = 0 then some (whole negative value)
              else fraction negative value dropped) rest := by
        by_cases hd : dropped = 0
        · rw [if_pos hd, if_pos ⟨rfl, hd⟩]
          exact yields_pure _ depth rest
        · rw [if_neg hd, if_neg fun h => hd h.2]
          exact gives_finish _ depth rest
      cases rest with
      | nil => exact hend
      | cons c rest =>
        obtain ⟨hd, hp, he, hE⟩ := hr c rfl
        split
        · exact absurd (Option.some.inj ‹_›) hp
        · exact absurd (Option.some.inj ‹_›) he
        · exact absurd (Option.some.inj ‹_›) hE
        · rename_i h
          obtain rfl := Option.some.inj h
          rw [if_neg (ne_true_of_eq_false hd)]
          exact hend
        · exact hend

private theorem gives_unsigned (n : NumberForm) (hr : Delimits rest) (depth : Nat) :
    (unsigned n.negative).Gives depth (n.whole.chars ++ (NumberForm.fractionChars n.fraction ++
      (NumberForm.exponentChars n.exponent ++ rest))) n.number? rest := by
  have hafter := gives_afterWhole n hr depth
  have hhead := head_fractionChars n.fraction n.exponent hr
  generalize NumberForm.fractionChars n.fraction ++ (NumberForm.exponentChars n.exponent ++ rest) = tail
    at hafter hhead ⊢
  obtain ⟨d, ds, hds, hd⟩ := n.whole.exists_cons
  have hfirst : (n.whole.chars ++ tail).head? = some d := by
    rw [hds]
    rfl
  have hzero (h0 : d = '0') : (do advance 1; pure ['0'] : Reader (List Char)).Yields depth
      (n.whole.chars ++ tail) n.whole.chars tail := by
    rw [n.zero_alone (by rw [hds, h0]; rfl)]
    exact (yields_advance 1 depth _).bind (yields_pure _ depth tail)
  refine (yields_next depth _).bind_gives ?_
  rw [hfirst]
  simp only [hd, Bool.not_true, Bool.false_eq_true, if_false]
  split
  · exact (hzero ‹_›).bind_gives hafter
  · exact (yields_digits n.whole.digit hhead depth).bind_gives hafter

private theorem gives_number (n : NumberForm) (hr : Delimits rest) (depth : Nat) :
    number.Gives depth (n.chars ++ rest) n.number? rest := by
  have hunsigned := gives_unsigned n hr depth
  rw [NumberForm.chars, List.append_assoc, List.append_assoc, List.append_assoc]
  refine (yields_next depth _).bind_gives ?_
  cases hn : n.negative with
  | true =>
    rw [hn] at hunsigned
    exact (yields_advance 1 depth _).bind_gives hunsigned
  | false =>
    obtain ⟨d, ds, hds, hd⟩ := n.whole.exists_cons
    rw [hn] at hunsigned
    split
    · rename_i h
      rw [hds] at h
      exact absurd (Option.some.inj h) (ne_of_isDigit hd rfl)
    · exact hunsigned

end

private theorem exists_numberChars_eq_cons (n : NumberForm) :
    ∃ c cs, n.chars = c :: cs ∧ (c = '-' ∨ c.isDigit) := by
  obtain ⟨d, ds, hds, hd⟩ := n.whole.exists_cons
  rw [NumberForm.chars, hds]
  cases n.negative with
  | true => exact ⟨_, _, rfl, .inl rfl⟩
  | false => exact ⟨_, _, rfl, .inr hd⟩

theorem exists_scalarChars_eq_cons (s : ScalarForm) :
    ∃ c cs, s.chars = c :: cs ∧ Scalar.isMark c = false := by
  cases s with
  | null => exact ⟨_, _, rfl, by decide⟩
  | bool b => cases b <;> exact ⟨_, _, rfl, by decide⟩
  | string parts => exact ⟨_, _, rfl, by decide⟩
  | number n =>
    obtain ⟨c, cs, hcs, rfl | hc⟩ := exists_numberChars_eq_cons n
    · exact ⟨_, _, hcs, by decide⟩
    · exact ⟨_, _, hcs, Scalar.isMark_of_isDigit hc⟩

/-- A scalar is read by the reader for its first character. -/
theorem gives_scalar (s : ScalarForm) {c : Char} {cs rest : List Char} (hc : s.chars = c :: cs)
    (hr : Delimits rest) (depth : Nat) :
    (scalar c).Gives depth (s.chars ++ rest) s.scalar? rest := by
  cases s with
  | null =>
    cases hc
    exact (yields_word _ depth rest).bind_gives (yields_pure _ depth rest)
  | bool b =>
    cases b with
    | false =>
      cases hc
      exact (yields_word _ depth rest).bind_gives (yields_pure _ depth rest)
    | true =>
      cases hc
      exact (yields_word _ depth rest).bind_gives (yields_pure _ depth rest)
  | string parts =>
    cases hc
    exact (gives_string parts depth rest).map Scalar.string
  | number n =>
    obtain ⟨c', cs', hcs', hfirst⟩ := exists_numberChars_eq_cons n
    obtain ⟨rfl, rfl⟩ := List.cons.inj (hc.symm.trans hcs')
    have hnumber := (gives_number n hr depth).map Scalar.number
    unfold scalar
    split
    · rcases hfirst with h | h <;> cases h
    · rcases hfirst with h | h <;> cases h
    · rcases hfirst with h | h <;> cases h
    · rcases hfirst with h | h <;> cases h
    · rw [if_pos (by simpa using hfirst)]
      exact hnumber

end Reader

end SideEffectLint.Json
