import SideEffectLint.Proofs.Json.Rounds

/-! A scalar that can be read can be skipped, and that stops where reading it would. Strings are looked at
for their escapes and numbers for their digits. To skip a scalar takes up some text. -/

namespace SideEffectLint.Json

namespace Reader

variable {α β : Type} {depth limit : Nat} {c c' c₁ : Cursor}

private theorem all_hex_of_hexOf {a b c d : Char} {n : Nat} (h : hexOf a b c d = some n) :
    [a, b, c, d].all (fun h => (Text.hexValue h).isSome) = true := by
  simp only [hexOf, Option.bind_eq_bind, Option.bind_eq_some_iff] at h
  obtain ⟨_, ha, _, hb, _, hc, _, hd, -⟩ := h
  simp [ha, hb, hc, hd]

private theorem contains_of_escaped {mark c : Char} (h : escaped mark = some c) :
    "\"\\/bfnrt".toList.contains mark = true := by
  unfold escaped at h
  split at h <;> first | rfl | cases h

private theorem hexStop_ne_done {cause : Malformation} {cs : List Char} {offset : Nat} {text : String} :
    hexStop cause cs offset ≠ .done text c := by
  unfold hexStop
  intro h
  dsimp only at h
  split at h <;> cases h

private theorem skipStringFrom_code {a b c d : Char} {n : Nat} (h : hexOf a b c d = some n)
    (cs : List Char) (offset : Nat) :
    skipStringFrom ('\\' :: 'u' :: a :: b :: c :: d :: cs) offset =
      skipStringFrom cs (offset + 6) := by
  rw [skipStringFrom]
  exact if_pos (all_hex_of_hexOf h)

/-- A string that is read is skipped, also if half of a pair came before. -/
theorem skipStringFrom_of_stringFrom {pending : Option Nat} {acc cs : List Char} {offset : Nat}
    {text : String} (h : stringFrom pending acc cs offset = .done text c') :
    skipStringFrom cs offset = .done () c' := by
  fun_induction stringFrom pending acc cs offset with
  | case9 acc cs offset =>
    cases h
    rfl
  | case3 high acc a b c d cs offset low hx hlow ih => rw [skipStringFrom_code hx, ih h]
  | case12 acc a b c d cs offset high hx hlow hhigh ih => rw [skipStringFrom_code hx, ih h]
  | case13 acc a b c d cs offset code hx hlow hhigh ih => rw [skipStringFrom_code hx, ih h]
  | case16 acc mark cs offset hcode hu c hc ih =>
    rw [skipStringFrom, if_pos (contains_of_escaped hc), ih h]
    · exact hcode
    · exact hu
  | case19 acc c cs offset hq hcode hu hend hmark hc ih =>
    rw [skipStringFrom, if_neg hc, ih h]
    · exact hq
    · exact hcode
    · exact hu
    · exact hend
    · exact hmark
  | case2 | case5 | case10 | case14 => exact absurd h hexStop_ne_done
  | case1 | case4 | case6 | case7 | case8 | case11 | case15 | case17 | case18 => cases h

private theorem finish_eq_done_iff {number : Option Number} {n : Number} :
    finish number depth c = .done n c' ↔ number = some n ∧ c = c' := by
  cases number with
  | none => exact iff_of_false nofun nofun
  | some m =>
    change Reply.done m c = .done n c' ↔ _
    rw [Reply.done.injEq, Option.some.injEq]

private theorem skipDigits_eq (h : c.rest.takeWhile Char.isDigit ≠ []) :
    skipDigits depth c = .done () (c.dropWhile Char.isDigit) := by
  refine bind_eq_done_iff.mpr ⟨_, _, rfl, ?_⟩
  rw [if_neg (by rwa [List.isEmpty_iff])]
  rfl

private theorem nextIs_bind {p : Char → Bool} {f : Bool → Reader α} :
    (nextIs p >>= f) depth c = f (c.rest.head?.any p) depth c :=
  rfl

theorem advance_bind {n : Nat} {f : Unit → Reader α} :
    (advance n >>= f) depth c = f () depth (c.drop n) :=
  rfl

private theorem digits_bind {f : List Char → Reader α} : (digits >>= f) depth c =
    f (c.rest.takeWhile Char.isDigit) depth (c.dropWhile Char.isDigit) :=
  rfl

private theorem next_bind {f : Option Char → Reader α} : (next >>= f) depth c = f c.rest.head? depth c :=
  rfl

private theorem skipDigits_of_exponentDigits {negative below : Bool} {value : Nat} {shift : Int}
    {n : Number} (h : exponentDigits negative value shift below depth c = .done n c') :
    skipDigits limit c = .done () c' := by
  cases hds : c.rest.takeWhile Char.isDigit with
  | nil =>
    simp only [exponentDigits, hds] at h
    cases h
  | cons d ds =>
    rw [skipDigits_eq (hds ▸ List.cons_ne_nil d ds)]
    simp only [exponentDigits, hds] at h
    split at h
    · rw [(finish_eq_done_iff.mp h).2]
    · split at h
      · cases h
      · rw [(finish_eq_done_iff.mp h).2]

private theorem skipExponent_of_exponent {negative : Bool} {value : Nat} {shift : Int} {n : Number}
    (h : exponent negative value shift depth c = .done n c') :
    skipExponent limit c = .done () c' := by
  rw [exponent, advance_bind, next_bind] at h
  rw [skipExponent, advance_bind, nextIs_bind]
  generalize (c.drop 1).rest.head? = sign at h ⊢
  split at h
  · exact skipDigits_of_exponentDigits h
  · exact skipDigits_of_exponentDigits h
  · rename_i hplus hminus
    have hsign : sign.any (fun c => c = '+' || c = '-') = false := by
      cases sign with
      | none => rfl
      | some x => simpa using And.intro hplus hminus
    rw [hsign]
    exact skipDigits_of_exponentDigits h

private theorem skipAnyExponent_of_mark (h : c.rest.head? = some 'e' ∨ c.rest.head? = some 'E') :
    skipAnyExponent depth c = skipExponent depth c := by
  rw [skipAnyExponent, nextIs_bind]
  rcases h with h | h
  · rw [h]
    rfl
  · rw [h]
    rfl

private theorem skipAnyExponent_of_other (he : c.rest.head? ≠ some 'e')
    (hE : c.rest.head? ≠ some 'E') : skipAnyExponent depth c = .done () c := by
  rw [skipAnyExponent, nextIs_bind]
  have hmark : c.rest.head?.any isExponentMark = false := by
    cases hc : c.rest.head? with
    | none => rfl
    | some x =>
      rw [hc] at he hE
      simpa [isExponentMark] using And.intro he hE
  rw [hmark]
  rfl

private theorem skipFraction_of_afterPoint {negative : Bool} {value : Nat} {shift : Int} {n : Number}
    (h : afterPoint negative value shift depth c = .done n c') :
    skipFraction limit c = .done () c' := by
  rw [afterPoint, advance_bind, digits_bind] at h
  rw [skipFraction, advance_bind]
  generalize c.drop 1 = c at h ⊢
  by_cases hds : c.rest.takeWhile Char.isDigit = []
  · rw [if_pos (List.isEmpty_iff.mpr hds), next_bind] at h
    generalize (c.dropWhile Char.isDigit).rest.head? = first at h
    split at h <;> cases h
  · rw [if_neg (by rwa [List.isEmpty_iff])] at h
    refine bind_eq_done_iff.mpr ⟨(), _, skipDigits_eq hds, ?_⟩
    dsimp only at h
    rw [next_bind] at h
    generalize c.dropWhile Char.isDigit = c at h ⊢
    generalize hmark : c.rest.head? = mark at h
    split at h
    · rw [skipAnyExponent_of_mark (.inl hmark)]
      exact skipExponent_of_exponent h
    · rw [skipAnyExponent_of_mark (.inr hmark)]
      exact skipExponent_of_exponent h
    · obtain ⟨-, rfl⟩ := finish_eq_done_iff.mp h
      exact skipAnyExponent_of_other (hmark ▸ ‹_›) (hmark ▸ ‹_›)

private theorem skipAfterWhole_of_afterWhole {negative : Bool} {value dropped : Nat} {n : Number}
    (h : afterWhole negative value dropped depth c = .done n c') :
    skipAfterWhole limit c = .done () c' ∧ c.rest.head?.any Char.isDigit = false := by
  have hend (h : (if dropped = 0 then pure (whole negative value)
      else finish (fraction negative value dropped) : Reader Number) depth c = .done n c') : c = c' := by
    split at h
    · exact (pure_eq_done_iff.mp h).2
    · exact (finish_eq_done_iff.mp h).2
  rw [afterWhole, next_bind] at h
  rw [skipAfterWhole, nextIs_bind]
  generalize hfirst : c.rest.head? = first at h
  split at h
  · exact ⟨skipFraction_of_afterPoint h, rfl⟩
  · refine ⟨?_, rfl⟩
    rw [if_neg (by decide), skipAnyExponent_of_mark (.inl hfirst)]
    exact skipExponent_of_exponent h
  · refine ⟨?_, rfl⟩
    rw [if_neg (by decide), skipAnyExponent_of_mark (.inr hfirst)]
    exact skipExponent_of_exponent h
  · rename_i x hpoint he hE
    split at h
    · cases h
    · obtain rfl := hend h
      refine ⟨?_, Bool.eq_false_iff.mpr ‹_›⟩
      rw [if_neg (by simpa using hpoint)]
      exact skipAnyExponent_of_other (by simpa [hfirst] using he) (by simpa [hfirst] using hE)
  · obtain rfl := hend h
    refine ⟨?_, rfl⟩
    rw [if_neg nofun]
    exact skipAnyExponent_of_other (by simp [hfirst]) (by simp [hfirst])

private theorem skipUnsigned_of_unsigned {negative : Bool} {n : Number}
    (h : unsigned negative depth c = .done n c') : skipUnsigned limit c = .done () c' := by
  rw [unsigned, next_bind] at h
  rw [skipUnsigned, nextIs_bind]
  cases hfirst : c.rest.head? with
  | none =>
    rw [hfirst] at h
    cases h
  | some first =>
    rw [hfirst] at h
    dsimp only at h
    split at h
    · cases h
    · rename_i hdigit
      split at h
      · obtain ⟨hskip, hnext⟩ := skipAfterWhole_of_afterWhole h
        rw [if_pos (by simpa using ‹first = '0'›), advance_bind, nextIs_bind, hnext]
        exact hskip
      · rw [digits_bind] at h
        have hds : c.rest.takeWhile Char.isDigit ≠ [] := by
          obtain ⟨cs, hcs⟩ := List.head?_eq_some_iff.mp hfirst
          rw [hcs, List.takeWhile_cons_of_pos (by simpa using hdigit)]
          exact List.cons_ne_nil _ _
        rw [if_neg (by simpa using ‹¬ first = '0'›)]
        exact bind_eq_done_iff.mpr ⟨(), _, skipDigits_eq hds, (skipAfterWhole_of_afterWhole h).1⟩

private theorem skipNumber_of_number {n : Number} (h : number depth c = .done n c') :
    skipNumber limit c = .done () c' := by
  rw [number, next_bind] at h
  rw [skipNumber, nextIs_bind]
  generalize c.rest.head? = first at h ⊢
  split at h
  · exact skipUnsigned_of_unsigned h
  · rename_i hsign
    have hminus : first.any (· = '-') = false := by
      cases first with
      | none => rfl
      | some x => simpa using hsign
    rw [hminus]
    exact skipUnsigned_of_unsigned h

/-- A scalar that is read is skipped, whatever brackets may be opened there. -/
theorem skipScalar_of_scalar {first : Char} {s : Scalar} (h : scalar first depth c = .done s c') :
    skipScalar first limit c = .done () c' := by
  unfold scalar at h
  unfold skipScalar
  split at h
  · obtain ⟨_, hw, -⟩ := bind_pure_eq_done_iff.mp h
    rw [← hw]
    rfl
  · obtain ⟨_, hw, -⟩ := bind_pure_eq_done_iff.mp h
    rw [← hw]
    rfl
  · obtain ⟨_, hw, -⟩ := bind_pure_eq_done_iff.mp h
    rw [← hw]
    rfl
  · obtain ⟨text, ht, -⟩ := bind_pure_eq_done_iff.mp h
    exact skipStringFrom_of_stringFrom ht
  · split at h
    · rename_i hn ht hf hq hfirst
      obtain ⟨n, hnumber, -⟩ := bind_pure_eq_done_iff.mp h
      have hskip : skipNumber limit c = .done () c' := skipNumber_of_number hnumber
      split
      · exact absurd rfl hq
      · exact absurd rfl hn
      · exact absurd rfl ht
      · exact absurd rfl hf
      · rwa [if_pos hfirst]
    · cases h

/-- The reader leaves no more text than it finds. -/
def Shrinks (r : Reader α) : Prop :=
  ∀ depth c a c', r depth c = .done a c' → c'.rest.length ≤ c.rest.length

theorem Shrinks.bind {r : Reader α} {f : α → Reader β} (hr : r.Shrinks)
    (hf : ∀ a, (f a).Shrinks) : (r >>= f).Shrinks := by
  intro depth c b c' h
  obtain ⟨a, c₁, ha, hb⟩ := bind_eq_done_iff.mp h
  exact Nat.le_trans (hf a _ _ _ _ hb) (hr _ _ _ _ ha)

theorem shrinks_pure (a : α) : (pure a : Reader α).Shrinks := by
  rintro depth c b c' ⟨⟩
  exact Nat.le_refl _

theorem shrinks_malformed (cause : Malformation) : (malformed cause : Reader α).Shrinks :=
  nofun

theorem shrinks_advance (n : Nat) : (advance n).Shrinks := by
  rintro depth c a c' ⟨⟩
  exact (List.drop_suffix n c.rest).length_le

theorem shrinks_peek : peek.Shrinks := by
  rintro depth c a c' ⟨⟩
  exact (List.dropWhile_suffix isBlank).length_le

private theorem shrinks_nextIs (p : Char → Bool) : (nextIs p).Shrinks := by
  rintro depth c a c' ⟨⟩
  exact Nat.le_refl _

private theorem shrinks_digits : digits.Shrinks := by
  rintro depth c a c' ⟨⟩
  exact (List.dropWhile_suffix Char.isDigit).length_le

private theorem shrinks_skipDigits : skipDigits.Shrinks := by
  refine shrinks_digits.bind fun ds => ?_
  split
  · exact shrinks_malformed _
  · exact shrinks_pure ()

private theorem shrinks_skipExponent : skipExponent.Shrinks := by
  refine (shrinks_advance 1).bind fun _ => (shrinks_nextIs _).bind fun b => ?_
  split
  · exact (shrinks_advance 1).bind fun _ => shrinks_skipDigits
  · exact shrinks_skipDigits

private theorem shrinks_skipAnyExponent : skipAnyExponent.Shrinks := by
  refine (shrinks_nextIs _).bind fun b => ?_
  split
  · exact shrinks_skipExponent
  · exact shrinks_pure ()

private theorem shrinks_skipAfterWhole : skipAfterWhole.Shrinks := by
  refine (shrinks_nextIs _).bind fun b => ?_
  split
  · exact (shrinks_advance 1).bind fun _ => shrinks_skipDigits.bind fun _ => shrinks_skipAnyExponent
  · exact shrinks_skipAnyExponent

private theorem skipStringFrom_le {cs : List Char} {offset : Nat}
    (h : skipStringFrom cs offset = .done () c') : c'.rest.length ≤ cs.length := by
  fun_induction skipStringFrom cs offset with
  | case2 cs offset =>
    cases h
    exact Nat.le_succ _
  | case3 a b c d cs offset hx ih => exact Nat.le_trans (ih h) (Nat.le_add_right _ 6)
  | case8 mark cs offset hcode hu hmark ih =>
    have := ih h
    simp only [List.length_cons]
    omega
  | case11 c cs offset hq hcode hu hend hmark hc ih =>
    have := ih h
    simp only [List.length_cons]
    omega
  | case1 | case4 | case5 | case6 | case7 | case9 | case10 => cases h

private theorem word_le {ws : List Char} {depth : Nat} (h : word ws depth c = .done () c') :
    c'.rest.length + ws.length ≤ c.rest.length := by
  induction ws generalizing c with
  | nil =>
    cases h
    exact Nat.le_refl _
  | cons w ws ih =>
    cases hcs : c.rest with
    | nil =>
      simp only [word, hcs] at h
      cases h
    | cons ch cs =>
      simp only [word, hcs] at h
      split at h
      · have hle := ih h
        rw [Cursor.drop, hcs] at hle
        exact Nat.succ_le_succ hle
      · cases h

theorem shrinks_skipString : skipString.Shrinks :=
  fun _ _ _ _ h => Nat.le_trans (skipStringFrom_le h) (List.drop_suffix 1 _).length_le

theorem drop_lt (h : c.rest ≠ []) : (c.drop 1).rest.length < c.rest.length := by
  rw [Cursor.drop, List.length_drop]
  exact Nat.sub_lt (List.length_pos_of_ne_nil h) Nat.one_pos

private theorem ne_nil_of_any {p : Char → Bool} (h : c.rest.head?.any p = true) : c.rest ≠ [] := by
  intro hc
  rw [hc] at h
  cases h

private theorem skipDigits_lt (h : skipDigits depth c = .done () c') : c'.rest.length < c.rest.length := by
  rw [skipDigits, digits_bind] at h
  split at h
  · cases h
  · rename_i hds
    obtain ⟨-, rfl⟩ := pure_eq_done_iff.mp h
    have hlength := congrArg List.length (c.rest.takeWhile_append_dropWhile (p := Char.isDigit))
    have hpos := List.length_pos_of_ne_nil (mt List.isEmpty_iff.mpr hds)
    rw [List.length_append] at hlength
    change (c.rest.dropWhile Char.isDigit).length < _
    omega

private theorem skipUnsigned_lt (h : skipUnsigned depth c = .done () c') :
    c'.rest.length < c.rest.length := by
  rw [skipUnsigned, nextIs_bind] at h
  split at h
  · have hlt := drop_lt (ne_nil_of_any ‹_›)
    rw [advance_bind, nextIs_bind] at h
    split at h
    · cases h
    · exact Nat.lt_of_le_of_lt (shrinks_skipAfterWhole _ _ _ _ h) hlt
  · obtain ⟨_, c₁, hd, h⟩ := bind_eq_done_iff.mp h
    exact Nat.lt_of_le_of_lt (shrinks_skipAfterWhole _ _ _ _ h) (skipDigits_lt hd)

private theorem skipNumber_lt (h : skipNumber depth c = .done () c') :
    c'.rest.length < c.rest.length := by
  rw [skipNumber, nextIs_bind] at h
  split at h
  · exact Nat.lt_trans (skipUnsigned_lt h) (drop_lt (ne_nil_of_any ‹_›))
  · exact skipUnsigned_lt h

theorem skipScalar_lt {first : Char} (hc : c.rest ≠ [])
    (h : skipScalar first depth c = .done () c') : c'.rest.length < c.rest.length := by
  have hword {ws : List Char} (hw : word ws depth c = .done () c') (hn : 0 < ws.length) :
      c'.rest.length < c.rest.length :=
    Nat.lt_of_lt_of_le (Nat.lt_add_of_pos_right hn) (word_le hw)
  unfold skipScalar at h
  split at h
  · exact Nat.lt_of_le_of_lt (skipStringFrom_le h) (drop_lt hc)
  · exact hword h (by decide)
  · exact hword h (by decide)
  · exact hword h (by decide)
  · split at h
    · exact skipNumber_lt h
    · cases h

end Reader

end SideEffectLint.Json
