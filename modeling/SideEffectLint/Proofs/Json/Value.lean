import Mathlib.Data.List.Forall2
import SideEffectLint.Json.Decoder
import SideEffectLint.Proofs.Json.Scalar

/-! Reading values from the text that was printed for them: what brackets enclose is read entry by
entry, and a value whose brackets are not too deep is read back as it is. -/

namespace SideEffectLint.Json

namespace Value

mutual

/-- All scalars of the value are plain, and it opens so many brackets inside of each other at most. -/
def Fits : Value → Nat → Prop
  | .scalar s, _ => s.IsPlain
  | .array _, 0 | .object _, 0 => False
  | .array vs, depth + 1 => itemsFit vs depth
  | .object ms, depth + 1 => membersFit ms depth

def itemsFit : List Value → Nat → Prop
  | [], _ => True
  | v :: vs, depth => v.Fits depth ∧ itemsFit vs depth

def membersFit : List Member → Nat → Prop
  | [], _ => True
  | .mk _ v :: ms, depth => v.Fits depth ∧ membersFit ms depth

end

@[simp]
theorem fits_string (text : String) (depth : Nat) : (string text).Fits depth :=
  trivial

@[simp]
theorem fits_natural {n depth : Nat} : (natural n).Fits depth ↔ n < UInt64.size := by
  rw [natural, Fits, Scalar.IsPlain]
  constructor
  · rintro ⟨m, hm, hlt⟩
    obtain rfl := Int.ofNat_inj.mp hm
    exact hlt
  · exact fun h => ⟨n, rfl, h⟩

section

variable {ι : Type}

/-- Entries on lines of their own, with a comma in front of those that are not the first. -/
def entries (indent : Nat) (text : ι → List Char) : Bool → List ι → List Char
  | _, [] => []
  | first, i :: is =>
    (if first then [] else [',']) ++ newLine indent ++ text i ++ entries indent text false is

/-- What stands between the last entry and the closing bracket. -/
def closing (indent : Nat) (is : List ι) : List Char :=
  if is.isEmpty then [] else newLine indent

end

private theorem moreItems_eq (indent : Nat) (vs : List Value) :
    moreItems indent vs = entries indent (chars indent) false vs := by
  induction vs with
  | nil => rw [moreItems, entries]
  | cons v vs ih => simp [moreItems, entries, ih]

private theorem moreMembers_eq (indent : Nat) (ms : List Member) :
    moreMembers indent ms = entries indent (memberChars indent) false ms := by
  induction ms with
  | nil => rw [moreMembers, entries]
  | cons m ms ih => simp [moreMembers, entries, ih]

private theorem chars_array (indent : Nat) (vs : List Value) :
    (array vs).chars indent =
      '[' :: entries (indent + 1) (chars (indent + 1)) true vs ++ closing indent vs ++ [']'] := by
  cases vs <;> simp [chars, entries, closing, moreItems_eq]

private theorem chars_object (indent : Nat) (ms : List Member) :
    (object ms).chars indent =
      '\x7b' :: entries (indent + 1) (memberChars (indent + 1)) true ms ++ closing indent ms ++
        ['\x7d'] := by
  cases ms <;> simp [chars, entries, closing, moreMembers_eq]

/-- What a value starts with is neither blank nor the end of a list. -/
theorem exists_chars_eq_cons {v : Value} {depth : Nat} (h : v.Fits depth) (indent : Nat) :
    ∃ c cs, v.chars indent = c :: cs ∧ Reader.isBlank c = false ∧ c ≠ ']' := by
  cases v with
  | scalar s =>
    obtain ⟨c, cs, hcs, hc⟩ := Scalar.exists_chars_eq_cons (by rwa [Fits] at h)
    simp only [Scalar.isMark, Bool.or_eq_false_iff] at hc
    refine ⟨c, cs, hcs, hc.1, ?_⟩
    rintro rfl
    cases hc.2
  | array vs => exact ⟨_, _, chars_array indent vs, by decide, by decide⟩
  | object ms => exact ⟨_, _, chars_object indent ms, by decide, by decide⟩

end Value

namespace Reader

open Value

variable {α σ ι : Type} {depth indent : Nat} {cs ds rest : List Char}

private theorem isBlank_of_mem_newLine {indent : Nat} : ∀ b ∈ newLine indent, isBlank b := by
  intro b hb
  rcases List.mem_cons.mp hb with rfl | hb
  · rfl
  · rw [List.eq_of_mem_replicate hb]
    rfl

private theorem isBlank_of_mem_closing {is : List ι} : ∀ b ∈ closing indent is, isBlank b := by
  unfold closing
  split
  · nofun
  · exact isBlank_of_mem_newLine

private theorem delimits_closing {is : List ι} {c : Char} (hc : Delimits (c :: rest)) :
    Delimits (closing indent is ++ c :: rest) := by
  unfold closing
  split
  · exact hc
  · rintro c ⟨⟩
    decide

private theorem delimits_entries {text : ι → List Char} {is : List ι} (hr : Delimits rest) :
    Delimits (entries indent text false is ++ rest) := by
  cases is with
  | nil => exact hr
  | cons i is =>
    rintro c ⟨⟩
    decide

theorem repeatFrom_last {step : σ → Reader (σ ⊕ α)} {acc : σ} {value : α}
    (h : (step acc).Yields depth cs (.inr value) ds) (fuel : List Char) :
    (repeatFrom step fuel acc).Yields depth cs value ds := by
  intro offset
  obtain ⟨offset', h⟩ := h offset
  refine ⟨offset', ?_⟩
  rw [repeatFrom.eq_def, h]

private theorem repeatFrom_next {step : σ → Reader (σ ⊕ α)} {acc acc' : σ} {value : α}
    (h : (step acc).Yields depth cs (.inl acc') ds) {char : Char} {fuel : List Char}
    (hs : (repeatFrom step fuel acc').Yields depth ds value rest) :
    (repeatFrom step (char :: fuel) acc).Yields depth cs value rest := by
  intro offset
  obtain ⟨offset', h⟩ := h offset
  obtain ⟨offset'', hs⟩ := hs offset'
  refine ⟨offset'', ?_⟩
  rw [repeatFrom.eq_def, h]
  exact hs

/-- The entries lead from one state to another. -/
inductive Leads (next : σ → ι → σ → Prop) : σ → List ι → σ → Prop
  | nil (s : σ) : Leads next s [] s
  | cons {s s' s'' : σ} {i : ι} {is : List ι} :
    next s i s' → Leads next s' is s'' → Leads next s (i :: is) s''

theorem Leads.append {next : σ → ι → σ → Prop} {s s' s'' : σ} {is js : List ι}
    (h : Leads next s is s') (hj : Leads next s' js s'') : Leads next s (is ++ js) s'' := by
  induction h with
  | nil s => exact hj
  | cons hi _ ih => exact .cons hi (ih hj)

theorem Leads.imp {next next' : σ → ι → σ → Prop} (hn : ∀ s i s', next s i s' → next' s i s')
    {s s' : σ} {is : List ι} (h : Leads next s is s') : Leads next' s is s' := by
  induction h with
  | nil s => exact .nil s
  | cons hi _ ih => exact .cons (hn _ _ _ hi) ih

/-- In each round the step takes one entry, with the comma in front of one that is not the first.
`first` tells of a state whether no entry has been read yet. -/
def TakesEntry (step : σ → Reader (σ ⊕ α)) (next : σ → ι → σ → Prop) (first : σ → Bool) (depth : Nat)
    (indent : Nat) (text : ι → List Char) : Prop :=
  ∀ {s i s'} rest, next s i s' → Delimits rest → first s' = false ∧
    (step s).Yields depth ((if first s then [] else [',']) ++ newLine indent ++ text i ++ rest)
      (.inl s') rest

section

variable {step : σ → Reader (σ ⊕ α)} {next : σ → ι → σ → Prop} {first : σ → Bool}
  {text : ι → List Char} {s s' : σ} {is : List ι} {value : α}

private theorem repeatFrom_entries (hstep : TakesEntry step next first depth indent text)
    (hl : Leads next s is s') (hend : (step s').Yields depth cs (.inr value) ds) (hd : Delimits cs)
    {fuel : List Char} (hf : is.length ≤ fuel.length) :
    (repeatFrom step fuel s).Yields depth (entries indent text (first s) is ++ cs) value ds := by
  induction hl generalizing fuel with
  | nil s => exact repeatFrom_last hend fuel
  | @cons s s₁ s' i is hi _ ih =>
    obtain ⟨char, fuel, rfl⟩ := List.exists_cons_of_length_pos (Nat.lt_of_lt_of_le (Nat.succ_pos _) hf)
    obtain ⟨hf₁, hs₁⟩ := hstep (entries indent text false is ++ cs) hi (delimits_entries hd)
    have hrest := ih hend (Nat.le_of_succ_le_succ hf)
    rw [hf₁] at hrest
    rw [entries, List.append_assoc]
    exact repeatFrom_next hs₁ hrest

private theorem length_le_entries (text : ι → List Char) (first : Bool) (is : List ι) :
    is.length ≤ (entries indent text first is).length := by
  induction is generalizing first with
  | nil => exact Nat.zero_le _
  | cons i is ih =>
    have := ih false
    simp only [entries, newLine, List.length_append, List.length_cons]
    omega

/-- Every entry takes up a line, so the unread text bounds their number. -/
theorem repeating_entries (hstep : TakesEntry step next first depth indent text)
    (hl : Leads next s is s') (hend : (step s').Yields depth cs (.inr value) ds)
    (hd : Delimits cs) :
    (repeating s step).Yields depth (entries indent text (first s) is ++ cs) value ds := by
  intro offset
  refine repeatFrom_entries hstep hl hend hd ?_ offset
  rw [List.length_append]
  exact Nat.le_add_right_of_le (length_le_entries text (first s) is)

end

theorem yields_hasItem_end {blanks : List Char} (hb : ∀ b ∈ blanks, isBlank b) (first : Bool)
    (depth : Nat) (rest : List Char) :
    (hasItem first).Yields depth (blanks ++ ']' :: rest) false (']' :: rest) :=
  (yields_peek hb rfl depth rest).bind (yields_pure false depth _)

theorem yields_hasItem {blanks : List Char} (hb : ∀ b ∈ blanks, isBlank b) {c : Char}
    (hc : isBlank c = false) (hn : c ≠ ']') (first : Bool) (depth : Nat) (cs : List Char) :
    (hasItem first).Yields depth ((if first then [] else [',']) ++ blanks ++ c :: cs) true
      (c :: cs) := by
  cases first with
  | true =>
    refine (yields_peek hb hc depth cs).bind ?_
    split
    · cases ‹some c = none›
    · exact absurd (Option.some.inj ‹_›) hn
    · exact yields_pure true depth _
  | false =>
    refine (yields_peek (List.forall_mem_nil _) rfl depth (blanks ++ c :: cs)).bind ?_
    refine (yields_advance 1 depth _).bind ?_
    refine (yields_peek hb hc depth cs).bind ?_
    split
    · cases ‹some c = none›
    · exact absurd (Option.some.inj ‹_›) hn
    · exact yields_pure true depth _

/-- The reader takes the printed value for `a`, whatever blanks stand in front of it and whatever
delimits it. -/
def Takes (r : Reader α) (depth : Nat) (v : Value) (a : α) : Prop :=
  ∀ indent blanks rest, (∀ b ∈ blanks, isBlank b) → Delimits rest →
    r.Yields depth (blanks ++ v.chars indent ++ rest) a rest

/-- One round of reading items: the next item is put on top, or the items read are turned round. -/
def itemStep (first : Bool) (item : Reader α) (acc : List α) : Reader (List α ⊕ List α) := do
  if ← hasItem (first && acc.isEmpty) then return .inl ((← item) :: acc) else return .inr acc.reverse

private def NextItem (item : Reader α) (depth : Nat) (acc : List α) (v : Value) (acc' : List α) :
    Prop :=
  ∃ a, item.Takes depth v a ∧ v.Fits depth ∧ acc' = a :: acc

private theorem takesEntry_item (item : Reader α) (depth indent : Nat) :
    TakesEntry (itemStep true item) (NextItem item depth) List.isEmpty depth indent (chars indent) := by
  rintro acc v _ rest ⟨a, hv, hvf, rfl⟩ hr
  obtain ⟨c, cs, hcs, hc, hn⟩ := exists_chars_eq_cons hvf indent
  have hitem := hv indent [] rest nofun hr
  refine ⟨rfl, ?_⟩
  rw [List.append_assoc]
  rw [List.nil_append, hcs] at hitem
  rw [hcs]
  refine (yields_hasItem isBlank_of_mem_newLine hc hn acc.isEmpty depth (cs ++ rest)).bind ?_
  exact hitem.bind (yields_pure _ depth rest)

private theorem leads_items {item : Reader α} {vs : List Value} {as : List α}
    (hf : itemsFit vs depth) (h : List.Forall₂ (item.Takes depth) vs as) (acc : List α) :
    Leads (NextItem item depth) acc vs (as.reverse ++ acc) := by
  induction h generalizing acc with
  | nil => exact .nil acc
  | @cons v a vs as hv _ ih =>
    rw [itemsFit] at hf
    rw [List.reverse_cons, List.append_assoc]
    exact .cons ⟨a, hv, hf.1, rfl⟩ (ih hf.2 (a :: acc))

/-- The items of a list are read one by one. -/
theorem yields_items {item : Reader α} {vs : List Value} {as : List α}
    (hf : itemsFit vs depth) (h : List.Forall₂ (item.Takes depth) vs as) (indent : Nat)
    (rest : List Char) : (items item).Yields depth
      (entries indent (chars indent) true vs ++ (closing (indent - 1) vs ++ ']' :: rest)) as
      (']' :: rest) := by
  have hend : (itemStep true item (as.reverse ++ [])).Yields depth
      (closing (indent - 1) vs ++ ']' :: rest) (.inr as) (']' :: rest) := by
    refine (yields_hasItem_end isBlank_of_mem_closing _ depth rest).bind ?_
    rw [List.append_nil, List.reverse_reverse]
    exact yields_pure _ depth _
  have hd : Delimits (']' :: rest) := by
    rintro c ⟨⟩
    decide
  exact repeating_entries (takesEntry_item item depth indent) (leads_items hf h []) hend
    (delimits_closing hd)

theorem yields_hasMember_end {blanks : List Char} (hb : ∀ b ∈ blanks, isBlank b) (first : Bool)
    (depth : Nat) (rest : List Char) :
    (hasMember first).Yields depth (blanks ++ '\x7d' :: rest) false ('\x7d' :: rest) :=
  (yields_peek hb rfl depth rest).bind (yields_pure false depth _)

theorem yields_hasMember {blanks : List Char} (hb : ∀ b ∈ blanks, isBlank b) (first : Bool)
    (depth : Nat) (cs : List Char) :
    (hasMember first).Yields depth ((if first then [] else [',']) ++ blanks ++ '"' :: cs) true
      ('"' :: cs) := by
  cases first with
  | true => exact (yields_peek hb rfl depth cs).bind (yields_pure true depth _)
  | false =>
    refine (yields_peek (List.forall_mem_nil _) rfl depth (blanks ++ '"' :: cs)).bind ?_
    refine (yields_advance 1 depth _).bind ?_
    exact (yields_peek hb rfl depth cs).bind (yields_pure true depth _)

/-- The reader takes the colon and the printed value behind a key. -/
def TakesMember (r : Reader σ) (depth : Nat) (v : Value) (s : σ) : Prop :=
  ∀ indent rest, Delimits rest → r.Yields depth (':' :: ' ' :: v.chars indent ++ rest) s rest

/-- The members of an object lead from one state to another. -/
def Folds (step : σ → String → Reader σ) (depth : Nat) : σ → List Member → σ → Prop :=
  Leads fun s m s' => (step s m.key).TakesMember depth m.value s'

/-- One round of reading members: a key and what stands behind it, or the state so far. -/
def memberStep (step : σ → String → Reader σ) (s : Bool × σ) : Reader ((Bool × σ) ⊕ σ) := do
  if ← hasMember s.1 then return .inl (false, ← step s.2 (← string)) else return .inr s.2

private def NextMember (step : σ → String → Reader σ) (depth : Nat) (s : Bool × σ) (m : Member)
    (s' : Bool × σ) : Prop :=
  (step s.2 m.key).TakesMember depth m.value s'.2 ∧ s'.1 = false

private theorem takesEntry_member (step : σ → String → Reader σ) (depth indent : Nat) :
    TakesEntry (memberStep step) (NextMember step depth) Prod.fst depth indent
      (memberChars indent) := by
  rintro ⟨first, s⟩ ⟨key, v⟩ ⟨_, s'⟩ rest ⟨hm, rfl⟩ hr
  refine ⟨rfl, ?_⟩
  have hkey := yields_string key depth (':' :: ' ' :: v.chars indent ++ rest)
  rw [memberChars, List.append_assoc _ _ rest, List.append_assoc (quotedChars key)]
  refine (yields_hasMember isBlank_of_mem_newLine first depth _).bind ?_
  exact hkey.bind ((hm indent rest hr).bind (yields_pure _ depth rest))

private theorem leads_members {step : σ → String → Reader σ} {s s' : σ} {ms : List Member}
    (h : Folds step depth s ms s') (first : Bool) :
    ∃ last, Leads (NextMember step depth) (first, s) ms (last, s') := by
  induction h generalizing first with
  | nil s => exact ⟨first, .nil _⟩
  | cons hm _ ih =>
    obtain ⟨last, ih⟩ := ih false
    exact ⟨last, .cons ⟨hm, rfl⟩ ih⟩

/-- The members of an object are read one by one. -/
theorem yields_foldMembers {step : σ → String → Reader σ} {s s' : σ} {ms : List Member}
    (h : Folds step depth s ms s') (indent : Nat) (rest : List Char) :
    (foldMembers s step).Yields depth
      (entries indent (memberChars indent) true ms ++ (closing (indent - 1) ms ++ '\x7d' :: rest))
      s' ('\x7d' :: rest) := by
  obtain ⟨last, h⟩ := leads_members h true
  have hend : (memberStep step (last, s')).Yields depth (closing (indent - 1) ms ++ '\x7d' :: rest)
      (.inr s') ('\x7d' :: rest) :=
    (yields_hasMember_end isBlank_of_mem_closing _ depth rest).bind (yields_pure _ depth _)
  have hd : Delimits ('\x7d' :: rest) := by
    rintro c ⟨⟩
    decide
  exact repeating_entries (takesEntry_member step depth indent) h hend (delimits_closing hd)

theorem yields_colon (depth : Nat) (cs : List Char) : colon.Yields depth (':' :: cs) () cs :=
  (yields_peek (List.forall_mem_nil _) rfl depth cs).bind (yields_advance 1 depth _)

theorem Takes.member {r : Reader α} {v : Value} {a : α} (h : r.Takes depth v a) (f : α → σ) :
    TakesMember (do
      colon
      return f (← r)) depth v (f a) := by
  intro indent rest hr
  refine (yields_colon depth _).bind ?_
  exact (h indent [' '] rest (List.forall_mem_singleton.mpr rfl) hr).bind (yields_pure _ depth rest)

theorem yields_enclosed {close : Cursor → Cursor × Option Malformation} {r : Reader α}
    {value : α} (bracket : Char) (hr : r.Yields depth cs value ds)
    (hc : ∀ offset, ∃ offset', close ⟨ds, offset⟩ = (⟨rest, offset'⟩, none)) :
    (enclosed close r).Yields (depth + 1) (bracket :: cs) value rest := by
  intro offset
  obtain ⟨offset', hr⟩ := hr (offset + Cursor.utf8Length [bracket])
  obtain ⟨offset'', hc⟩ := hc offset'
  refine ⟨offset'', ?_⟩
  have ho : opened r (depth + 1) ⟨bracket :: cs, offset⟩ = .done value ⟨ds, offset'⟩ := hr
  rw [enclosed, ho]
  simp only [hc]

theorem closeList_bracket (rest : List Char) (offset : Nat) :
    ∃ offset', closeList ⟨']' :: rest, offset⟩ = (⟨rest, offset'⟩, none) :=
  ⟨_, rfl⟩

theorem closeObject_bracket (rest : List Char) (offset : Nat) :
    ∃ offset', closeObject ⟨'\x7d' :: rest, offset⟩ = (⟨rest, offset'⟩, none) :=
  ⟨_, rfl⟩

theorem yields_peekValue {blanks : List Char} (hb : ∀ b ∈ blanks, isBlank b) {c : Char}
    (hc : isBlank c = false) (depth : Nat) (cs : List Char) :
    peekValue.Yields depth (blanks ++ c :: cs) c (c :: cs) :=
  (yields_peek hb hc depth cs).bind (yields_pure c depth _)

section

variable {β : Type} {k : Char → Reader α} {a : α} {b : β}

private theorem takes_scalar {s : Scalar} (hs : s.IsPlain)
    (hk : ∀ {c cs rest}, Scalar.isMark c = false → (scalar c).Yields depth cs s rest →
      (k c).Yields depth cs a rest) : (peekValue >>= k).Takes depth (.scalar s) a := by
  intro indent blanks rest hb hr
  obtain ⟨c, cs, hcs, hc⟩ := Scalar.exists_chars_eq_cons hs
  have hscalar := hk hc (Scalar.yields_scalar hs hcs hr depth)
  have hblank := (Bool.or_eq_false_iff.mp hc).1
  rw [chars, List.append_assoc]
  rw [hcs] at hscalar ⊢
  exact (yields_peekValue hb hblank depth (cs ++ rest)).bind hscalar

private theorem takes_array {item : Reader β} {vs : List Value} {bs : List β} (hf : itemsFit vs depth)
    (h : List.Forall₂ (item.Takes depth) vs bs)
    (hk : ∀ {cs rest}, (enclosed closeList (items item)).Yields (depth + 1) cs bs rest →
      (k '[').Yields (depth + 1) cs a rest) : (peekValue >>= k).Takes (depth + 1) (.array vs) a := by
  intro indent blanks rest hb _
  have hi := yields_enclosed '[' (yields_items hf h (indent + 1) rest) (closeList_bracket rest)
  rw [chars_array]
  simp only [List.append_assoc, List.cons_append, List.nil_append]
  exact (yields_peekValue hb rfl (depth + 1) _).bind (hk hi)

private theorem takes_object {r : Reader β} {step : σ → String → Reader σ} {s s' : σ} {ms : List Member}
    (h : Folds step depth s ms s')
    (hr : ∀ {cs rest}, (foldMembers s step).Yields depth cs s' rest → r.Yields depth cs b rest)
    (hk : ∀ {cs rest}, (enclosed closeObject r).Yields (depth + 1) cs b rest →
      (k '\x7b').Yields (depth + 1) cs a rest) :
    (peekValue >>= k).Takes (depth + 1) (.object ms) a := by
  intro indent blanks rest hb _
  have hm := yields_enclosed '\x7b' (hr (yields_foldMembers h (indent + 1) rest))
    (closeObject_bracket rest)
  rw [chars_object]
  simp only [List.append_assoc, List.cons_append, List.nil_append]
  exact (yields_peekValue hb rfl (depth + 1) _).bind (hk hm)

end

private theorem takes_valueAround_scalar {inner : Reader Value} {s : Scalar} (h : s.IsPlain) (depth : Nat) :
    (valueAround inner).Takes depth (.scalar s) (.scalar s) := by
  refine takes_scalar h fun hc hs => ?_
  split
  · cases hc
  · cases hc
  · exact hs.bind (yields_pure _ depth _)

private theorem takes_valueAround_array {inner : Reader Value} {vs : List Value} (hf : itemsFit vs depth)
    (h : List.Forall₂ (inner.Takes depth) vs vs) :
    (valueAround inner).Takes (depth + 1) (.array vs) (.array vs) :=
  takes_array hf h fun hi => hi.bind (yields_pure _ _ _)

private theorem takes_valueAround_object {inner : Reader Value} {ms : List Member}
    (h : Folds (member inner) depth [] ms ms.reverse) :
    (valueAround inner).Takes (depth + 1) (.object ms) (.object ms) := by
  refine takes_object h id fun hm => hm.bind ?_
  rw [List.reverse_reverse]
  exact yields_pure _ _ _

mutual

/-- A value is read back as it is if it opens no more brackets than allowed. -/
theorem takes_valueWithin : ∀ (v : Value) {depth : Nat}, v.Fits depth →
    (valueWithin depth).Takes depth v v
  | .scalar s, 0, h | .scalar s, depth + 1, h => takes_valueAround_scalar (by rwa [Fits] at h) _
  | .array vs, depth + 1, h => by
    rw [Fits] at h
    exact takes_valueAround_array h (takes_items vs h)
  | .object ms, depth + 1, h => by
    rw [Fits] at h
    have hm := takes_members ms h []
    rw [List.append_nil] at hm
    exact takes_valueAround_object hm

private theorem takes_items : ∀ (vs : List Value) {depth : Nat}, itemsFit vs depth →
    List.Forall₂ ((valueWithin depth).Takes depth) vs vs
  | [], _, _ => .nil
  | v :: vs, _, h => by
    rw [itemsFit] at h
    exact .cons (takes_valueWithin v h.1) (takes_items vs h.2)

private theorem takes_members : ∀ (ms : List Member) {depth : Nat}, membersFit ms depth →
    ∀ acc, Folds (member (valueWithin depth)) depth acc ms (ms.reverse ++ acc)
  | [], _, _, acc => .nil acc
  | .mk key v :: ms, _, h, acc => by
    rw [membersFit] at h
    have hv := (takes_valueWithin v h.1).member fun v => Member.mk key v :: acc
    rw [List.reverse_cons, List.append_assoc]
    exact .cons hv (takes_members ms h.2 (.mk key v :: acc))

end

theorem takes_value {v : Value} (h : v.Fits depth) : value.Takes depth v v :=
  takes_valueWithin v h

end Reader

end SideEffectLint.Json
