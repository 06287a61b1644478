import SideEffectLint.Proofs.Json.ScalarReading

/-! Reading texts of the grammar: what brackets enclose is read entry by entry, and the reader comes to no
answer as soon as one of them means nothing. -/

namespace SideEffectLint.Json

namespace Reader

variable {α β σ ι : Type}

section

variable {depth : Nat} {rest : List Char} {step : σ → Reader (σ ⊕ α)} {next? : σ → ι → Option σ}
  {first : σ → Bool} {lead : ι → List Char} {trail : ι → Blanks} {out : σ → α}

/-- In one round the step takes the entry, behind blanks and a comma if it is not the first. `first`
tells of a state whether no entry has been read yet. -/
def Steps (step : σ → Reader (σ ⊕ α)) (next? : σ → ι → Option σ) (first : σ → Bool) (depth : Nat)
    (lead : List Char) (i : ι) : Prop :=
  ∀ (s : σ) (blanks : Blanks) (rest : List Char), Delimits rest →
    (step s).Gives depth (blanks.chars ++ (if first s then [] else [',']) ++ lead ++ rest)
      ((next? s i).map .inl) rest ∧ ∀ s', next? s i = some s' → first s' = false

theorem delimits_blanks (blanks : Blanks) {rest : List Char} (hr : Delimits rest) :
    Delimits (blanks.chars ++ rest) := by
  obtain ⟨cs, hcs⟩ := blanks
  cases cs with
  | nil => exact hr
  | cons c cs =>
    rintro c ⟨⟩
    have hc := hcs c List.mem_cons_self
    simp only [isBlank, Bool.or_eq_true, decide_eq_true_eq] at hc
    rcases hc with ((rfl | rfl) | rfl) | rfl <;> decide

theorem delimits_listed {is : List ι} (hr : Delimits rest) :
    Delimits (listed lead trail false is ++ rest) := by
  cases is with
  | nil => exact hr
  | cons i is =>
    rintro c ⟨⟩
    decide

private theorem repeatFrom_rejects {s : σ} {cs fuel : List Char} (h : (step s).Rejects depth cs) :
    (repeatFrom step fuel s).Rejects depth cs := by
  intro offset a c ha
  rw [repeatFrom.eq_def] at ha
  split at ha
  · exact h _ _ _ ‹_›
  · exact h _ _ _ ‹_›
  · cases ha
  · cases ha

private theorem repeatFrom_gives {s s' : σ} {cs ds fuel : List Char} {char : Char} {a? : Option α}
    (h : (step s).Yields depth cs (.inl s') ds) (hs : (repeatFrom step fuel s').Gives depth ds a? rest) :
    (repeatFrom step (char :: fuel) s).Gives depth cs a? rest := by
  intro offset
  obtain ⟨offset', h⟩ := h offset
  rw [repeatFrom.eq_def, h]
  exact hs offset'

private theorem gives_repeatFrom {is : List ι} (hstep : ∀ i ∈ is, Steps step next? first depth (lead i) i)
    (hend : ∀ (s : σ) (blanks : Blanks), (step s).Yields depth (blanks.chars ++ rest) (.inr (out s)) rest)
    (hr : Delimits rest) (s : σ) (blanks : Blanks) {fuel : List Char} (hf : is.length ≤ fuel.length) :
    (repeatFrom step fuel s).Gives depth (blanks.chars ++ listed lead trail (first s) is ++ rest)
      ((is.foldlM next? s).map out) rest := by
  induction is generalizing s blanks fuel with
  | nil =>
    rw [listed, List.append_nil]
    exact repeatFrom_last (hend s blanks) fuel
  | cons i is ih =>
    obtain ⟨hi, his⟩ := List.forall_mem_cons.mp hstep
    obtain ⟨char, fuel, rfl⟩ := List.exists_cons_of_length_pos (Nat.lt_of_lt_of_le (Nat.succ_pos _) hf)
    have hdelimits : Delimits (listed lead trail false is ++ rest) := delimits_listed hr
    obtain ⟨hgives, hfirst⟩ := hi s blanks _ (delimits_blanks (trail i) hdelimits)
    rw [listed, List.foldlM_cons]
    simp only [List.append_assoc] at hgives ⊢
    cases hn : next? s i with
    | none =>
      rw [hn] at hgives
      exact repeatFrom_rejects hgives
    | some s' =>
      rw [hn] at hgives
      have hrest := ih his s' (trail i) (Nat.le_of_succ_le_succ hf)
      rw [hfirst s' hn, List.append_assoc] at hrest
      exact repeatFrom_gives hgives hrest

private theorem length_le_listed (hlead : ∀ i, lead i ≠ []) (first : Bool) (is : List ι) :
    is.length ≤ (listed lead trail first is).length := by
  induction is generalizing first with
  | nil => exact Nat.zero_le _
  | cons i is ih =>
    have hrest := ih false
    have hi := List.length_pos_of_ne_nil (hlead i)
    simp only [listed, List.length_append, List.length_cons]
    omega

/-- The rounds take the entries one after the other until one of them means nothing. -/
theorem gives_repeating {is : List ι} (trail : ι → Blanks)
    (hstep : ∀ i ∈ is, Steps step next? first depth (lead i) i)
    (hend : ∀ (s : σ) (blanks : Blanks), (step s).Yields depth (blanks.chars ++ rest) (.inr (out s)) rest)
    (hlead : ∀ i, lead i ≠ []) (hr : Delimits rest) (s : σ) (blanks : Blanks) :
    (repeating s step).Gives depth (blanks.chars ++ listed lead trail (first s) is ++ rest)
      ((is.foldlM next? s).map out) rest := by
  intro offset
  -- There is one round at most for each character of the text.
  refine gives_repeatFrom hstep hend hr s blanks ?_ offset
  have hlength : is.length ≤ (listed lead trail (first s) is).length := length_le_listed hlead _ is
  simp only [List.length_append]
  omega

end

/-- Blanks in front make no difference to the reader. -/
def SkipsBlanks (r : Reader α) : Prop :=
  ∀ depth (blanks : Blanks) cs offset,
    r depth ⟨blanks.chars ++ cs, offset⟩ = r depth ⟨cs, offset + Cursor.utf8Length blanks.chars⟩

private theorem utf8Length_append (cs ds : List Char) :
    Cursor.utf8Length (cs ++ ds) = Cursor.utf8Length cs + Cursor.utf8Length ds := by
  have hfrom (ds : List Char) (n : Nat) :
      ds.foldl (fun n c => n + c.utf8Size) n = n + Cursor.utf8Length ds := by
    induction ds generalizing n with
    | nil => rfl
    | cons d ds ih =>
      rw [Cursor.utf8Length, List.foldl_cons, List.foldl_cons, ih, ih, Nat.zero_add, Nat.add_assoc]
  rw [Cursor.utf8Length, List.foldl_append, hfrom]
  rfl

private theorem skipBlank_blanks (blanks : Blanks) (cs : List Char) (offset : Nat) :
    skipBlank ⟨blanks.chars ++ cs, offset⟩ =
      skipBlank ⟨cs, offset + Cursor.utf8Length blanks.chars⟩ := by
  have hdrop : (blanks.chars ++ cs).dropWhile isBlank = cs.dropWhile isBlank :=
    List.dropWhile_append_of_pos blanks.blank
  have htake : (blanks.chars ++ cs).takeWhile isBlank = blanks.chars ++ cs.takeWhile isBlank :=
    List.takeWhile_append_of_pos blanks.blank
  simp only [skipBlank, Cursor.dropWhile, hdrop, htake, utf8Length_append, Nat.add_assoc]

private theorem skipsBlanks_peek : peek.SkipsBlanks := by
  intro depth blanks cs offset
  simp only [peek, skipBlank_blanks]

theorem closeList_blanks (blanks : Blanks) (cs : List Char) (offset : Nat) :
    closeList ⟨blanks.chars ++ cs, offset⟩ =
      closeList ⟨cs, offset + Cursor.utf8Length blanks.chars⟩ := by
  simp only [closeList, skipBlank_blanks]

theorem SkipsBlanks.bind {r : Reader α} (h : r.SkipsBlanks) (f : α → Reader β) :
    (r >>= f).SkipsBlanks := by
  intro depth blanks cs offset
  simp only [Bind.bind, h depth blanks cs offset]

private theorem SkipsBlanks.gives {r : Reader α} (h : r.SkipsBlanks) {depth : Nat} {cs rest : List Char}
    {a? : Option α} (hr : r.Gives depth cs a? rest) (blanks : Blanks) :
    r.Gives depth (blanks.chars ++ cs) a? rest := by
  intro offset
  rw [h depth blanks cs offset]
  exact hr _

private theorem SkipsBlanks.yields {r : Reader α} (h : r.SkipsBlanks) {depth : Nat} {cs rest : List Char}
    {a : α} (hr : r.Yields depth cs a rest) (blanks : Blanks) :
    r.Yields depth (blanks.chars ++ cs) a rest := by
  intro offset
  rw [h depth blanks cs offset]
  exact hr _

theorem skipsBlanks_peekValue : peekValue.SkipsBlanks :=
  skipsBlanks_peek.bind _

private theorem skipsBlanks_hasItem (first : Bool) : (hasItem first).SkipsBlanks :=
  skipsBlanks_peek.bind _

private theorem skipsBlanks_hasMember (first : Bool) : (hasMember first).SkipsBlanks :=
  skipsBlanks_peek.bind _

private theorem skipsBlanks_colon : colon.SkipsBlanks :=
  skipsBlanks_peek.bind _

private theorem skipsBlanks_valueWithin (depth : Nat) : (valueWithin depth).SkipsBlanks := by
  cases depth <;> exact skipsBlanks_peekValue.bind _

/-- What a value starts with is neither blank nor the end of a list. -/
theorem exists_formChars_eq_cons (f : Form) :
    ∃ c cs, f.chars = c :: cs ∧ isBlank c = false ∧ c ≠ ']' := by
  cases f with
  | scalar s =>
    obtain ⟨c, cs, hcs, hc⟩ := exists_scalarChars_eq_cons s
    rw [Form.chars]
    simp only [Scalar.isMark, Bool.or_eq_false_iff] at hc
    refine ⟨c, cs, hcs, hc.1, ?_⟩
    rintro rfl
    cases hc.2
  | array inside items => exact ⟨_, _, by rw [Form.chars]; rfl, by decide, by decide⟩
  | object inside members => exact ⟨_, _, by rw [Form.chars]; rfl, by decide, by decide⟩

private theorem lead_ne_nil (e : ElementForm) : e.lead ≠ [] := by
  obtain ⟨before, form, after⟩ := e
  obtain ⟨c, cs, hcs, -⟩ := exists_formChars_eq_cons form
  simp [ElementForm.lead, hcs]

section

variable {depth : Nat} {rest : List Char}

theorem yields_hasItem_form (f : Form) (first : Bool) (blanks before : Blanks) (depth : Nat)
    (rest : List Char) : (hasItem first).Yields depth
      (blanks.chars ++ (if first then [] else [',']) ++ (before.chars ++ f.chars) ++ rest) true
      (f.chars ++ rest) := by
  obtain ⟨c, cs, hcs, hc, hn⟩ := exists_formChars_eq_cons f
  have h := yields_hasItem before.blank hc hn first depth (cs ++ rest)
  have hb := (skipsBlanks_hasItem first).yields h blanks
  rw [hcs]
  simpa only [List.append_assoc, List.cons_append] using hb

private theorem steps_item {item : Reader α} {f : ElementForm → Option α} {e : ElementForm}
    (h : ∀ rest, Delimits rest → item.Gives depth (e.form.chars ++ rest) (f e) rest) :
    Steps (itemStep true item) (fun acc e => (f e).map (· :: acc)) List.isEmpty depth e.lead e := by
  obtain ⟨before, form, after⟩ := e
  intro acc blanks rest hr
  constructor
  · rw [Option.map_map]
    exact (yields_hasItem_form form acc.isEmpty blanks before depth rest).bind_gives
      ((h rest hr).map fun a => Sum.inl (a :: acc))
  · rintro _ he
    obtain ⟨a, -, rfl⟩ := Option.map_eq_some_iff.mp he
    rfl

private theorem foldlM_items (f : ElementForm → Option α) (es : List ElementForm) (acc : List α) :
    (es.foldlM (fun acc e => (f e).map (· :: acc)) acc).map List.reverse =
      (es.mapM f).map (acc.reverse ++ ·) := by
  induction es generalizing acc with
  | nil => simp
  | cons e es ih =>
    rw [List.foldlM_cons, List.mapM_cons]
    cases f e with
    | none => rfl
    | some a =>
      refine (ih (a :: acc)).trans ?_
      cases es.mapM f <;> simp

private theorem gives_items {item : Reader α} {f : ElementForm → Option α} {es : List ElementForm}
    (h : ∀ e ∈ es, ∀ rest, Delimits rest → item.Gives depth (e.form.chars ++ rest) (f e) rest)
    (inside : Blanks) (rest : List Char) : (items item).Gives depth
      (inside.chars ++ itemsChars true es ++ ']' :: rest) (es.mapM f) (']' :: rest) := by
  have hend (acc : List α) (blanks : Blanks) : (itemStep true item acc).Yields depth
      (blanks.chars ++ ']' :: rest) (.inr acc.reverse) (']' :: rest) :=
    (yields_hasItem_end blanks.blank _ depth rest).bind (yields_pure _ depth _)
  have hd : Delimits (']' :: rest) := by
    rintro c ⟨⟩
    decide
  have hitems := gives_repeating ElementForm.trail (fun e he => steps_item (h e he)) hend lead_ne_nil hd []
    inside
  rw [foldlM_items] at hitems
  rw [itemsChars_eq]
  simp only [List.reverse_nil, List.nil_append, Option.map_id'] at hitems
  exact hitems

theorem gives_behindColon {r : Reader α} (hr : r.SkipsBlanks) {e : ElementForm} {a? : Option α}
    (h : r.Gives depth (e.form.chars ++ rest) a? rest) (between : Blanks) (f : α → σ) :
    (do
      colon
      return f (← r)).Gives depth (between.chars ++ (':' :: e.lead) ++ rest) (a?.map f) rest := by
  obtain ⟨before, form, after⟩ := e
  have hcolon := skipsBlanks_colon.yields (yields_colon depth (before.chars ++ (form.chars ++ rest)))
    between
  rw [ElementForm.lead, List.append_assoc, List.cons_append, List.append_assoc]
  exact hcolon.bind_gives ((hr.gives h before).map f)

private theorem yields_hasMember_key (parts : List StringPart) (first : Bool) (blanks before : Blanks)
    (depth : Nat) (cs : List Char) : (hasMember first).Yields depth
      (blanks.chars ++ (if first then [] else [',']) ++ (before.chars ++ StringPart.quoted parts) ++ cs)
      true (StringPart.quoted parts ++ cs) := by
  have h := yields_hasMember before.blank first depth (parts.flatMap StringPart.chars ++ ['"'] ++ cs)
  have hb := (skipsBlanks_hasMember first).yields h blanks
  rw [StringPart.quoted]
  simpa only [List.append_assoc, List.cons_append] using hb

/-- What a member makes of the state, if its key is a text. -/
def nextMember? (g : σ → String → ElementForm → Option σ) (s : σ) (p : PropertyForm) : Option σ :=
  p.key?.bind fun key => g s key p.value

private theorem steps_member {step : σ → String → Reader σ} {g : σ → String → ElementForm → Option σ}
    {p : PropertyForm} (h : ∀ s key rest, Delimits rest →
      (step s key).Gives depth (p.behindKey ++ rest) (g s key p.value) rest) :
    Steps (memberStep step) (fun s p => (nextMember? g s.2 p).map fun s' => (false, s')) Prod.fst depth
      p.lead p := by
  rintro ⟨first, s⟩ blanks rest hr
  constructor
  · obtain ⟨before, parts, between, value⟩ := p
    have hmember := yields_hasMember_key parts first blanks before depth
      ((PropertyForm.mk before parts between value).behindKey ++ rest)
    rw [PropertyForm.lead, Option.map_map, nextMember?, Option.map_bind]
    simp only [List.append_assoc] at hmember ⊢
    refine hmember.bind_gives ((gives_string parts depth _).bind fun key _ => ?_)
    exact (h s key rest hr).map fun s' => Sum.inl (false, s')
  · intro s' hs
    obtain ⟨_, -, rfl⟩ := Option.map_eq_some_iff.mp hs
    rfl

private theorem lead_property_ne_nil (p : PropertyForm) : p.lead ≠ [] := by
  obtain ⟨before, parts, between, value⟩ := p
  simp [PropertyForm.lead, StringPart.quoted]

private theorem foldlM_members (next? : σ → PropertyForm → Option σ) (ps : List PropertyForm) (first : Bool)
    (s : σ) :
    (ps.foldlM (fun s p => (next? s.2 p).map fun s' => (false, s')) (first, s)).map Prod.snd =
      ps.foldlM next? s := by
  induction ps generalizing first s with
  | nil => rfl
  | cons p ps ih =>
    rw [List.foldlM_cons, List.foldlM_cons]
    cases next? s p with
    | none => rfl
    | some s' => exact ih false s'

/-- The members of an object are taken one by one. -/
theorem gives_foldMembers {step : σ → String → Reader σ} {g : σ → String → ElementForm → Option σ}
    {ps : List PropertyForm} (h : ∀ p ∈ ps, ∀ s key rest, Delimits rest →
      (step s key).Gives depth (p.behindKey ++ rest) (g s key p.value) rest)
    (s : σ) (inside : Blanks) (rest : List Char) : (foldMembers s step).Gives depth
      (inside.chars ++ membersChars true ps ++ '\x7d' :: rest)
      (ps.foldlM (nextMember? g) s) ('\x7d' :: rest) := by
  have hend (s : Bool × σ) (blanks : Blanks) : (memberStep step s).Yields depth
      (blanks.chars ++ '\x7d' :: rest) (.inr s.2) ('\x7d' :: rest) :=
    (yields_hasMember_end blanks.blank _ depth rest).bind (yields_pure _ depth _)
  have hd : Delimits ('\x7d' :: rest) := by
    rintro c ⟨⟩
    decide
  have hmembers := gives_repeating PropertyForm.trail (fun p hp => steps_member (h p hp)) hend
    lead_property_ne_nil hd (true, s) inside
  rw [foldlM_members] at hmembers
  rw [membersChars_eq]
  exact hmembers

private theorem rejects_enclosed_zero (close : Cursor → Cursor × Option Malformation) (r : Reader α)
    (cs : List Char) : (enclosed close r).Rejects 0 cs :=
  fun _ _ _ => nofun

theorem gives_enclosed {close : Cursor → Cursor × Option Malformation} {r : Reader α} {cs ds : List Char}
    {a? : Option α} (bracket : Char) (hr : r.Gives depth cs a? ds)
    (hc : ∀ offset, ∃ offset', close ⟨ds, offset⟩ = (⟨rest, offset'⟩, none)) :
    (enclosed close r).Gives (depth + 1) (bracket :: cs) a? rest := by
  cases a? with
  | some a => exact yields_enclosed bracket hr hc
  | none =>
    intro offset a c ha
    have ho : opened r (depth + 1) ⟨bracket :: cs, offset⟩ =
        r depth ⟨cs, offset + Cursor.utf8Length [bracket]⟩ := rfl
    rw [enclosed, ho] at ha
    split at ha
    · exact hr _ _ _ ‹_›
    · cases ha
    · cases ha

/-- Brackets that hold more than is wanted make no value. -/
theorem rejects_enclosed {close : Cursor → Cursor × Option Malformation} {r : Reader α}
    {cs ds : List Char} {a? : Option α} (bracket : Char) (hr : r.Gives depth cs a? ds)
    (hc : ∀ offset, (close ⟨ds, offset⟩).2 ≠ none) :
    (enclosed close r).Rejects (depth + 1) (bracket :: cs) := by
  intro offset a c ha
  have ho : opened r (depth + 1) ⟨bracket :: cs, offset⟩ =
      r depth ⟨cs, offset + Cursor.utf8Length [bracket]⟩ := rfl
  rw [enclosed, ho] at ha
  cases a? with
  | none =>
    split at ha
    · exact hr _ _ _ ‹_›
    · cases ha
    · cases ha
  | some a =>
    obtain ⟨offset', hr⟩ := hr (offset + Cursor.utf8Length [bracket])
    have hsome := hc offset'
    rw [hr] at ha
    dsimp only at ha
    split at ha
    · rename_i hclose
      exact hsome (congrArg Prod.snd hclose)
    · cases ha

end

section

variable {depth : Nat} {rest : List Char}

private theorem gives_valueAround_scalar (inner : Reader Value) (s : ScalarForm) (hr : Delimits rest)
    (depth : Nat) :
    (valueAround inner).Gives depth (s.chars ++ rest) (s.scalar?.map Value.scalar) rest := by
  obtain ⟨c, cs, hcs, hc⟩ := exists_scalarChars_eq_cons s
  have hscalar := (gives_scalar s hcs hr depth).map Value.scalar
  have hblank := (Bool.or_eq_false_iff.mp hc).1
  rw [hcs] at hscalar ⊢
  refine (yields_peekValue (List.forall_mem_nil _) hblank depth (cs ++ rest)).bind_gives ?_
  split
  · cases hc
  · cases hc
  · exact hscalar

private theorem gives_valueAround_array {inner : Reader Value} {f : ElementForm → Option Value}
    {es : List ElementForm} (h : ∀ e ∈ es, ∀ rest, Delimits rest →
      inner.Gives depth (e.form.chars ++ rest) (f e) rest)
    (inside : Blanks) (rest : List Char) : (valueAround inner).Gives (depth + 1)
      ((Form.array inside es).chars ++ rest) ((es.mapM f).map Value.array) rest := by
  have hitems := (gives_enclosed '[' (gives_items h inside rest) (closeList_bracket rest)).map Value.array
  rw [Form.chars]
  simp only [List.append_assoc, List.cons_append, List.nil_append] at hitems ⊢
  exact (yields_peekValue (List.forall_mem_nil _) rfl (depth + 1) _).bind_gives hitems

/-- The member that the meaning of a value makes with its key. -/
def memberOf? (f : ElementForm → Option Value) (p : PropertyForm) : Option Member :=
  p.key?.bind fun key => (f p.value).map (Member.mk key)

private theorem foldlM_values (f : ElementForm → Option Value) (ps : List PropertyForm)
    (acc : List Member) :
    (ps.foldlM (nextMember? fun acc key e => (f e).map fun v => .mk key v :: acc) acc).map
      List.reverse = (ps.mapM (memberOf? f)).map (acc.reverse ++ ·) := by
  induction ps generalizing acc with
  | nil => simp
  | cons p ps ih =>
    rw [List.foldlM_cons, List.mapM_cons, nextMember?, memberOf?]
    cases p.key? with
    | none => rfl
    | some key =>
      simp only [Option.bind_some]
      cases f p.value with
      | none => rfl
      | some v =>
        refine (ih (.mk key v :: acc)).trans ?_
        cases ps.mapM (memberOf? f) <;> simp

private theorem gives_member {inner : Reader Value} (hb : inner.SkipsBlanks) {p : PropertyForm}
    {v? : Option Value}
    (h : ∀ rest, Delimits rest → inner.Gives depth (p.value.form.chars ++ rest) v? rest)
    (acc : List Member) (key : String) (hr : Delimits rest) :
    (member inner acc key).Gives depth (p.behindKey ++ rest) (v?.map fun v => .mk key v :: acc) rest := by
  obtain ⟨before, parts, between, value⟩ := p
  exact gives_behindColon hb (h rest hr) between fun v => Member.mk key v :: acc

private theorem gives_valueAround_object {inner : Reader Value} (hb : inner.SkipsBlanks)
    {f : ElementForm → Option Value} {ps : List PropertyForm} (h : ∀ p ∈ ps, ∀ rest, Delimits rest →
      inner.Gives depth (p.value.form.chars ++ rest) (f p.value) rest)
    (inside : Blanks) (rest : List Char) : (valueAround inner).Gives (depth + 1)
      ((Form.object inside ps).chars ++ rest) ((ps.mapM (memberOf? f)).map Value.object) rest := by
  have hmembers := gives_foldMembers (g := fun acc key e => (f e).map fun v => .mk key v :: acc)
    (fun p hp acc key rest hr => gives_member hb (h p hp) acc key hr) [] inside rest
  have hobject := (gives_enclosed '\x7b' hmembers (closeObject_bracket rest)).map
    fun ms => Value.object ms.reverse
  have hvalues : ((ps.foldlM (nextMember? fun acc key e => (f e).map fun v => .mk key v :: acc) []).map
      fun ms => Value.object ms.reverse) = (ps.mapM (memberOf? f)).map Value.object := by
    have h := congrArg (Option.map Value.object) (foldlM_values f ps [])
    rw [Option.map_map, Option.map_map] at h
    exact h
  rw [hvalues] at hobject
  rw [Form.chars]
  simp only [List.append_assoc, List.cons_append, List.nil_append] at hobject ⊢
  exact (yields_peekValue (List.forall_mem_nil _) rfl (depth + 1) _).bind_gives hobject

end

theorem itemsValue?_eq (es : List ElementForm) (depth : Nat) :
    itemsValue? es depth = es.mapM fun e => e.form.value? depth := by
  induction es with
  | nil => rw [itemsValue?]; rfl
  | cons e es ih =>
    obtain ⟨before, form, after⟩ := e
    rw [itemsValue?, ih, List.mapM_cons, ElementForm.value?]
    rfl

theorem membersValue?_eq (ps : List PropertyForm) (depth : Nat) :
    membersValue? ps depth = ps.mapM (memberOf? fun e => e.form.value? depth) := by
  induction ps with
  | nil => rw [membersValue?]; rfl
  | cons p ps ih =>
    obtain ⟨before, parts, between, ⟨_, form, _⟩⟩ := p
    rw [membersValue?, ih, List.mapM_cons, PropertyForm.member?, ElementForm.value?]
    rfl

mutual

/-- A text of the grammar is read as the value that it means. -/
theorem gives_valueWithin : ∀ (f : Form) (depth : Nat) {rest : List Char}, Delimits rest →
    (valueWithin depth).Gives depth (f.chars ++ rest) (f.value? depth) rest
  | .scalar s, 0, _, hr | .scalar s, depth + 1, _, hr => by
    rw [Form.chars, Form.value?]
    exact gives_valueAround_scalar _ s hr _
  | .array inside items, 0, rest, _ => by
    rw [Form.chars, Form.value?]
    exact (yields_peekValue (List.forall_mem_nil _) rfl 0 _).bind_gives (rejects_enclosed_zero _ _ _).bind
  | .object inside members, 0, rest, _ => by
    rw [Form.chars, Form.value?]
    exact (yields_peekValue (List.forall_mem_nil _) rfl 0 _).bind_gives (rejects_enclosed_zero _ _ _).bind
  | .array inside items, depth + 1, rest, _ => by
    rw [Form.value?, itemsValue?_eq]
    exact gives_valueAround_array (gives_each items depth) inside rest
  | .object inside members, depth + 1, rest, _ => by
    rw [Form.value?, membersValue?_eq]
    exact gives_valueAround_object (skipsBlanks_valueWithin depth) (gives_eachValue members depth)
      inside rest

private theorem gives_each : ∀ (es : List ElementForm) (depth : Nat), ∀ e ∈ es, ∀ rest, Delimits rest →
    (valueWithin depth).Gives depth (e.form.chars ++ rest) (e.form.value? depth) rest
  | .mk _ form _ :: es, depth, e, he, rest, hr => by
    rcases List.mem_cons.mp he with rfl | he
    · exact gives_valueWithin form depth hr
    · exact gives_each es depth e he rest hr

private theorem gives_eachValue :
    ∀ (ps : List PropertyForm) (depth : Nat), ∀ p ∈ ps, ∀ rest, Delimits rest →
    (valueWithin depth).Gives depth (p.value.form.chars ++ rest) (p.value.form.value? depth) rest
  | .mk _ _ _ (.mk _ form _) :: ps, depth, p, hp, rest, hr => by
    rcases List.mem_cons.mp hp with rfl | hp
    · exact gives_valueWithin form depth hr
    · exact gives_eachValue ps depth p hp rest hr

end

end Reader

namespace Decoder

open Reader

variable {α : Type} {d : Decoder α} {e : ElementForm} {a? : Option α}

private theorem yields_peek_blanks (blanks : Blanks) (depth : Nat) :
    peek.Yields depth blanks.chars none [] := by
  have h := skipsBlanks_peek.yields (yields_peek_end depth) blanks
  rwa [List.append_nil] at h

/-- A whole text stands for what the decoder makes of it, unless it comes to no answer. -/
theorem toOption_decode (hs : d.read.SkipsBlanks) (h : ∀ rest, Delimits rest →
    d.read.Gives maxDepth (e.form.chars ++ rest) a? rest) : (d.decode e.text).toOption = a? := by
  obtain ⟨before, form, after⟩ := e
  have hafter : Delimits (after.chars ++ []) := delimits_blanks after nofun
  rw [List.append_nil] at hafter
  have hread := (hs.gives (h after.chars hafter) before).placed
  rw [← List.append_assoc] at hread
  rw [decode, ElementForm.text, ElementForm.chars, String.toList_ofList]
  cases a? with
  | none =>
    have hrejects : d.readText.Rejects maxDepth (before.chars ++ form.chars ++ after.chars) :=
      Rejects.bind hread
    split
    · exact absurd ‹_› (hrejects 0 _ _)
    · rfl
    · rfl
  | some a =>
    have hyields : d.readText.Yields maxDepth (before.chars ++ form.chars ++ after.chars) a [] :=
      Yields.bind hread ((yields_peek_blanks after maxDepth).bind (yields_pure a maxDepth []))
    obtain ⟨offset, hyields⟩ := hyields 0
    simp only [hyields]
    rfl

theorem toOption_decode_anything (e : ElementForm) :
    (anything.decode e.text).toOption = e.form.value? maxDepth :=
  toOption_decode (fun depth => skipsBlanks_valueWithin depth depth)
    fun _ hr => gives_valueWithin e.form maxDepth hr

end Decoder

end SideEffectLint.Json
