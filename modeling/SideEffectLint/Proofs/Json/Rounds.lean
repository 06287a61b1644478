import SideEffectLint.Json.Decoder
import SideEffectLint.Proofs.Json.Value

/-! How a value is read from a text, told by where reading stops: round by round, entry by entry inside of
brackets, and down to its scalars. -/

namespace SideEffectLint.Json

namespace Reader

variable {α β σ : Type} {depth : Nat} {c c' c₁ c₂ c₃ c₄ : Cursor}

theorem bind_eq_done_iff {r : Reader α} {f : α → Reader β} {b : β} :
    (r >>= f) depth c = .done b c' ↔
      ∃ a c₁, r depth c = .done a c₁ ∧ f a depth c₁ = .done b c' := by
  simp only [Bind.bind]
  cases r depth c with
  | done a c₁ =>
    refine ⟨fun h => ⟨a, c₁, rfl, h⟩, ?_⟩
    rintro ⟨_, _, ⟨⟩, h⟩
    exact h
  | failed fault offset => exact iff_of_false nofun nofun
  | refused cause c₁ => exact iff_of_false nofun nofun

theorem bind_of_done {r : Reader α} {f : α → Reader β} {a : α} (h : r depth c = .done a c₁) :
    (r >>= f) depth c = f a depth c₁ := by
  simp only [Bind.bind, h]

theorem pure_eq_done_iff {a b : α} :
    (pure a : Reader α) depth c = .done b c' ↔ a = b ∧ c = c' := by
  change Reply.done a c = .done b c' ↔ _
  rw [Reply.done.injEq]

theorem bind_pure_eq_done_iff {r : Reader α} {f : α → β} {b : β} :
    (r >>= fun a => pure (f a)) depth c = .done b c' ↔ ∃ a, r depth c = .done a c' ∧ f a = b := by
  rw [bind_eq_done_iff]
  constructor
  · rintro ⟨a, c₁, ha, h⟩
    obtain ⟨hb, rfl⟩ := pure_eq_done_iff.mp h
    exact ⟨a, ha, hb⟩
  · rintro ⟨a, ha, hb⟩
    exact ⟨a, c', ha, pure_eq_done_iff.mpr ⟨hb, rfl⟩⟩

theorem peek_eq_done_iff {first : Option Char} :
    peek depth c = .done first c' ↔ (skipBlank c).rest.head? = first ∧ skipBlank c = c' := by
  change Reply.done _ _ = .done first c' ↔ _
  rw [Reply.done.injEq]

/-- How often the step is repeated before it gives an answer. -/
inductive Rounds (step : σ → Reader (σ ⊕ α)) (depth : Nat) : Nat → σ → Cursor → α → Cursor → Prop
  | last {s : σ} {a : α} {c c' : Cursor} (h : step s depth c = .done (.inr a) c') :
    Rounds step depth 0 s c a c'
  | next {n : Nat} {s s' : σ} {a : α} {c c₁ c' : Cursor} (h : step s depth c = .done (.inl s') c₁)
    (hn : Rounds step depth n s' c₁ a c') : Rounds step depth (n + 1) s c a c'

private theorem repeatFrom_eq_done_iff {step : σ → Reader (σ ⊕ α)} {fuel : List Char} {s : σ} {a : α} :
    repeatFrom step fuel s depth c = .done a c' ↔
      ∃ n, n ≤ fuel.length ∧ Rounds step depth n s c a c' := by
  constructor
  · intro h
    induction fuel generalizing s c with
    | nil =>
      rw [repeatFrom.eq_def] at h
      split at h
      · cases h
      · cases h
        exact ⟨0, Nat.le_refl 0, .last ‹_›⟩
      · cases h
      · cases h
    | cons char fuel ih =>
      rw [repeatFrom.eq_def] at h
      split at h
      · obtain ⟨n, hn, hr⟩ := ih h
        exact ⟨n + 1, Nat.succ_le_succ hn, .next ‹_› hr⟩
      · cases h
        exact ⟨0, Nat.zero_le _, .last ‹_›⟩
      · cases h
      · cases h
  · rintro ⟨n, hn, hr⟩
    induction hr generalizing fuel with
    | last h => rw [repeatFrom.eq_def, h]
    | next h _ ih =>
      obtain ⟨char, fuel, rfl⟩ := List.exists_cons_of_length_pos (Nat.lt_of_lt_of_le (Nat.succ_pos _) hn)
      rw [repeatFrom.eq_def, h]
      exact ih (Nat.le_of_succ_le_succ hn)

/-- A text has room for as many rounds as it has characters. -/
theorem repeating_eq_done_iff {step : σ → Reader (σ ⊕ α)} {s : σ} {a : α} :
    repeating s step depth c = .done a c' ↔
      ∃ n, n ≤ c.rest.length ∧ Rounds step depth n s c a c' :=
  repeatFrom_eq_done_iff

/-- The items of a list, up to its closing bracket. -/
inductive ReadsItems (item : Reader α) (depth : Nat) : Bool → Cursor → List α → Cursor → Prop
  | done {first : Bool} {c c' : Cursor} (h : hasItem first depth c = .done false c') :
    ReadsItems item depth first c [] c'
  | item {first : Bool} {a : α} {as : List α} {c c₁ c₂ c' : Cursor}
    (h : hasItem first depth c = .done true c₁) (ha : item depth c₁ = .done a c₂)
    (hs : ReadsItems item depth false c₂ as c') : ReadsItems item depth first c (a :: as) c'

theorem ReadsItems.congr {item item' : Reader α} (he : ∀ c, item depth c = item' depth c)
    {first : Bool} {as : List α} (h : ReadsItems item depth first c as c') :
    ReadsItems item' depth first c as c' := by
  induction h with
  | done h => exact .done h
  | item h ha _ ih => exact .item h ((he _).symm.trans ha) ih

private theorem rounds_itemStep {item : Reader α} {first : Bool} {n : Nat} {acc as : List α}
    (h : Rounds (itemStep first item) depth n acc c as c') :
    ∃ bs, as = acc.reverse ++ bs ∧ bs.length = n ∧
      ReadsItems item depth (first && acc.isEmpty) c bs c' := by
  induction h with
  | last h =>
    obtain ⟨b, c₁, hb, h⟩ := bind_eq_done_iff.mp h
    cases b with
    | false =>
      obtain ⟨he, rfl⟩ := pure_eq_done_iff.mp h
      cases he
      exact ⟨[], (List.append_nil _).symm, rfl, .done hb⟩
    | true =>
      obtain ⟨a, c₂, -, h⟩ := bind_eq_done_iff.mp h
      cases (pure_eq_done_iff.mp h).1
  | next h _ ih =>
    obtain ⟨b, c₁, hb, h⟩ := bind_eq_done_iff.mp h
    cases b with
    | false => cases (pure_eq_done_iff.mp h).1
    | true =>
      obtain ⟨a, ha, he⟩ := bind_pure_eq_done_iff.mp h
      cases he
      obtain ⟨bs, rfl, rfl, hbs⟩ := ih
      rw [List.isEmpty_cons, Bool.and_false] at hbs
      exact ⟨a :: bs, by rw [List.reverse_cons, List.append_assoc]; rfl, rfl, .item hb ha hbs⟩

private theorem ReadsItems.rounds {item : Reader α} {first b : Bool} {as : List α}
    (h : ReadsItems item depth b c as c') :
    ∀ {acc : List α}, (first && acc.isEmpty) = b →
      Rounds (itemStep first item) depth as.length acc c (acc.reverse ++ as) c' := by
  induction h with
  | done h =>
    rintro acc rfl
    rw [List.append_nil]
    exact .last (bind_eq_done_iff.mpr ⟨false, _, h, rfl⟩)
  | @item _ a as _ c₁ c₂ _ h ha _ ih =>
    rintro acc rfl
    have hstep : itemStep first item acc depth _ = .done (.inl (a :: acc)) c₂ :=
      bind_eq_done_iff.mpr ⟨true, c₁, h, bind_eq_done_iff.mpr ⟨a, c₂, ha, rfl⟩⟩
    have hrest := @ih (a :: acc) (Bool.and_false _)
    rw [List.reverse_cons, List.append_assoc] at hrest
    exact .next hstep hrest

theorem itemsFrom_eq_done_iff {item : Reader α} {first : Bool} {as : List α} :
    itemsFrom first item depth c = .done as c' ↔
      as.length ≤ c.rest.length ∧ ReadsItems item depth first c as c' := by
  change repeating [] (itemStep first item) depth c = .done as c' ↔ _
  rw [repeating_eq_done_iff]
  constructor
  · rintro ⟨n, hn, hr⟩
    obtain ⟨bs, rfl, rfl, hbs⟩ := rounds_itemStep hr
    rw [List.isEmpty_nil, Bool.and_true] at hbs
    exact ⟨hn, hbs⟩
  · rintro ⟨hn, h⟩
    have hrounds : Rounds (itemStep first item) depth as.length [] c as c' := h.rounds (Bool.and_true _)
    exact ⟨as.length, hn, hrounds⟩

/-- The members of an object, up to its closing bracket. -/
inductive ReadsMembers (depth : Nat) : Bool → Cursor → List Member → Cursor → Prop
  | done {first : Bool} {c c' : Cursor} (h : hasMember first depth c = .done false c') :
    ReadsMembers depth first c [] c'
  | member {first : Bool} {key : String} {v : Value} {ms : List Member} {c c₁ c₂ c₃ c₄ c' : Cursor}
    (h : hasMember first depth c = .done true c₁) (hk : string depth c₁ = .done key c₂)
    (hc : colon depth c₂ = .done () c₃) (hv : value depth c₃ = .done v c₄)
    (hs : ReadsMembers depth false c₄ ms c') : ReadsMembers depth first c (.mk key v :: ms) c'

/-- Behind a key, the step takes the value from one state to the other. -/
def TakesValue (step : σ → String → Reader σ) (depth : Nat) (s : σ) (m : Member) (s' : σ) : Prop :=
  ∀ {c c₁ c₂}, colon depth c = .done () c₁ → value depth c₁ = .done m.value c₂ →
    step s m.key depth c = .done s' c₂

private theorem ReadsMembers.rounds {step : σ → String → Reader σ} {first : Bool} {ms : List Member}
    (h : ReadsMembers depth first c ms c') : ∀ {s s' : σ}, Leads (TakesValue step depth) s ms s' →
      Rounds (memberStep step) depth ms.length (first, s) c s' c' := by
  induction h with
  | done h =>
    rintro s s' ⟨⟩
    exact .last (bind_eq_done_iff.mpr ⟨false, _, h, rfl⟩)
  | @member _ key v ms _ c₁ c₂ c₃ c₄ _ h hk hc hv _ ih =>
    intro s s' hl
    cases hl with
    | @cons _ t _ _ _ ht hl =>
      have hstep : memberStep step (_, s) depth _ = .done (.inl (false, t)) c₄ :=
        bind_eq_done_iff.mpr ⟨true, c₁, h, bind_eq_done_iff.mpr ⟨key, c₂, hk,
          bind_eq_done_iff.mpr ⟨t, c₄, ht hc hv, rfl⟩⟩⟩
      exact .next hstep (ih hl)

theorem ReadsMembers.foldMembers {step : σ → String → Reader σ} {s s' : σ} {ms : List Member}
    (h : ReadsMembers depth true c ms c') (hn : ms.length ≤ c.rest.length)
    (hl : Leads (TakesValue step depth) s ms s') : foldMembers s step depth c = .done s' c' :=
  repeating_eq_done_iff.mpr ⟨_, hn, h.rounds hl⟩

private theorem rounds_member {inner : Reader Value} (he : ∀ c, inner depth c = value depth c) {n : Nat}
    {s : Bool × List Member} {acc : List Member}
    (h : Rounds (memberStep (member inner)) depth n s c acc c') :
    ∃ ms, acc = ms.reverse ++ s.2 ∧ ms.length = n ∧ ReadsMembers depth s.1 c ms c' := by
  induction h with
  | last h =>
    obtain ⟨b, c₁, hb, h⟩ := bind_eq_done_iff.mp h
    cases b with
    | false =>
      obtain ⟨hs, rfl⟩ := pure_eq_done_iff.mp h
      cases hs
      exact ⟨[], rfl, rfl, .done hb⟩
    | true =>
      obtain ⟨key, c₂, -, h⟩ := bind_eq_done_iff.mp h
      obtain ⟨acc', c₃, -, h⟩ := bind_eq_done_iff.mp h
      cases (pure_eq_done_iff.mp h).1
  | next h _ ih =>
    obtain ⟨b, c₁, hb, h⟩ := bind_eq_done_iff.mp h
    cases b with
    | false => cases (pure_eq_done_iff.mp h).1
    | true =>
      obtain ⟨key, c₂, hk, h⟩ := bind_eq_done_iff.mp h
      obtain ⟨acc', hm, hs⟩ := bind_pure_eq_done_iff.mp h
      cases hs
      obtain ⟨_, c₃, hc, hm⟩ := bind_eq_done_iff.mp hm
      obtain ⟨v, hv, rfl⟩ := bind_pure_eq_done_iff.mp hm
      obtain ⟨ms, rfl, rfl, hms⟩ := ih
      rw [he] at hv
      refine ⟨.mk key v :: ms, ?_, rfl, .member hb hk hc hv hms⟩
      rw [List.reverse_cons, List.append_assoc]
      rfl

theorem enclosed_eq_done_iff {close : Cursor → Cursor × Option Malformation} {r : Reader α} {a : α} :
    enclosed close r depth c = .done a c' ↔ ∃ inner c₁, depth = inner + 1 ∧
      r inner (c.drop 1) = .done a c₁ ∧ close c₁ = (c', none) := by
  cases depth with
  | zero => exact iff_of_false nofun (by rintro ⟨_, _, ⟨⟩, _⟩)
  | succ inner =>
    rw [enclosed, opened]
    constructor
    · intro h
      split at h
      · split at h
        · cases h
          exact ⟨inner, _, rfl, ‹_›, ‹_›⟩
        · cases h
      · cases h
      · cases h
    · rintro ⟨_, c₁, ⟨⟩, hr, hc⟩
      simp only [hr, hc]

/-- What stands where a value is read: a scalar, or entries between brackets. -/
inductive ReadsValue : Nat → Cursor → Value → Cursor → Prop
  | scalar {depth : Nat} {c c₁ c' : Cursor} {first : Char} {s : Scalar} (hl : first ≠ '[')
    (ho : first ≠ '\x7b') (hp : peekValue depth c = .done first c₁)
    (hs : Reader.scalar first depth c₁ = .done s c') : ReadsValue depth c (.scalar s) c'
  | array {depth : Nat} {c c₁ c₂ c' : Cursor} {vs : List Value}
    (hp : peekValue (depth + 1) c = .done '[' c₁) (hn : vs.length ≤ (c₁.drop 1).rest.length)
    (hi : ReadsItems value depth true (c₁.drop 1) vs c₂) (hc : closeList c₂ = (c', none)) :
    ReadsValue (depth + 1) c (.array vs) c'
  | object {depth : Nat} {c c₁ c₂ c' : Cursor} {ms : List Member}
    (hp : peekValue (depth + 1) c = .done '\x7b' c₁) (hn : ms.length ≤ (c₁.drop 1).rest.length)
    (hm : ReadsMembers depth true (c₁.drop 1) ms c₂) (hc : closeObject c₂ = (c', none)) :
    ReadsValue (depth + 1) c (.object ms) c'

private theorem readsValue_of_valueAround {inner : Reader Value} {v : Value}
    (he : ∀ d c, depth = d + 1 → inner d c = value d c)
    (h : valueAround inner depth c = .done v c') : ReadsValue depth c v c' := by
  obtain ⟨first, c₁, hp, h⟩ := bind_eq_done_iff.mp h
  split at h
  · obtain ⟨vs, hi, rfl⟩ := bind_pure_eq_done_iff.mp h
    obtain ⟨d, c₂, rfl, hi, hc⟩ := enclosed_eq_done_iff.mp hi
    obtain ⟨hn, hi⟩ := itemsFrom_eq_done_iff.mp hi
    exact .array hp hn (hi.congr fun c => he d c rfl) hc
  · obtain ⟨ms, hm, rfl⟩ := bind_pure_eq_done_iff.mp h
    obtain ⟨d, c₂, rfl, hm, hc⟩ := enclosed_eq_done_iff.mp hm
    obtain ⟨n, hn, hr⟩ := repeating_eq_done_iff.mp hm
    obtain ⟨ms, rfl, rfl, hm⟩ := rounds_member (fun c => he d c rfl) hr
    rw [List.append_nil, List.reverse_reverse]
    exact .object hp hn hm hc
  · obtain ⟨s, hs, rfl⟩ := bind_pure_eq_done_iff.mp h
    exact .scalar ‹_› ‹_› hp hs

theorem readsValue_of_value {v : Value} (h : value depth c = .done v c') : ReadsValue depth c v c' := by
  cases depth with
  | zero => exact readsValue_of_valueAround nofun h
  | succ depth => exact readsValue_of_valueAround (by rintro d c ⟨⟩; rfl) h

private theorem skipBlank_eq_self (h : ∀ x ∈ c.rest.head?, isBlank x = false) : skipBlank c = c := by
  obtain ⟨cs, offset⟩ := c
  cases cs with
  | nil => rfl
  | cons x cs =>
    have hx := ne_true_of_eq_false (h x rfl)
    rw [skipBlank, Cursor.dropWhile, List.dropWhile_cons_of_neg hx, List.takeWhile_cons_of_neg hx]
    rfl

theorem skipBlank_skipBlank (c : Cursor) : skipBlank (skipBlank c) = skipBlank c := by
  refine skipBlank_eq_self fun x hx => ?_
  have hhead := List.head?_dropWhile_not isBlank c.rest
  change x ∈ (c.rest.dropWhile isBlank).head? at hx
  rw [hx] at hhead
  exact Bool.eq_false_iff.mpr (by simpa using hhead)

private theorem peek_skipBlank : peek depth (skipBlank c) = peek depth c := by
  simp only [peek, skipBlank_skipBlank]

theorem value_skipBlank : value depth (skipBlank c) = value depth c := by
  unfold value
  cases depth <;> simp only [valueWithin, valueAround, peekValue, Bind.bind, peek_skipBlank]

/-- What is next is next at any depth, and also where it has been found. -/
theorem peek_again {first : Option Char} (h : peek depth c = .done first c₁) (limit : Nat) :
    peek limit c = .done first c₁ ∧ peek limit c₁ = .done first c₁ ∧ skipBlank c = c₁ := by
  obtain ⟨rfl, rfl⟩ := peek_eq_done_iff.mp h
  exact ⟨rfl, peek_skipBlank, rfl⟩

theorem peekValue_eq_done_iff {first : Char} :
    peekValue depth c = .done first c₁ ↔ peek depth c = .done (some first) c₁ := by
  rw [peekValue, bind_eq_done_iff]
  constructor
  · rintro ⟨x, c₂, hp, h⟩
    split at h
    · obtain ⟨rfl, rfl⟩ := pure_eq_done_iff.mp h
      exact hp
    · cases h
  · exact fun h => ⟨some first, c₁, h, rfl⟩

private theorem advance_eq_done_iff {n : Nat} {u : Unit} :
    advance n depth c = .done u c₁ ↔ c.drop n = c₁ := by
  change Reply.done () (c.drop n) = .done u c₁ ↔ _
  rw [Reply.done.injEq, and_iff_right rfl]

theorem peekValue_again {first : Char} (h : peekValue depth c = .done first c₁) (limit : Nat) :
    peekValue limit c = .done first c₁ :=
  peekValue_eq_done_iff.mpr (peek_again (peekValue_eq_done_iff.mp h) limit).1

theorem peek_of_hasItem_false {first : Bool} (h : hasItem first depth c = .done false c₁) :
    peek depth c = .done (some ']') c₁ := by
  obtain ⟨x, c₂, hp, h⟩ := bind_eq_done_iff.mp h
  split at h
  · cases h
  · obtain ⟨-, rfl⟩ := pure_eq_done_iff.mp h
    exact hp
  · split at h
    · cases (pure_eq_done_iff.mp h).1
    · split at h
      · obtain ⟨_, c₃, -, hbehind⟩ := bind_eq_done_iff.mp h
        obtain ⟨y, c₄, -, hnext⟩ := bind_eq_done_iff.mp hbehind
        split at hnext <;> cases hnext
      · cases h

/-- What is in front of an item: nothing but blanks, or a comma. -/
theorem peek_of_hasItem_true {first : Bool} (h : hasItem first depth c = .done true c₁) :
    ∃ x, x ≠ ']' ∧ if first then peek depth c = .done (some x) c₁ else
      ∃ c₀, peek depth c = .done (some ',') c₀ ∧ peek depth (c₀.drop 1) = .done (some x) c₁ := by
  obtain ⟨x, c₀, hp, h⟩ := bind_eq_done_iff.mp h
  split at h
  · cases h
  · cases (pure_eq_done_iff.mp h).1
  · rename_i x hx
    cases first with
    | true =>
      obtain ⟨-, rfl⟩ := pure_eq_done_iff.mp h
      exact ⟨x, hx, hp⟩
    | false =>
      split at h
      · cases ‹false = true›
      · split at h
        · rename_i hcomma
          obtain ⟨_, c₃, ha, hbehind⟩ := bind_eq_done_iff.mp h
          obtain rfl := advance_eq_done_iff.mp ha
          obtain ⟨y, c₄, hy, hnext⟩ := bind_eq_done_iff.mp hbehind
          split at hnext
          · cases hnext
          · cases hnext
          · rename_i y hn
            obtain ⟨-, rfl⟩ := pure_eq_done_iff.mp hnext
            exact ⟨y, hn, c₀, hcomma ▸ hp, hy⟩
        · cases h

theorem peek_of_hasMember_false {first : Bool} (h : hasMember first depth c = .done false c₁) :
    peek depth c = .done (some '\x7d') c₁ := by
  obtain ⟨x, c₂, hp, h⟩ := bind_eq_done_iff.mp h
  split at h
  · cases h
  · obtain ⟨-, rfl⟩ := pure_eq_done_iff.mp h
    exact hp
  · split at h
    · split at h <;> cases h
    · split at h
      · obtain ⟨_, c₃, -, hbehind⟩ := bind_eq_done_iff.mp h
        obtain ⟨y, c₄, -, hnext⟩ := bind_eq_done_iff.mp hbehind
        split at hnext <;> cases hnext
      · cases h

/-- What is in front of a member: nothing but blanks, or a comma. -/
theorem peek_of_hasMember_true {first : Bool} (h : hasMember first depth c = .done true c₁) :
    if first then peek depth c = .done (some '"') c₁ else
      ∃ c₀, peek depth c = .done (some ',') c₀ ∧ peek depth (c₀.drop 1) = .done (some '"') c₁ := by
  obtain ⟨x, c₀, hp, h⟩ := bind_eq_done_iff.mp h
  split at h
  · cases h
  · cases (pure_eq_done_iff.mp h).1
  · cases first with
    | true =>
      split at h
      · split at h
        · rename_i hquote
          obtain ⟨-, rfl⟩ := pure_eq_done_iff.mp h
          exact hquote ▸ hp
        · cases h
      · exact absurd rfl ‹¬ true = true›
    | false =>
      split at h
      · cases ‹false = true›
      · split at h
        · rename_i hcomma
          obtain ⟨_, c₃, ha, hbehind⟩ := bind_eq_done_iff.mp h
          obtain rfl := advance_eq_done_iff.mp ha
          obtain ⟨y, c₄, hy, hnext⟩ := bind_eq_done_iff.mp hbehind
          split at hnext
          · cases hnext
          · cases hnext
          · obtain ⟨-, rfl⟩ := pure_eq_done_iff.mp hnext
            exact ⟨c₀, hcomma ▸ hp, hy⟩
          · cases hnext
        · cases h

theorem closeList_of_peek (h : peek depth c = .done (some ']') c₁) : closeList c₁ = (c₁.drop 1, none) := by
  obtain ⟨hhead, rfl⟩ := peek_eq_done_iff.mp h
  obtain ⟨cs, hcs⟩ := List.head?_eq_some_iff.mp hhead
  simp only [closeList, skipBlank_skipBlank, hcs]

theorem closeObject_of_peek (h : peek depth c = .done (some '\x7d') c₁) :
    closeObject c₁ = (c₁.drop 1, none) := by
  obtain ⟨hhead, rfl⟩ := peek_eq_done_iff.mp h
  obtain ⟨cs, hcs⟩ := List.head?_eq_some_iff.mp hhead
  simp only [closeObject, skipBlank_skipBlank, hcs]

theorem value_of_peek {x : Option Char} {v : Value} (h : peek depth c = .done x c₁)
    (hv : value depth c₁ = .done v c₂) : value depth c = .done v c₂ := by
  obtain ⟨-, rfl⟩ := peek_eq_done_iff.mp h
  rwa [value_skipBlank] at hv

end Reader

end SideEffectLint.Json
