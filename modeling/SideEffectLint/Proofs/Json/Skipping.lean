import SideEffectLint.Proofs.Json.SkippedScalar

/-! A value that can be read can be skipped, and that stops where reading it would. Reading goes down into
brackets, while skipping keeps those that are open on a stack and goes on with what is behind a value. -/

namespace SideEffectLint.Json

namespace Reader

variable {α β : Type} {depth limit : Nat} {c c' c₁ c₂ c₃ : Cursor}

private theorem colon_of_colon (h : colon depth c = .done () c') : colon limit c = .done () c' := by
  obtain ⟨x, c₁, hp, h⟩ := bind_eq_done_iff.mp h
  refine bind_eq_done_iff.mpr ⟨x, c₁, hp, ?_⟩
  split at h
  · cases h
  · exact h
  · cases h

/-- From the start of a value inside of the brackets, skipping comes to its end at the other place. -/
def Skips (limit : Nat) (bs : List Bracket) (c c' : Cursor) : Prop :=
  ∃ n, Rounds skipStep limit n bs c () c'

/-- So it does from between the values inside of the brackets; a value came just before if `closed`. -/
inductive Resumes (limit : Nat) (closed : Bool) (bs : List Bracket) (c c' : Cursor) : Prop
  | ended (h : skipBetween bs closed limit c = .done [] c')
  | inside {b : Bracket} {left : List Bracket} {c₁ : Cursor}
    (h : skipBetween bs closed limit c = .done (b :: left) c₁) (hs : Skips limit (b :: left) c₁ c')

variable {b : Bracket} {bs inner : List Bracket} {closed : Bool}

private theorem skips_of_start (h : skipStart bs limit c = .done (inner, closed) c₁)
    (hr : Resumes limit closed inner c₁ c') : Skips limit bs c c' := by
  cases hr with
  | ended hb =>
    have hstep : skipStep bs limit c = .done (.inr ()) c' :=
      bind_eq_done_iff.mpr ⟨_, _, h, bind_eq_done_iff.mpr ⟨[], _, hb, rfl⟩⟩
    exact ⟨0, .last hstep⟩
  | @inside b left c₂ hb hs =>
    obtain ⟨n, hs⟩ := hs
    have hstep : skipStep bs limit c = .done (.inl (b :: left)) c₂ :=
      bind_eq_done_iff.mpr ⟨_, _, h, bind_eq_done_iff.mpr ⟨b :: left, _, hb, rfl⟩⟩
    exact ⟨n + 1, .next hstep hs⟩

private theorem skipBetween_close (h : peek depth c = .done (some b.close) c₁) :
    skipBetween (b :: bs) closed limit c = skipBetween bs true limit (c₁.drop 1) := by
  rw [skipBetween, bind_of_done (peek_again h limit).1]
  dsimp only
  rw [if_pos rfl, advance_bind]

private theorem Resumes.close (h : peek depth c = .done (some b.close) c₁)
    (hr : Resumes limit true bs (c₁.drop 1) c') : Resumes limit closed (b :: bs) c c' := by
  cases hr with
  | ended hb => exact .ended ((skipBetween_close h).trans hb)
  | inside hb hs => exact .inside ((skipBetween_close h).trans hb) hs

/-- A value goes on in front of which there is a comma if another one came before. -/
private theorem skipBetween_inside {x : Char} (h : peek depth c = .done (some x) c₁) (hx : x ≠ b.close)
    (hc : closed = true → x = ',') : skipBetween (b :: bs) closed limit c =
      (do
        if b = .object then skipKey
        pure (b :: bs) : Reader (List Bracket)) limit (if closed then c₁.drop 1 else c₁) := by
  rw [skipBetween, bind_of_done (peek_again h limit).1]
  dsimp only
  rw [if_neg hx]
  cases closed with
  | false => rfl
  | true =>
    obtain rfl := hc rfl
    rfl

private theorem skipKey_of_string {key : String} (h : peek depth c = .done (some '"') c₁)
    (hk : string depth c₁ = .done key c₂) (hc : colon depth c₂ = .done () c₃) :
    skipKey limit c = .done () c₃ := by
  rw [skipKey, bind_of_done (peek_again h limit).1]
  have hs : skipString limit c₁ = .done () c₂ := skipStringFrom_of_stringFrom hk
  exact (bind_of_done hs).trans (colon_of_colon hc)

/-- What is read as a value is skipped on the way to what is behind it. -/
private def SkipsValues (depth limit : Nat) : Prop :=
  ∀ {c v c₁}, value depth c = .done v c₁ →
    ∀ {bs c'}, Resumes limit true bs c₁ c' → Skips limit bs c c'

private theorem resumes_items (hv : SkipsValues depth limit) {first : Bool} {vs : List Value}
    (h : ReadsItems value depth first c vs c₁) (hc : closeList c₁ = (c₂, none))
    (hr : Resumes limit true bs c₂ c') : Resumes limit (!first) (.list :: bs) c c' := by
  induction h with
  | done h =>
    have hp := peek_of_hasItem_false h
    rw [closeList_of_peek hp] at hc
    cases hc
    exact .close hp hr
  | @item first v vs c c₁ c₂ _ h ha _ ih =>
    obtain ⟨x, hx, hp⟩ := peek_of_hasItem_true h
    cases first with
    | true => exact .inside (skipBetween_inside hp hx nofun) (hv ha (ih hc))
    | false =>
      obtain ⟨c₀, hcomma, hp⟩ := hp
      exact .inside (skipBetween_inside hcomma (by decide) fun _ => rfl)
        (hv (value_of_peek hp ha) (ih hc))

private theorem resumes_members (hv : SkipsValues depth limit) {first : Bool} {ms : List Member}
    (h : ReadsMembers depth first c ms c₁) (hc : closeObject c₁ = (c₂, none))
    (hr : Resumes limit true bs c₂ c') : Resumes limit (!first) (.object :: bs) c c' := by
  induction h with
  | done h =>
    have hp := peek_of_hasMember_false h
    rw [closeObject_of_peek hp] at hc
    cases hc
    exact .close hp hr
  | @member first key v ms c c₁ c₂ c₃ c₄ _ h hk hcolon ha _ ih =>
    have hp := peek_of_hasMember_true h
    cases first with
    | true =>
      have hkey : skipKey limit c₁ = .done () c₃ := skipKey_of_string (peek_again hp depth).2.1 hk hcolon
      have hbetween : skipBetween (.object :: bs) false limit c = .done (.object :: bs) c₃ :=
        (skipBetween_inside hp (by decide) (by decide)).trans (bind_of_done hkey)
      exact .inside hbetween (hv ha (ih hc))
    | false =>
      obtain ⟨c₀, hcomma, hp⟩ := hp
      have hkey : skipKey limit (c₀.drop 1) = .done () c₃ := skipKey_of_string hp hk hcolon
      have hbetween : skipBetween (.object :: bs) true limit c = .done (.object :: bs) c₃ :=
        (skipBetween_inside hcomma (by decide) fun _ => rfl).trans (bind_of_done hkey)
      exact .inside hbetween (hv ha (ih hc))

private theorem skipStart_scalar {first : Char} {s : Scalar} (hl : first ≠ '[') (ho : first ≠ '\x7b')
    (hp : peekValue depth c = .done first c₁) (hs : scalar first depth c₁ = .done s c₂) :
    skipStart bs limit c = .done (bs, true) c₂ := by
  rw [skipStart, bind_of_done (peekValue_again hp limit)]
  have hskip : skipScalar first limit c₁ = .done () c₂ := skipScalar_of_scalar hs
  split
  · exact absurd rfl hl
  · exact absurd rfl ho
  · exact bind_of_done hskip

private theorem skipsValues (depth limit : Nat) : SkipsValues depth limit := by
  induction depth with
  | zero =>
    intro c v c₁ h bs c' hr
    cases readsValue_of_value h with
    | scalar hl ho hp hs => exact skips_of_start (skipStart_scalar hl ho hp hs) hr
  | succ depth ih =>
    intro c v c₁ h bs c' hr
    cases readsValue_of_value h with
    | scalar hl ho hp hs => exact skips_of_start (skipStart_scalar hl ho hp hs) hr
    | @array _ _ c₂ _ _ _ hp hn hi hc =>
      have hstart : skipStart bs limit c = .done (.list :: bs, false) (c₂.drop 1) :=
        bind_of_done (peekValue_again hp limit)
      exact skips_of_start hstart (resumes_items ih hi hc hr)
    | @object _ _ c₂ _ _ _ hp hn hm hc =>
      have hstart : skipStart bs limit c = .done (.object :: bs, false) (c₂.drop 1) :=
        bind_of_done (peekValue_again hp limit)
      exact skips_of_start hstart (resumes_members ih hm hc hr)

private theorem shrinks_colon : colon.Shrinks := by
  refine shrinks_peek.bind fun first => ?_
  split
  · exact shrinks_malformed _
  · exact shrinks_advance 1
  · exact shrinks_malformed _

private theorem shrinks_skipKey : skipKey.Shrinks := by
  refine shrinks_peek.bind fun first => ?_
  split
  · exact shrinks_malformed _
  · exact shrinks_skipString.bind fun _ => shrinks_colon
  · exact shrinks_malformed _

private theorem shrinks_skipBetween (bs : List Bracket) (closed : Bool) :
    (skipBetween bs closed).Shrinks := by
  induction bs generalizing closed with
  | nil => exact shrinks_pure []
  | cons b bs ih =>
    have hinside : (do
        if b = .object then skipKey
        pure (b :: bs) : Reader (List Bracket)).Shrinks := by
      split
      · exact shrinks_skipKey.bind fun _ => shrinks_pure _
      · exact shrinks_pure _
    refine shrinks_peek.bind fun first => ?_
    split
    · exact shrinks_malformed _
    · split
      · exact (shrinks_advance 1).bind fun _ => ih true
      · split
        · exact shrinks_malformed _
        · cases closed with
          | true => exact (shrinks_advance 1).bind fun _ => hinside
          | false => exact hinside

private theorem skipStart_lt {started : List Bracket × Bool} (h : skipStart bs depth c = .done started c') :
    c'.rest.length < c.rest.length := by
  obtain ⟨first, c₁, hp, h⟩ := bind_eq_done_iff.mp h
  have hpeek := peekValue_eq_done_iff.mp hp
  have hle : c₁.rest.length ≤ c.rest.length := shrinks_peek _ _ _ _ hpeek
  have hne : c₁.rest ≠ [] := by
    obtain ⟨hhead, rfl⟩ := peek_eq_done_iff.mp hpeek
    intro hnil
    rw [hnil] at hhead
    cases hhead
  split at h
  · obtain ⟨-, rfl⟩ := pure_eq_done_iff.mp h
    exact Nat.lt_of_lt_of_le (drop_lt hne) hle
  · obtain ⟨-, rfl⟩ := pure_eq_done_iff.mp h
    exact Nat.lt_of_lt_of_le (drop_lt hne) hle
  · obtain ⟨_, c₂, hs, h⟩ := bind_eq_done_iff.mp h
    obtain ⟨-, rfl⟩ := pure_eq_done_iff.mp h
    exact Nat.lt_of_lt_of_le (skipScalar_lt hne hs) hle

private theorem skipStep_lt {next : List Bracket ⊕ Unit} (h : skipStep bs depth c = .done next c') :
    c'.rest.length < c.rest.length := by
  obtain ⟨started, c₁, hs, h⟩ := bind_eq_done_iff.mp h
  obtain ⟨left, c₂, hb, h⟩ := bind_eq_done_iff.mp h
  have hle : c₂.rest.length ≤ c₁.rest.length := shrinks_skipBetween _ _ _ _ _ _ hb
  have hc : c₂ = c' := by
    split at h
    · exact (pure_eq_done_iff.mp h).2
    · exact (pure_eq_done_iff.mp h).2
  exact hc ▸ Nat.lt_of_le_of_lt hle (skipStart_lt hs)

private theorem rounds_skipStep_lt {n : Nat} {u : Unit} (h : Rounds skipStep depth n bs c u c') :
    n + c'.rest.length < c.rest.length := by
  induction h with
  | last h =>
    rw [Nat.zero_add]
    exact skipStep_lt h
  | next h _ ih =>
    have hlt := skipStep_lt h
    omega

/-- A value that can be read at some depth can be skipped at any other, up to where it ends. -/
theorem skip_of_value {v : Value} (h : value depth c = .done v c') (limit : Nat) :
    skip limit c = .done () c' := by
  have hskips : Skips limit [] c c' := skipsValues depth limit h (.ended rfl)
  obtain ⟨n, hn⟩ := hskips
  exact repeating_eq_done_iff.mpr ⟨n, by have := rounds_skipStep_lt hn; omega, hn⟩

/-- A value takes up some of the text. -/
theorem value_lt {v : Value} (h : value depth c = .done v c') : c'.rest.length < c.rest.length := by
  obtain ⟨n, -, hn⟩ := repeating_eq_done_iff.mp (skip_of_value h depth)
  have hlt := rounds_skipStep_lt hn
  omega

theorem ReadsItems.length_le {first : Bool} {vs : List Value} (h : ReadsItems value depth first c vs c') :
    vs.length ≤ c.rest.length := by
  induction h with
  | done => exact Nat.zero_le _
  | @item first v vs c c₁ c₂ _ h hv _ ih =>
    have hlt := value_lt hv
    have hle : c₁.rest.length ≤ c.rest.length := by
      obtain ⟨x, -, hp⟩ := peek_of_hasItem_true h
      cases first with
      | true => exact shrinks_peek _ _ _ _ hp
      | false =>
        obtain ⟨c₀, hcomma, hp⟩ := hp
        have hcomma := shrinks_peek _ _ _ _ hcomma
        have hdrop : (c₀.drop 1).rest.length ≤ c₀.rest.length := shrinks_advance 1 depth _ _ _ rfl
        exact Nat.le_trans (shrinks_peek _ _ _ _ hp) (Nat.le_trans hdrop hcomma)
    rw [List.length_cons]
    omega

end Reader

end SideEffectLint.Json
