import SideEffectLint.Proofs.Json.Leniency
import SideEffectLint.Proofs.Json.Skipping

/-! Reading from a text and from a value. What a decoder makes of a value it also makes of any text that is
read as the value, and it stops in the text where the value ends. -/

namespace SideEffectLint.Json

open Reader

namespace Decoder

variable {α β : Type} {depth : Nat} {c c' c₁ c₂ : Cursor}

/-- What the decoder makes of a value it reads wherever the value is read, up to the same place. -/
def Agrees (d : Decoder α) : Prop :=
  ∀ depth c v c' a, value depth c = .done v c' → d.ofValue v = .ok a → d.read depth c = .done a c'

private theorem placed_eq_done_iff {r : Reader α} {a : α} :
    placed r depth c = .done a c' ↔ r depth c = .done a c' := by
  rw [placed]
  split
  · rename_i hrefused
    rw [hrefused]
    constructor
    · rintro ⟨⟩
    · rintro ⟨⟩
  · rfl

theorem Agrees.map {d : Decoder α} (hd : d.Agrees) (f : α → β) : (d.map f).Agrees := by
  intro depth c v c' b hv hb
  obtain ⟨a, ha, rfl⟩ := ofValue_map_eq_ok_iff.mp hb
  exact bind_of_done (hd depth c v c' a hv ha)

private theorem agrees_ofScalar (wanted : String) (accept : Scalar → Except Mismatch α) :
    (ofScalar wanted accept).Agrees := by
  intro depth c v c' a hv ha
  cases readsValue_of_value hv with
  | array => cases ha
  | object => cases ha
  | @scalar _ _ c₁ _ first s hl ho hp hs =>
    change accept s = .ok a at ha
    refine (bind_of_done hp).trans ?_
    split
    · exact absurd rfl hl
    · exact absurd rfl ho
    · refine placed_eq_done_iff.mpr ((bind_of_done hs).trans ?_)
      rw [ha]
      rfl

/-- The character that a scalar starts with tells what it is. -/
private def StartsWith : Scalar → Char → Prop
  | .null, first => first = 'n'
  | .bool _, first => first = 't' ∨ first = 'f'
  | .number _, first => first = '-' ∨ first.isDigit
  | .string _, first => first = '"'

private theorem startsWith_of_scalar {first : Char} {s : Scalar} (h : scalar first depth c = .done s c') :
    StartsWith s first := by
  unfold scalar at h
  split at h
  · obtain ⟨_, -, rfl⟩ := bind_pure_eq_done_iff.mp h
    rfl
  · obtain ⟨_, -, rfl⟩ := bind_pure_eq_done_iff.mp h
    exact .inl rfl
  · obtain ⟨_, -, rfl⟩ := bind_pure_eq_done_iff.mp h
    exact .inr rfl
  · obtain ⟨text, -, rfl⟩ := bind_pure_eq_done_iff.mp h
    rfl
  · split at h
    · rename_i hfirst
      obtain ⟨n, -, rfl⟩ := bind_pure_eq_done_iff.mp h
      exact (Bool.or_eq_true_iff.mp hfirst).imp_left of_decide_eq_true
    · cases h

private theorem startsWith_null_iff {s : Scalar} {first : Char} (h : StartsWith s first) :
    s = .null ↔ first = 'n' := by
  cases s with
  | null => exact iff_of_true rfl h
  | bool b => exact iff_of_false nofun (by rintro rfl; rcases h with h | h <;> cases h)
  | number n => exact iff_of_false nofun (by rintro rfl; rcases h with h | h <;> cases h)
  | string text => exact iff_of_false nofun (by rintro rfl; cases h)

private theorem exists_first {v : Value} (h : value depth c = .done v c') :
    ∃ first c₁, peek depth c = .done (some first) c₁ ∧ value depth c₁ = .done v c' ∧
      if first = 'n' then v = .scalar .null ∧ word ['n', 'u', 'l', 'l'] depth c₁ = .done () c'
      else v ≠ .scalar .null := by
  have hagain {first : Char} {c₁ : Cursor} (hp : peekValue depth c = .done first c₁) :
      peek depth c = .done (some first) c₁ ∧ value depth c₁ = .done v c' := by
    have hp := peekValue_eq_done_iff.mp hp
    obtain ⟨-, -, rfl⟩ := peek_again hp depth
    exact ⟨hp, by rwa [value_skipBlank]⟩
  cases readsValue_of_value h with
  | array hp => exact ⟨'[', _, (hagain hp).1, (hagain hp).2, nofun⟩
  | object hp => exact ⟨'\x7b', _, (hagain hp).1, (hagain hp).2, nofun⟩
  | @scalar _ _ c₁ _ first s hl ho hp hs =>
    refine ⟨first, c₁, (hagain hp).1, (hagain hp).2, ?_⟩
    have hnull := startsWith_null_iff (startsWith_of_scalar hs)
    split
    · rename_i hn
      obtain rfl := hnull.mpr hn
      subst hn
      exact ⟨rfl, skipScalar_of_scalar hs⟩
    · rintro ⟨⟩
      exact absurd (hnull.mp rfl) ‹_›

theorem Agrees.optional {d : Decoder α} (hd : d.Agrees) : d.optional.Agrees := by
  intro depth c v c' o hv ho
  obtain ⟨first, c₁, hp, hv₁, hnull⟩ := exists_first hv
  refine (bind_of_done hp).trans ?_
  by_cases hn : first = 'n'
  · rw [if_pos hn] at hnull
    obtain ⟨rfl, hw⟩ := hnull
    subst hn
    cases ho
    exact bind_of_done hw
  · rw [if_neg hn] at hnull
    have hmap : (d.ofValue v).map some = .ok o := by
      simpa only [Decoder.optional] using ho
    cases ha : d.ofValue v with
    | error cause =>
      rw [ha] at hmap
      cases hmap
    | ok a =>
      rw [ha] at hmap
      cases hmap
      generalize hfirst : some first = x
      split
      · exact absurd (Option.some.inj hfirst) hn
      · exact bind_of_done (hd _ _ _ _ _ hv₁ ha)

private theorem readsItems_of_values {d : Decoder α} (hd : d.Agrees) {first : Bool} {vs : List Value}
    (h : ReadsItems value depth first c vs c') : ∀ {as : List α}, vs.mapM d.ofValue = .ok as →
      ReadsItems d.read depth first c as c' ∧ as.length = vs.length := by
  induction h with
  | done h =>
    rintro as ⟨⟩
    exact ⟨.done h, rfl⟩
  | item h ha _ ih =>
    intro as has
    rw [List.mapM_cons] at has
    obtain ⟨a, hv, hrest⟩ := bind_eq_ok_iff.mp has
    obtain ⟨as, hvs, he⟩ := bind_eq_ok_iff.mp hrest
    cases he
    obtain ⟨hs, hlength⟩ := ih hvs
    exact ⟨.item h (hd _ _ _ _ _ ha hv) hs, congrArg Nat.succ hlength⟩

theorem Agrees.list {d : Decoder α} (hd : d.Agrees) : d.list.Agrees := by
  intro depth c v c' as hv has
  cases readsValue_of_value hv with
  | scalar => cases has
  | object => cases has
  | array hp hn hi hc =>
    obtain ⟨hs, hlength⟩ := readsItems_of_values hd hi has
    refine (bind_of_done hp).trans (enclosed_eq_done_iff.mpr ⟨_, _, rfl, ?_, hc⟩)
    exact itemsFrom_eq_done_iff.mpr ⟨hlength ▸ hn, hs⟩

private theorem agrees_choiceName (choices : List (String × α)) : (choiceName choices).Agrees :=
  agrees_ofScalar _ _

private theorem agrees_unit : unit.Agrees :=
  agrees_ofScalar _ _

theorem agrees_string : string.Agrees :=
  agrees_ofScalar _ _

theorem agrees_word32 : word32.Agrees :=
  agrees_ofScalar _ _

private theorem value_of_string {text : String} (hp : peek depth c = .done (some '"') c₁)
    (hs : Reader.string depth c₁ = .done text c₂) : value depth c = .done (Value.string text) c₂ := by
  have hscalar : scalar '"' depth c₁ = .done (.string text) c₂ := bind_of_done hs
  unfold value
  cases depth with
  | zero => exact (bind_of_done (peekValue_eq_done_iff.mpr hp)).trans (bind_of_done hscalar)
  | succ depth => exact (bind_of_done (peekValue_eq_done_iff.mpr hp)).trans (bind_of_done hscalar)

theorem agrees_choice (choices : List (String × α)) : (choice choices).Agrees := by
  intro depth c v c' a hv ha
  cases readsValue_of_value hv with
  | array => cases ha
  | @scalar _ _ c₁ _ first s hl ho hp hs =>
    cases s with
    | null => cases ha
    | bool => cases ha
    | number => cases ha
    | string name =>
      obtain rfl : first = '"' := startsWith_of_scalar hs
      obtain ⟨-, -, rfl⟩ := peek_again (peekValue_eq_done_iff.mp hp) depth
      refine (bind_of_done hp).trans ?_
      exact agrees_choiceName choices _ _ (.string name) _ _ (by rwa [value_skipBlank]) ha
  | @object _ _ c₁ c₂ _ ms hp hn hm hc =>
    cases hm with
    | done => cases ha
    | @member _ name v ms _ c₃ c₄ c₅ c₆ _ h hk hcolon hnull hs =>
      cases hs with
      | member => cases ha
      | done h' =>
        obtain ⟨b, hb, hrest⟩ := bind_eq_ok_iff.mp ha
        obtain ⟨u, hu, he⟩ := bind_eq_ok_iff.mp hrest
        cases he
        have hname := value_of_string (peek_of_hasMember_true h) hk
        have hend := peek_of_hasMember_false h'
        rw [closeObject_of_peek hend] at hc
        cases hc
        refine (bind_of_done hp).trans ?_
        refine (bind_of_done (agrees_choiceName choices _ _ _ _ _ hname hb)).trans ?_
        refine (bind_of_done hcolon).trans ?_
        refine (bind_of_done (agrees_unit _ _ _ _ _ hnull hu)).trans ?_
        exact bind_of_done hend

private theorem readEnclosed_array {wanted : String} {r : Reader α} {object : Option (Reader α)} {a : α}
    (hp : peekValue (depth + 1) c = .done '[' c₁) (hr : r depth (c₁.drop 1) = .done a c₂)
    (hc : closeList c₂ = (c', none)) :
    readEnclosed wanted (some r) object (depth + 1) c = .done a c' :=
  (bind_of_done hp).trans (enclosed_eq_done_iff.mpr ⟨depth, c₂, rfl, hr, hc⟩)

private theorem readEnclosed_object {wanted : String} {r : Reader α} {list : Option (Reader α)} {a : α}
    (hp : peekValue (depth + 1) c = .done '\x7b' c₁) (hr : r depth (c₁.drop 1) = .done a c₂)
    (hc : closeObject c₂ = (c', none)) :
    readEnclosed wanted list (some r) (depth + 1) c = .done a c' :=
  (bind_of_done hp).trans (enclosed_eq_done_iff.mpr ⟨depth, c₂, rfl, hr, hc⟩)

theorem decode_eq_ok_iff {d : Decoder α} {text : String} {a : α} :
    d.decode text = .ok a ↔ ∃ c, d.readText maxDepth ⟨text.toList, 0⟩ = .done a c := by
  rw [decode]
  split
  · rename_i h
    constructor
    · rintro ⟨⟩
      exact ⟨_, h⟩
    · rintro ⟨c, hc⟩
      rw [h] at hc
      cases hc
      rfl
  · rename_i h
    exact iff_of_false nofun (by rintro ⟨c, hc⟩; rw [h] at hc; cases hc)
  · rename_i h
    exact iff_of_false nofun (by rintro ⟨c, hc⟩; rw [h] at hc; cases hc)

/-- What the decoder makes of a value it makes of each text that is read as the value. -/
theorem Agrees.decode {d : Decoder α} (hd : d.Agrees) {text : String} {v : Value} {a : α}
    (ht : anything.decode text = .ok v) (ha : d.ofValue v = .ok a) : d.decode text = .ok a := by
  obtain ⟨c, hread⟩ := decode_eq_ok_iff.mp ht
  obtain ⟨w, c₁, hw, hend⟩ := bind_eq_done_iff.mp hread
  obtain ⟨first, c₂, hp, hend⟩ := bind_eq_done_iff.mp hend
  split at hend
  · obtain ⟨rfl, rfl⟩ := pure_eq_done_iff.mp hend
    have hvalue := hd _ _ _ _ _ (placed_eq_done_iff.mp hw) ha
    exact decode_eq_ok_iff.mpr ⟨_, (bind_of_done (placed_eq_done_iff.mpr hvalue)).trans (bind_of_done hp)⟩
  · cases hend

end Decoder

namespace Record

variable {α : Type} {depth : Nat} {c c' c₁ c₂ : Cursor} {r : Record α}

private theorem Puts.takesValue (hr : ∀ f ∈ r.fields, f.decoder.Agrees) {d d' : Draft α} {m : Member}
    (h : r.Puts d m d') : TakesValue r.readMember depth d m d' := by
  intro c c₁ c₂ hc hv
  cases h with
  | @field key v f change hf hs hd =>
    have hread := hr f (List.mem_of_find?_eq_some hf) _ _ _ _ _ hv hd
    have hfield : ofExcept (r.field? d key) depth c = .done (some f) c := by
      rw [field?_of_find? hf hs]
      rfl
    exact (bind_of_done hfield).trans ((bind_of_done hc).trans (bind_of_done hread))
  | @pass key v hf ho =>
    have hfield : ofExcept (r.field? d key) depth c = .done none c := by
      rw [field?_of_find?_eq_none hf ho]
      rfl
    exact (bind_of_done hfield).trans
      ((bind_of_done hc).trans (bind_of_done (skip_of_value hv depth)))

private theorem readMembers_of_values (hr : ∀ f ∈ r.fields, f.decoder.Agrees) {ms : List Member} {a : α}
    (h : ReadsMembers depth true c ms c') (hn : ms.length ≤ c.rest.length)
    (ha : r.ofMembers ms ⟨r.blank, []⟩ = .ok a) : r.readMembers depth c = .done a c' := by
  obtain ⟨d, hl, hf⟩ := ofMembers_eq_ok_iff.mp ha
  have htakes : Leads (TakesValue r.readMember depth) ⟨r.blank, []⟩ ms d :=
    hl.imp fun _ _ _ hp => hp.takesValue hr
  refine (bind_of_done (h.foldMembers hn htakes)).trans ?_
  rw [hf]
  rfl

private theorem hasItem_again {first : Bool} (h : hasItem first depth c = .done false c₁) (first' : Bool) :
    hasItem first' depth c₁ = .done false c₁ :=
  bind_of_done (peek_again (peek_of_hasItem_false h) depth).2.1

private theorem readItems_of_values {fields : List (RecordField α)}
    (hr : ∀ f ∈ fields, f.decoder.Agrees) {vs : List Value} {count : Nat} {x a : α}
    (h : ReadsItems value depth (count = 0) c vs c₁) (hc : closeList c₁ = (c', none))
    (ha : r.ofItems fields vs count x = .ok a) :
    ∃ c₂, r.readItems fields count x depth c = .done a c₂ ∧ closeList c₂ = (c', none) := by
  induction fields generalizing vs count x c with
  | nil =>
    cases h with
    | done h =>
      obtain ⟨-, rfl⟩ := peek_eq_done_iff.mp (peek_of_hasItem_false h)
      cases ha
      refine ⟨c, rfl, ?_⟩
      rwa [closeList, skipBlank_skipBlank] at hc
    | item => cases ha
  | cons f fs ih =>
    obtain ⟨hf, hfs⟩ := List.forall_mem_cons.mp hr
    cases h with
    | done h =>
      rw [ofItems] at ha
      split at ha
      · cases ha
      · rename_i hq
        obtain ⟨c₂, hread, hclose⟩ := ih hfs (.done (hasItem_again h _)) ha
        refine ⟨c₂, (bind_of_done h).trans ?_, hclose⟩
        rw [if_neg Bool.false_ne_true, if_neg hq]
        exact hread
    | @item _ v vs _ c₂ c₃ _ h hv hs =>
      obtain ⟨change, hchange, ha⟩ := bind_eq_ok_iff.mp ha
      have hrest : ReadsItems value depth (count + 1 = 0) c₃ vs c₁ := hs
      obtain ⟨c₄, hread, hclose⟩ := ih hfs hrest ha
      exact ⟨c₄, (bind_of_done h).trans ((bind_of_done (hf _ _ _ _ _ hv hchange)).trans hread), hclose⟩

theorem agrees (hr : ∀ f ∈ r.fields, f.decoder.Agrees) : r.decoder.Agrees := by
  intro depth c v c' a hv ha
  cases readsValue_of_value hv with
  | scalar => cases ha
  | array hp hn hi hc =>
    obtain ⟨c₃, hread, hclose⟩ := readItems_of_values hr hi hc ha
    exact Decoder.readEnclosed_array hp hread hclose
  | object hp hn hm hc => exact Decoder.readEnclosed_object hp (readMembers_of_values hr hm hn ha) hc

end Record

namespace Tagged

variable {α : Type} {depth : Nat} {c c' : Cursor} {t : Tagged α}

private theorem agrees_variant : t.variant.Agrees :=
  Decoder.agrees_ofScalar _ _

private theorem leads_of_splitMembers {ms : List Member} {acc : Option (Decoder α) × List Member}
    {out : Decoder α × Value} (h : t.splitMembers ms acc = .ok out) :
    ∃ acc', Leads (TakesValue t.readMember depth) acc ms acc' ∧ t.finish acc' = .ok out := by
  induction ms generalizing acc with
  | nil => exact ⟨acc, .nil acc, h⟩
  | cons m ms ih =>
    obtain ⟨key, v⟩ := m
    rw [splitMembers] at h
    split at h
    · subst key
      split at h
      · cases h
      · rename_i hsome
        obtain ⟨d, hd, h⟩ := bind_eq_ok_iff.mp h
        obtain ⟨acc', hl, hf⟩ := ih h
        refine ⟨acc', .cons ?_ hl, hf⟩
        intro c c₁ c₂ hc hv
        change t.readMember acc t.tag depth c = _
        rw [readMember, if_pos rfl, if_neg hsome]
        exact (bind_of_done hc).trans (bind_of_done (agrees_variant _ _ _ _ _ hv hd))
    · rename_i hkey
      obtain ⟨acc', hl, hf⟩ := ih h
      refine ⟨acc', .cons ?_ hl, hf⟩
      intro c c₁ c₂ hc hv
      change t.readMember acc key depth c = _
      rw [readMember, if_neg hkey]
      exact (bind_of_done hc).trans (bind_of_done hv)

theorem agrees (t : Tagged α) : t.decoder.Agrees := by
  intro depth c v c' a hv ha
  obtain ⟨⟨d, w⟩, hsplit, ha⟩ := bind_eq_ok_iff.mp ha
  have hread : Decoder.readEnclosed t.title (some t.readItems) (some t.readMembers) depth c =
      .done (d, w) c' := by
    cases readsValue_of_value hv with
    | scalar => cases hsplit
    | array hp hn hi hc =>
      cases hi with
      | done => cases hsplit
      | item h hkind hs =>
        obtain ⟨d', hd, he⟩ := bind_eq_ok_iff.mp hsplit
        cases he
        refine Decoder.readEnclosed_array hp ((bind_of_done h).trans ?_) hc
        have hitems := itemsFrom_eq_done_iff.mpr ⟨hs.length_le, hs⟩
        exact (bind_of_done (agrees_variant _ _ _ _ _ hkind hd)).trans (bind_of_done hitems)
    | object hp hn hm hc =>
      obtain ⟨acc, hl, hf⟩ := leads_of_splitMembers hsplit
      refine Decoder.readEnclosed_object hp ((bind_of_done (hm.foldMembers hn hl)).trans ?_) hc
      rw [hf]
      rfl
  have hvalue : d.ofValue w = .ok a := ha
  refine (bind_of_done hread).trans ?_
  change ofExcept (d.ofValue w) depth c' = _
  rw [hvalue]
  rfl

end Tagged

end SideEffectLint.Json
