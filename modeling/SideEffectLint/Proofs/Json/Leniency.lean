import Mathlib.Data.List.Pairwise
import SideEffectLint.Proofs.Json.Value

/-! Objects with their members in another order, with more members or with defaults written out. A record
makes the same of them: each member sets a field of its own, and those that set none are passed over. -/

namespace SideEffectLint.Json

open Reader (Leads)

@[simp]
theorem Member.key_mk (key : String) (v : Value) : (mk key v).key = key :=
  rfl

theorem bind_eq_ok_iff {ε α β : Type} {x : Except ε α} {f : α → Except ε β} {b : β} :
    (x >>= f) = .ok b ↔ ∃ a, x = .ok a ∧ f a = .ok b := by
  cases x with
  | error cause => exact iff_of_false nofun nofun
  | ok a => exact ⟨fun h => ⟨a, rfl, h⟩, fun ⟨_, rfl, h⟩ => h⟩

namespace Decoder

variable {α β : Type} {d : Decoder α} {u v w : Value}

/-- What the decoder makes of the first value it makes of the second one too. -/
def Keeps (d : Decoder α) (v w : Value) : Prop :=
  ∀ a, d.ofValue v = .ok a → d.ofValue w = .ok a

theorem Keeps.trans (h : d.Keeps u v) (h' : d.Keeps v w) : d.Keeps u w :=
  fun a ha => h' a (h a ha)

/-- One item of a list stands for another if the decoder keeps it. -/
theorem Keeps.item (h : d.Keeps v w) (before after : List Value) :
    d.list.Keeps (.array (before ++ v :: after)) (.array (before ++ w :: after)) := by
  intro as has
  change (before ++ v :: after).mapM d.ofValue = .ok as at has
  change (before ++ w :: after).mapM d.ofValue = .ok as
  simp only [List.mapM_append, List.mapM_cons, bind_eq_ok_iff] at has ⊢
  obtain ⟨bs, hb, cs, ⟨a, hv, hrest⟩, has⟩ := has
  exact ⟨bs, hb, cs, ⟨a, h a hv, hrest⟩, has⟩

variable {names : List Member → List String} {defaults : List (String × Value)}

/-- The decoder makes the same of an object if its members come in another order, if one with none of
the names is put in front, or one with a default that no member has the key of. -/
structure IsLenient (d : Decoder α) (names : List Member → List String)
    (defaults : List (String × Value)) : Prop where
  permuted : ∀ {ms ms'}, ms.Perm ms' → d.Keeps (.object ms) (.object ms')
  passes : ∀ {ms key v}, key ∉ names ms → ∀ a,
    d.ofValue (.object (.mk key v :: ms)) = .ok a ↔ d.ofValue (.object ms) = .ok a
  written : ∀ {ms key v}, (key, v) ∈ defaults → (∀ m ∈ ms, m.key ≠ key) →
    d.Keeps (.object ms) (.object (.mk key v :: ms))

theorem ofValue_map_eq_ok_iff {f : α → β} {v : Value} {b : β} :
    (d.map f).ofValue v = .ok b ↔ ∃ a, d.ofValue v = .ok a ∧ f a = b := by
  simp only [Decoder.map]
  cases d.ofValue v with
  | error cause => simp [Except.map]
  | ok a => simp [Except.map]

theorem Keeps.map {v w : Value} (h : d.Keeps v w) (f : α → β) : (d.map f).Keeps v w := by
  intro b hb
  obtain ⟨a, ha, hf⟩ := ofValue_map_eq_ok_iff.mp hb
  exact ofValue_map_eq_ok_iff.mpr ⟨a, h a ha, hf⟩

theorem IsLenient.map (h : d.IsLenient names defaults) (f : α → β) :
    (d.map f).IsLenient names defaults where
  permuted hp := (h.permuted hp).map f
  passes hk b := by simp only [ofValue_map_eq_ok_iff, h.passes hk]
  written hd hk := (h.written hd hk).map f

/-- A list is no object, so there is nothing to be lenient about. -/
theorem isLenient_list (d : Decoder α) (names : List Member → List String)
    (defaults : List (String × Value)) : d.list.IsLenient names defaults where
  permuted _ := nofun
  passes _ _ := iff_of_false nofun nofun
  written _ _ := nofun

end Decoder

namespace Record

variable {α : Type} {r : Record α} {d d' e : Draft α} {m n : Member} {ms ms' : List Member} {a : α}

/-- A member sets the field of its key, which may be done once, or it is passed over. -/
inductive Puts (r : Record α) : Draft α → Member → Draft α → Prop
  | field {d : Draft α} {key : String} {v : Value} {f : RecordField α} {change : α → α}
    (hf : r.fields.find? (·.name = key) = some f) (hs : d.seen.contains key = false)
    (hv : f.decoder.ofValue v = .ok change) : Puts r d (.mk key v) (set d f change)
  | pass {d : Draft α} {key : String} {v : Value} (hf : r.fields.find? (·.name = key) = none)
    (ho : r.closed = false) : Puts r d (.mk key v) d

theorem field?_of_find? {key : String} {f : RecordField α}
    (hf : r.fields.find? (·.name = key) = some f) (hs : d.seen.contains key = false) :
    r.field? d key = .ok (some f) := by
  rw [field?, hf]
  exact if_neg (ne_true_of_eq_false hs)

theorem field?_of_find?_eq_none {key : String} (hf : r.fields.find? (·.name = key) = none)
    (ho : r.closed = false) : r.field? d key = .ok none := by
  rw [field?, hf]
  exact if_neg (ne_true_of_eq_false ho)

private theorem Puts.ofMembers_cons_eq (h : r.Puts d m d') :
    r.ofMembers (m :: ms) d = r.ofMembers ms d' := by
  cases h with
  | field hf hs hv =>
    rw [ofMembers, field?_of_find? hf hs]
    simp only [bind, Except.bind, hv]
  | pass hf ho =>
    rw [ofMembers, field?_of_find?_eq_none hf ho]
    rfl

private theorem exists_puts (h : r.ofMembers (m :: ms) d = .ok a) : ∃ d', r.Puts d m d' := by
  obtain ⟨key, v⟩ := m
  rw [ofMembers] at h
  cases hf : r.fields.find? (·.name = key) with
  | none =>
    cases ho : r.closed with
    | false => exact ⟨d, .pass hf ho⟩
    | true =>
      rw [field?, hf] at h
      simp only [ho, if_true] at h
      cases h
  | some f =>
    cases hs : d.seen.contains key with
    | true =>
      rw [field?, hf] at h
      simp only [hs, if_true] at h
      cases h
    | false =>
      rw [field?_of_find? hf hs] at h
      cases hv : f.decoder.ofValue v with
      | ok change => exact ⟨_, .field hf hs hv⟩
      | error cause =>
        simp only [bind, Except.bind, hv] at h
        cases h

theorem ofMembers_eq_ok_iff :
    r.ofMembers ms d = .ok a ↔ ∃ d', Leads r.Puts d ms d' ∧ r.finish d' = .ok a := by
  induction ms generalizing d with
  | nil =>
    rw [ofMembers]
    constructor
    · exact fun h => ⟨d, .nil d, h⟩
    · rintro ⟨_, ⟨⟩, h⟩
      exact h
  | cons m ms ih =>
    constructor
    · intro h
      obtain ⟨e, hp⟩ := exists_puts h
      rw [hp.ofMembers_cons_eq] at h
      obtain ⟨d', hl, hf⟩ := ih.mp h
      exact ⟨d', .cons hp hl, hf⟩
    · rintro ⟨d', hl, hf⟩
      cases hl with
      | cons hp hl => exact hp.ofMembers_cons_eq.trans (ih.mpr ⟨d', hl, hf⟩)

/-- The drafts have the same value, and the same of the fields has been set that `P` is true of. -/
structure Alike (P : String → Prop) (d d' : Draft α) : Prop where
  value : d'.value = d.value
  seen : ∀ key, P key → d'.seen.contains key = d.seen.contains key

variable {P : String → Prop}

private theorem Puts.alike (h : r.Puts d m e) (ha : Alike P d d') (hm : P m.key) :
    ∃ e', r.Puts d' m e' ∧ Alike P e e' := by
  cases h with
  | field hf hs hv =>
    refine ⟨_, .field hf ((ha.seen _ hm).trans hs) hv, ?_, fun key hk => ?_⟩
    · simp only [set, ha.value]
    · simp only [set, List.contains_cons, ha.seen key hk]
  | pass hf ho => exact ⟨d', .pass hf ho, ha⟩

private theorem leads_alike (h : Leads r.Puts d ms e) (ha : Alike P d d') (hms : ∀ m ∈ ms, P m.key) :
    ∃ e', Leads r.Puts d' ms e' ∧ Alike P e e' := by
  induction h generalizing d' with
  | nil d => exact ⟨d', .nil d', ha⟩
  | cons hp _ ih =>
    obtain ⟨hm, hms⟩ := List.forall_mem_cons.mp hms
    obtain ⟨e, hp', he⟩ := hp.alike ha hm
    obtain ⟨e', hl, he'⟩ := ih he hms
    exact ⟨e', .cons hp' hl, he'⟩

private theorem Alike.finish_eq (h : Alike P d d') (hr : ∀ f ∈ r.fields, f.required → P f.name) :
    r.finish d' = r.finish d := by
  have hfind : (r.fields.find? fun f => f.required && !d'.seen.contains f.name) =
      r.fields.find? fun f => f.required && !d.seen.contains f.name := by
    rw [← List.head?_filter, ← List.head?_filter]
    congr 1
    refine List.filter_congr fun f hf => ?_
    cases hq : f.required with
    | false => rfl
    | true => rw [h.seen f.name (hr f hf hq)]
  rw [finish, finish, hfind, h.value]

/-- It makes no difference which of the fields is set first. -/
def Commute (f g : RecordField α) : Prop :=
  ∀ v w change change', f.decoder.ofValue v = .ok change → g.decoder.ofValue w = .ok change' →
    ∀ x, change (change' x) = change' (change x)

instance : Std.Symm (@Commute α) :=
  ⟨fun _ _ h v w change change' hv hw x => (h w v change' change hw hv x).symm⟩

def Independent (r : Record α) : Prop :=
  r.fields.Pairwise Commute

/-- Two members can be put the other way round. -/
theorem Puts.swap (hr : r.Independent) (hm : r.Puts d m d') (hn : r.Puts d' n e) :
    ∃ d'' e', r.Puts d n d'' ∧ r.Puts d'' m e' ∧ Alike (fun _ => True) e e' := by
  cases hm with
  | pass hf ho => exact ⟨e, e, hn, .pass hf ho, rfl, fun _ _ => rfl⟩
  | @field key v f change hf hs hv =>
    cases hn with
    | pass hg ho => exact ⟨d, _, .pass hg ho, .field hf hs hv, rfl, fun _ _ => rfl⟩
    | @field key' w g change' hg hs' hv' =>
      obtain rfl : f.name = key := by simpa using List.find?_some hf
      obtain rfl : g.name = key' := by simpa using List.find?_some hg
      simp only [set, List.contains_cons, Bool.or_eq_false_iff, beq_eq_false_iff_ne] at hs'
      have hfg : f ≠ g := fun h => hs'.1 (congrArg RecordField.name h).symm
      have hset : (set d g change').seen.contains f.name = false := by
        simp only [set, List.contains_cons, Bool.or_eq_false_iff, beq_eq_false_iff_ne]
        exact ⟨hs'.1.symm, hs⟩
      refine ⟨_, _, .field hg hs'.2 hv', .field hf hset hv, ?_, fun key _ => ?_⟩
      · exact hr.forall (List.mem_of_find?_eq_some hf) (List.mem_of_find?_eq_some hg) hfg _ _ _ _
          hv hv' d.value
      · simp only [set, List.contains_cons]
        exact Bool.or_left_comm ..

private theorem leads_perm (hr : r.Independent) (hp : ms.Perm ms') (h : Leads r.Puts d ms e) :
    ∃ e', Leads r.Puts d ms' e' ∧ Alike (fun _ => True) e e' := by
  induction hp generalizing d e with
  | nil => exact ⟨e, h, rfl, fun _ _ => rfl⟩
  | cons m _ ih =>
    cases h with
    | cons hm h =>
      obtain ⟨e', hl, he⟩ := ih h
      exact ⟨e', .cons hm hl, he⟩
  | swap n m ms =>
    cases h with
    | cons hm h =>
      cases h with
      | cons hn h =>
        obtain ⟨d', d'', hn', hm', ha⟩ := hm.swap hr hn
        obtain ⟨e', hl, he⟩ := leads_alike h ha fun _ _ => trivial
        exact ⟨e', .cons hn' (.cons hm' hl), he⟩
  | trans _ _ ih ih' =>
    obtain ⟨e', hl, he⟩ := ih h
    obtain ⟨e'', hl', he'⟩ := ih' hl
    exact ⟨e'', hl', he'.value.trans he.value, fun k hk => (he'.seen k hk).trans (he.seen k hk)⟩

private theorem keeps_permuted (hr : r.Independent) (h : ms.Perm ms') :
    r.decoder.Keeps (.object ms) (.object ms') := by
  intro a ha
  obtain ⟨e, hl, hf⟩ := ofMembers_eq_ok_iff.mp ha
  obtain ⟨e', hl', he⟩ := leads_perm hr h hl
  exact ofMembers_eq_ok_iff.mpr ⟨e', hl', (he.finish_eq fun _ _ _ => trivial).trans hf⟩

variable {key : String} {v w : Value} {f : RecordField α}

/-- A default may be written out where the field is not set. -/
theorem keeps_written {change : α → α} (hf : r.fields.find? (·.name = key) = some f)
    (hq : ∀ g ∈ r.fields, g.required → g.name ≠ key) (hv : f.decoder.ofValue v = .ok change)
    (hb : change r.blank = r.blank) (hms : ∀ m ∈ ms, m.key ≠ key) :
    r.decoder.Keeps (.object ms) (.object (.mk key v :: ms)) := by
  intro a ha
  obtain ⟨e, hl, he⟩ := ofMembers_eq_ok_iff.mp ha
  have hname : f.name = key := by simpa using List.find?_some hf
  have hset : Alike (· ≠ key) ⟨r.blank, []⟩ (set ⟨r.blank, []⟩ f change) := by
    refine ⟨hb, fun key' hk => ?_⟩
    simp [set, hname, hk]
  obtain ⟨e', hl', ha'⟩ := leads_alike hl hset hms
  exact ofMembers_eq_ok_iff.mpr ⟨e', .cons (.field hf rfl hv) hl', (ha'.finish_eq hq).trans he⟩

theorem keeps_member (hf : r.fields.find? (·.name = key) = some f) (h : f.decoder.Keeps v w) :
    r.decoder.Keeps (.object (.mk key v :: ms)) (.object (.mk key w :: ms)) := by
  intro a ha
  change r.ofMembers (.mk key v :: ms) ⟨r.blank, []⟩ = .ok a at ha
  change r.ofMembers (.mk key w :: ms) ⟨r.blank, []⟩ = .ok a
  obtain ⟨d, hp⟩ := exists_puts ha
  rw [hp.ofMembers_cons_eq] at ha
  cases hp with
  | field hf' hs hv =>
    rw [hf] at hf'
    cases hf'
    rw [(Puts.field hf hs (h _ hv)).ofMembers_cons_eq]
    exact ha
  | pass hf' =>
    rw [hf] at hf'
    cases hf'

/-- A record that others may add to is lenient if its fields can be set in any order and the defaults
are those of the blank record. -/
theorem isLenient {defaults : List (String × Value)} (hr : r.Independent) (ho : r.closed = false)
    (hd : ∀ key v, (key, v) ∈ defaults → ∃ f change, r.fields.find? (·.name = key) = some f ∧
      (∀ g ∈ r.fields, g.required → g.name ≠ key) ∧ f.decoder.ofValue v = .ok change ∧
      change r.blank = r.blank) : r.decoder.IsLenient (fun _ => r.names) defaults where
  permuted := keeps_permuted hr
  passes {ms key v} hk a := by
    have hf : r.fields.find? (·.name = key) = none := by
      rw [List.find?_eq_none]
      intro f hf hn
      exact hk (List.mem_map.mpr ⟨f, hf, by simpa using hn⟩)
    change r.ofMembers (.mk key v :: ms) ⟨r.blank, []⟩ = .ok a ↔ _
    rw [(Puts.pass hf ho).ofMembers_cons_eq]
    rfl
  written hm hms := by
    obtain ⟨f, change, hf, hq, hv, hb⟩ := hd _ _ hm
    exact keeps_written hf hq hv hb hms

/-- Fields that set parts of a value apart from each other. -/
theorem commute_map {β γ : Type} {n n' : String} {q q' : Bool} {d : Decoder β} {d' : Decoder γ}
    {set : β → α → α} {set' : γ → α → α} (h : ∀ x y a, set x (set' y a) = set' y (set x a)) :
    Commute ⟨n, q, d.map set⟩ ⟨n', q', d'.map set'⟩ := by
  intro v w change change' hv hw a
  obtain ⟨x, -, rfl⟩ := Decoder.ofValue_map_eq_ok_iff.mp hv
  obtain ⟨y, -, rfl⟩ := Decoder.ofValue_map_eq_ok_iff.mp hw
  exact h x y a

end Record

namespace Tagged

variable {α : Type} {t : Tagged α} {d : Decoder α} {ms : List Member} {key : String} {v w : Value}
  {a : α}

private theorem splitMembers_some_eq_ok_iff {acc : List Member} {out : Decoder α × Value} :
    t.splitMembers ms (some d, acc) = .ok out ↔
      (∀ m ∈ ms, m.key ≠ t.tag) ∧ out = (d, .object (acc.reverse ++ ms)) := by
  induction ms generalizing acc with
  | nil => simp [splitMembers, finish, eq_comm]
  | cons m ms ih =>
    obtain ⟨key, v⟩ := m
    rw [splitMembers]
    by_cases hk : key = t.tag
    · simp [hk]
    · simp [hk, ih]

private theorem splitMembers_none_eq_ok_iff {acc : List Member} {out : Decoder α × Value} :
    t.splitMembers ms (none, acc) = .ok out ↔ ∃ kind d,
      ms.filter (·.key = t.tag) = [.mk t.tag kind] ∧ t.variant.ofValue kind = .ok d ∧
        out = (d, .object (acc.reverse ++ ms.filter (·.key ≠ t.tag))) := by
  induction ms generalizing acc with
  | nil => simp [splitMembers, finish]
  | cons m ms ih =>
    obtain ⟨key, v⟩ := m
    rw [splitMembers]
    by_cases hk : key = t.tag
    · subst hk
      have hothers : (∀ m ∈ ms, m.key ≠ t.tag) ↔ ms.filter (·.key = t.tag) = [] := by
        simp [List.filter_eq_nil_iff]
      have hself (h : ∀ m ∈ ms, m.key ≠ t.tag) : ms.filter (·.key ≠ t.tag) = ms :=
        List.filter_eq_self.mpr (by simpa using h)
      rw [if_pos rfl]
      change (t.variant.ofValue v >>= fun d => t.splitMembers ms (some d, acc)) = .ok out ↔ _
      simp only [bind_eq_ok_iff, splitMembers_some_eq_ok_iff]
      constructor
      · rintro ⟨d, hd, hms, rfl⟩
        exact ⟨v, d, by simp [hothers.mp hms], hd, by simpa using (hself hms).symm⟩
      · rintro ⟨kind, d, hkind, hd, rfl⟩
        simp only [Member.key_mk, List.filter_cons, decide_true, if_true, List.cons.injEq,
          Member.mk.injEq, true_and] at hkind
        obtain ⟨rfl, hms⟩ := hkind
        exact ⟨d, hd, hothers.mpr hms, by simpa using hself (hothers.mpr hms)⟩
    · simp [hk, ih]

/-- The one member with the tag tells which decoder the others are for. -/
theorem ofValue_eq_ok_iff : t.decoder.ofValue (.object ms) = .ok a ↔ ∃ kind d,
    ms.filter (·.key = t.tag) = [.mk t.tag kind] ∧ t.variant.ofValue kind = .ok d ∧
      d.ofValue (.object (ms.filter (·.key ≠ t.tag))) = .ok a := by
  change (t.splitMembers ms (none, []) >>= fun x => x.1.ofValue x.2) = .ok a ↔ _
  simp only [bind_eq_ok_iff, splitMembers_none_eq_ok_iff]
  constructor
  · rintro ⟨_, ⟨kind, d, hkind, hd, rfl⟩, ha⟩
    exact ⟨kind, d, hkind, hd, ha⟩
  · rintro ⟨kind, d, hkind, hd, ha⟩
    exact ⟨_, ⟨kind, d, hkind, hd, rfl⟩, ha⟩

/-- The names of the tag and of the fields that records of that kind have. -/
def names (t : Tagged α) (fields : Value → List String) (ms : List Member) : List String :=
  t.tag :: (((Value.object ms).member? t.tag).map fields).getD []

private theorem member?_of_filter_eq {kind : Value} (h : ms.filter (·.key = key) = [.mk key kind]) :
    (Value.object ms).member? key = some kind := by
  rw [Value.member?, ← List.head?_filter, h]
  rfl

theorem isLenient {fields : Value → List String} (h : ∀ kind d, t.variant.ofValue kind = .ok d →
    d.IsLenient (fun _ => fields kind) []) : t.decoder.IsLenient (t.names fields) [] where
  permuted {ms ms'} hp a ha := by
    obtain ⟨kind, d, hkind, hd, ha⟩ := ofValue_eq_ok_iff.mp ha
    have hkind' : ms'.filter (·.key = t.tag) = [.mk t.tag kind] := by
      rw [← List.perm_singleton, ← hkind]
      exact (hp.filter _).symm
    exact ofValue_eq_ok_iff.mpr ⟨kind, d, hkind', hd, (h kind d hd).permuted (hp.filter _) a ha⟩
  passes {ms key v} hk a := by
    rw [names, List.mem_cons, not_or] at hk
    have htag : (Member.mk key v :: ms).filter (·.key = t.tag) = ms.filter (·.key = t.tag) := by
      simp [hk.1]
    have hothers : (Member.mk key v :: ms).filter (·.key ≠ t.tag) =
        .mk key v :: ms.filter (·.key ≠ t.tag) := by
      simp [hk.1]
    rw [ofValue_eq_ok_iff, ofValue_eq_ok_iff, htag, hothers]
    refine exists₂_congr fun kind d => and_congr_right fun hkind => and_congr_right fun hd => ?_
    refine (h kind d hd).passes ?_ a
    rw [member?_of_filter_eq hkind] at hk
    exact hk.2
  written := nofun

theorem keeps_member (hk : key ≠ t.tag) (h : ∀ kind d, t.variant.ofValue kind = .ok d →
    ∀ ms, d.Keeps (.object (.mk key v :: ms)) (.object (.mk key w :: ms))) :
    t.decoder.Keeps (.object (.mk key v :: ms)) (.object (.mk key w :: ms)) := by
  intro a ha
  obtain ⟨kind, d, hkind, hd, ha⟩ := ofValue_eq_ok_iff.mp ha
  refine ofValue_eq_ok_iff.mpr ⟨kind, d, ?_, hd, ?_⟩
  · simpa [hk] using hkind
  · simp only [Member.key_mk, List.filter_cons, hk, ne_eq, not_false_eq_true, decide_true,
      if_true] at ha ⊢
    exact h kind d hd _ a ha

end Tagged

end SideEffectLint.Json
