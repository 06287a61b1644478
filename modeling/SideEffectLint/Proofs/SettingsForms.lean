import SideEffectLint.Proofs.Json.Canonical
import SideEffectLint.Proofs.Json.Leniency
import SideEffectLint.Proofs.Json.Reading
import SideEffectLint.Settings.Basic

/-! Which texts hold settings. They are told by the form of the text when it is read as settings, and by its
value when it is read as any value first. -/

namespace SideEffectLint

open Json

namespace Json

def Form.bool? : Form → Option Bool
  | .scalar (.bool b) => some b
  | _ => none

namespace Decoder

open Reader

variable {α : Type} {depth : Nat} {rest : List Char}

private theorem skipsBlanks_ofScalar (wanted : String) (accept : Scalar → Except Mismatch α) :
    (ofScalar wanted accept).read.SkipsBlanks :=
  skipsBlanks_peekValue.bind _

private theorem gives_ofScalar (wanted : String) (accept : Scalar → Except Mismatch α) (s : ScalarForm)
    (hr : Delimits rest) (depth : Nat) : (ofScalar wanted accept).read.Gives depth (s.chars ++ rest)
      (s.scalar?.bind fun s => ((ofScalar wanted accept).ofValue (.scalar s)).toOption) rest := by
  obtain ⟨c, cs, hcs, hc⟩ := exists_scalarChars_eq_cons s
  have hscalar :=
    ((gives_scalar s hcs hr depth).bind fun s _ => gives_ofExcept (accept s) depth rest).placed
  have hblank := (Bool.or_eq_false_iff.mp hc).1
  rw [hcs] at hscalar ⊢
  refine (yields_peekValue (List.forall_mem_nil _) hblank depth (cs ++ rest)).bind_gives ?_
  split
  · cases hc
  · cases hc
  · exact hscalar

private theorem rejects_ofScalar (wanted : String) (accept : Scalar → Except Mismatch α) {bracket : Char}
    (hb : bracket = '[' ∨ bracket = '\x7b') (depth : Nat) (cs : List Char) :
    (ofScalar wanted accept).read.Rejects depth (bracket :: cs) := by
  rcases hb with rfl | rfl
  · exact (yields_peekValue (List.forall_mem_nil _) (by decide) depth cs).bind_rejects
      (rejects_refuse _ depth _).placed
  · exact (yields_peekValue (List.forall_mem_nil _) (by decide) depth cs).bind_rejects
      (rejects_refuse _ depth _).placed

private theorem bind_ofValue_bool (s : ScalarForm) :
    (s.scalar?.bind fun s => (bool.ofValue (.scalar s)).toOption) = (Form.scalar s).bool? := by
  cases s with
  | null => rfl
  | bool b => rfl
  | number n =>
    rw [ScalarForm.scalar?]
    cases n.number? <;> rfl
  | string parts =>
    rw [ScalarForm.scalar?]
    cases StringPart.text? parts <;> rfl

private theorem gives_bool (f : Form) (hr : Delimits rest) (depth : Nat) :
    bool.read.Gives depth (f.chars ++ rest) f.bool? rest := by
  rw [Form.chars.eq_def]
  cases f with
  | array inside items => exact rejects_ofScalar _ _ (.inl rfl) depth _
  | object inside members => exact rejects_ofScalar _ _ (.inr rfl) depth _
  | scalar s =>
    rw [← bind_ofValue_bool]
    exact gives_ofScalar _ _ s hr depth

end Decoder

end Json

namespace Settings

open Json.Reader

/-- The name of the member that tells whether reports are written as JSON. -/
def jsonOutputKey : String :=
  "jsonOutput"

private def field : RecordField Settings :=
  ⟨jsonOutputKey, false, Decoder.bool.map fun jsonOutput s => { s with jsonOutput }⟩

private def record : Record Settings :=
  ⟨"struct SemaConfig", {}, [field], true⟩

/-- The settings that a text of the form holds: an object with no member but one for the output, or a list
with it alone. -/
def ofForm? : Form → Option Settings
  | .scalar _ => none
  | .array _ [] | .object _ [] => some {}
  | .array _ [e] => e.form.bool?.map Settings.mk
  | .object _ [p] => if p.key? = some jsonOutputKey then p.value.form.bool?.map Settings.mk else none
  | .array _ (_ :: _ :: _) | .object _ (_ :: _ :: _) => none

variable {rest : List Char}

private theorem gives_field (f : Form) (hr : Delimits rest) (depth : Nat) :
    field.decoder.read.Gives depth (f.chars ++ rest)
      (f.bool?.map fun jsonOutput (s : Settings) => { s with jsonOutput }) rest :=
  (Decoder.gives_bool f hr depth).map _

private theorem gives_firstItem (inside : Blanks) (e : ElementForm) (cs : List Char) (hr : Delimits cs)
    (depth : Nat) : (record.readItems [field] 0 {}).Gives depth (inside.chars ++ e.lead ++ cs)
      (e.form.bool?.map Settings.mk) cs := by
  obtain ⟨before, form, after⟩ := e
  have hitem := (gives_field form hr depth).map fun change => change {}
  rw [Option.map_map] at hitem
  have hmore := yields_hasItem_form form true inside before depth cs
  rw [if_pos rfl, List.append_nil] at hmore
  exact hmore.bind_gives hitem

private theorem gives_array (inside : Blanks) (es : List ElementForm) (rest : List Char) (depth : Nat) :
    (enclosed closeList (record.readItems [field] 0 {})).Gives (depth + 1)
      ((Form.array inside es).chars ++ rest) (ofForm? (.array inside es)) rest := by
  have hd : Delimits (']' :: rest) := by
    rintro c ⟨⟩
    decide
  rw [Form.chars, itemsChars_eq]
  cases es with
  | nil =>
    have hempty : (record.readItems [field] 0 {}).Gives depth (inside.chars ++ ']' :: rest) (some {})
        (']' :: rest) :=
      (yields_hasItem_end inside.blank true depth rest).bind (yields_pure _ depth _)
    have hlist := gives_enclosed '[' hempty (closeList_bracket rest)
    simp only [listed, List.append_assoc, List.cons_append, List.nil_append]
    exact hlist
  | cons e es =>
    have hfirst := gives_firstItem inside e
      (e.trail.chars ++ (listed ElementForm.lead ElementForm.trail false es ++ ']' :: rest))
      (delimits_blanks e.trail (delimits_listed hd)) depth
    simp only [listed, List.append_assoc, List.cons_append, List.nil_append, if_true] at hfirst ⊢
    cases es with
    | nil =>
      refine gives_enclosed '[' hfirst fun offset => ?_
      rw [closeList_blanks]
      exact closeList_bracket rest _
    | cons e' es =>
      refine rejects_enclosed '[' hfirst fun offset => ?_
      rw [closeList_blanks]
      exact Option.some_ne_none _

/-- What a member with the key makes of the settings read so far: it is the one for the output, and the
first of them. -/
def member? (d : Record.Draft Settings) (key : String) (e : ElementForm) : Option (Record.Draft Settings) :=
  if key = jsonOutputKey ∧ d.seen.contains key = false then
    e.form.bool?.map fun b => ⟨⟨b⟩, key :: d.seen⟩
  else none

private theorem field?_eq {d : Record.Draft Settings} (h : d.seen.contains jsonOutputKey = false) :
    record.field? d jsonOutputKey = .ok (some field) :=
  Record.field?_of_find? rfl h

private theorem exists_field?_fault {d : Record.Draft Settings} {key : String}
    (h : ¬(key = jsonOutputKey ∧ d.seen.contains key = false)) :
    ∃ cause, record.field? d key = .error cause := by
  by_cases hk : key = jsonOutputKey
  · have hs : d.seen.contains key = true := by simpa [hk] using h
    subst hk
    exact ⟨_, if_pos hs⟩
  · have hnone : record.fields.find? (·.name = key) = none := by
      simpa [record, field] using Ne.symm hk
    rw [Record.field?, hnone]
    exact ⟨_, rfl⟩

private theorem skipsBlanks_field : field.decoder.read.SkipsBlanks :=
  (Decoder.skipsBlanks_ofScalar _ _).bind _

private theorem gives_readMember (p : PropertyForm) (d : Record.Draft Settings) (key : String)
    (hr : Delimits rest) (depth : Nat) : (record.readMember d key).Gives depth (p.behindKey ++ rest)
      (member? d key p.value) rest := by
  obtain ⟨before, parts, between, value⟩ := p
  have hvalue := gives_behindColon skipsBlanks_field (gives_field value.form hr depth) between
    fun change => Record.set d field change
  rw [Option.map_map] at hvalue
  rw [member?, Record.readMember]
  split
  · rename_i h
    obtain ⟨rfl, hs⟩ := h
    rw [field?_eq hs]
    exact hvalue
  · rename_i h
    obtain ⟨cause, hfault⟩ := exists_field?_fault h
    rw [hfault]
    exact (rejects_refuse cause depth _).bind

/-- A second member is one too many. -/
theorem foldlM_member? (inside : Blanks) (ps : List PropertyForm) :
    (ps.foldlM (nextMember? member?) ⟨{}, []⟩).map Record.Draft.value = ofForm? (.object inside ps) := by
  have hfirst (p : PropertyForm) : nextMember? member? ⟨{}, []⟩ p =
      (ofForm? (.object inside [p])).map fun s => ⟨s, [jsonOutputKey]⟩ := by
    rw [nextMember?, ofForm?]
    cases p.key? with
    | none => rfl
    | some key =>
      by_cases hk : key = jsonOutputKey
      · subst hk
        simp [member?]
        rfl
      · simp [member?, hk]
  have hsecond (s : Settings) (p : PropertyForm) :
      nextMember? member? ⟨s, [jsonOutputKey]⟩ p = none := by
    rw [nextMember?]
    cases p.key? with
    | none => rfl
    | some key => by_cases hk : key = jsonOutputKey <;> simp [member?, hk]
  rcases ps with _ | ⟨p, _ | ⟨q, ps⟩⟩
  · rfl
  · rw [List.foldlM_cons, hfirst]
    cases ofForm? (.object inside [p]) <;> rfl
  · rw [List.foldlM_cons, hfirst]
    cases ofForm? (.object inside [p]) with
    | none => rfl
    | some s =>
      change ((q :: ps).foldlM (nextMember? member?) ⟨s, [jsonOutputKey]⟩).map _ = none
      rw [List.foldlM_cons, hsecond]
      rfl

private theorem gives_object (inside : Blanks) (ps : List PropertyForm) (rest : List Char) (depth : Nat) :
    (enclosed closeObject record.readMembers).Gives (depth + 1)
      ((Form.object inside ps).chars ++ rest) (ofForm? (.object inside ps)) rest := by
  have hmembers := gives_foldMembers (g := member?)
    (fun p (_ : p ∈ ps) d key _ hr => gives_readMember p d key hr depth) ⟨{}, []⟩ inside rest
  have hread : record.readMembers.Gives depth (inside.chars ++ membersChars true ps ++ '\x7d' :: rest)
      (ofForm? (.object inside ps)) ('\x7d' :: rest) := by
    rw [← foldlM_member?]
    exact hmembers.map Record.Draft.value
  have hobject := gives_enclosed '\x7b' hread (closeObject_bracket rest)
  rw [Form.chars]
  simp only [List.append_assoc, List.cons_append, List.nil_append] at hobject ⊢
  exact hobject

private theorem gives_settings (f : Form) (rest : List Char) (depth : Nat) :
    Settings.decoder.read.Gives (depth + 1) (f.chars ++ rest) (ofForm? f) rest := by
  cases f with
  | scalar s =>
    obtain ⟨c, cs, hcs, hc⟩ := exists_scalarChars_eq_cons s
    have hblank := (Bool.or_eq_false_iff.mp hc).1
    rw [Form.chars, hcs]
    refine (yields_peekValue (List.forall_mem_nil _) hblank (depth + 1) (cs ++ rest)).bind_rejects ?_
    split
    · cases hc
    · cases hc
    · cases hc
    · cases hc
    · exact Rejects.placed (rejects_bind fun _ _ => rejects_refuse _ _ _)
  | array inside es =>
    have hlist := gives_array inside es rest depth
    rw [Form.chars] at hlist ⊢
    exact (yields_peekValue (List.forall_mem_nil _) rfl (depth + 1) _).bind_gives hlist
  | object inside ps =>
    have hobject := gives_object inside ps rest depth
    rw [Form.chars] at hobject ⊢
    exact (yields_peekValue (List.forall_mem_nil _) rfl (depth + 1) _).bind_gives hobject

/-- Read as settings, a text holds those of its form. -/
theorem toOption_decode (e : ElementForm) : (Settings.decoder.decode e.text).toOption = ofForm? e.form :=
  Decoder.toOption_decode (skipsBlanks_peekValue.bind _) fun rest _ => gives_settings e.form rest 126

theorem toOption_ofValue_bool {f : Form} {depth : Nat} {v : Value} (h : f.value? depth = some v) :
    (Decoder.bool.ofValue v.canonical).toOption = f.bool? := by
  cases f with
  | scalar s =>
    rw [Form.value?] at h
    obtain ⟨t, ht, rfl⟩ := Option.map_eq_some_iff.mp h
    rw [← Decoder.bind_ofValue_bool, ht, Value.canonical]
    rfl
  | array inside es =>
    cases depth with
    | zero => cases h
    | succ depth =>
      rw [Form.value?] at h
      obtain ⟨vs, -, rfl⟩ := Option.map_eq_some_iff.mp h
      rw [Value.canonical]
      rfl
  | object inside ps =>
    cases depth with
    | zero => cases h
    | succ depth =>
      rw [Form.value?] at h
      obtain ⟨ms, -, rfl⟩ := Option.map_eq_some_iff.mp h
      rw [Value.canonical]
      rfl

theorem value?_of_bool? {f : Form} {b : Bool} (h : f.bool? = some b) (depth : Nat) :
    f.value? depth = some (.bool b) := by
  match f with
  | .scalar (.bool b') =>
    cases h
    rw [Form.value?]
    rfl

/-- The settings that an object of the members stands for. -/
def ofMembers? : List Member → Option Settings
  | [] => some {}
  | [m] =>
    if m.key = jsonOutputKey then (Decoder.bool.ofValue m.value).toOption.map Settings.mk else none
  | _ :: _ :: _ => none

private theorem toOption_ofMembers_cons (m : Member) (ms : List Member) (d : Record.Draft Settings) :
    (record.ofMembers (m :: ms) d).toOption =
      if m.key = jsonOutputKey ∧ d.seen.contains m.key = false then
        (Decoder.bool.ofValue m.value).toOption.bind fun b =>
          (record.ofMembers ms ⟨⟨b⟩, m.key :: d.seen⟩).toOption
      else none := by
  obtain ⟨key, v⟩ := m
  rw [Record.ofMembers, Member.key_mk, Member.value]
  split
  · rename_i h
    obtain ⟨rfl, hs⟩ := h
    rw [field?_eq hs]
    change ((Decoder.bool.ofValue v).map (fun b s => { s with jsonOutput := b }) >>= fun change =>
      record.ofMembers ms (Record.set d field change)).toOption = _
    cases Decoder.bool.ofValue v <;> rfl
  · rename_i h
    obtain ⟨cause, hfault⟩ := exists_field?_fault h
    rw [hfault]
    rfl

theorem toOption_ofValue_object (ms : List Member) :
    (Settings.decoder.ofValue (.object ms)).toOption = ofMembers? ms := by
  change (record.ofMembers ms ⟨{}, []⟩).toOption = _
  match ms with
  | [] => rfl
  | [m] =>
    rw [toOption_ofMembers_cons, ofMembers?]
    by_cases hk : m.key = jsonOutputKey
    · rw [if_pos ⟨hk, rfl⟩, if_pos hk]
      cases Decoder.bool.ofValue m.value <;> rfl
    · rw [if_neg fun h => hk h.1, if_neg hk]
  | m :: n :: ms =>
    rw [toOption_ofMembers_cons, ofMembers?]
    split
    · rename_i h
      rw [h.1]
      have hnone (b : Bool) : (record.ofMembers (n :: ms) ⟨⟨b⟩, [jsonOutputKey]⟩).toOption = none := by
        rw [toOption_ofMembers_cons, if_neg]
        rintro ⟨hk, hs⟩
        rw [hk] at hs
        cases hs
      cases (Decoder.bool.ofValue m.value).toOption with
      | none => rfl
      | some b => exact hnone b
    · rfl

/-- The settings that a list of the values stands for. -/
def ofItems? : List Value → Option Settings
  | [] => some {}
  | [v] => (Decoder.bool.ofValue v).toOption.map Settings.mk
  | _ :: _ :: _ => none

theorem toOption_ofValue_array (vs : List Value) :
    (Settings.decoder.ofValue (.array vs)).toOption = ofItems? vs := by
  change (record.ofItems [field] vs 0 {}).toOption = _
  match vs with
  | [] => rfl
  | v :: vs =>
    change ((Decoder.bool.ofValue v).map (fun b (s : Settings) => { s with jsonOutput := b }) >>=
      fun change => record.ofItems [] vs 1 (change {})).toOption = _
    cases vs with
    | nil =>
      rw [ofItems?]
      cases Decoder.bool.ofValue v <;> rfl
    | cons w vs => cases Decoder.bool.ofValue v <;> rfl

end Settings

end SideEffectLint
