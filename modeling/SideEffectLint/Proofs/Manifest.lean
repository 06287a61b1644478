import Mathlib
import SideEffectLint.Proofs.Precedence
import SideEffectLint.Proofs.SettingsForms

/-! Settings in a file of their own and the same text as a member of a manifest. Both hold the same
settings, unless the member for the output is repeated: the file is refused then, and in the manifest the
last member counts if the manifest can be read at all. -/

namespace SideEffectLint

open Json Json.Reader

namespace Json

/-- The form is an object that has the key more than once. -/
def Form.Repeats (key : String) : Form → Prop
  | .object _ ps => 1 < ps.countP fun p => p.key? = some key
  | _ => False

/-- Leaves out the members with the key that one with that key comes after. -/
def lastOnly (key : String) : List PropertyForm → List PropertyForm
  | [] => []
  | p :: ps =>
    if p.key? = some key ∧ ps.any fun q => q.key? = some key then lastOnly key ps
    else p :: lastOnly key ps

def ElementForm.lastOnly (key : String) : ElementForm → ElementForm
  | .mk before (.object inside ps) after => .mk before (.object inside (Json.lastOnly key ps)) after
  | e => e

end Json

namespace Settings

variable {depth : Nat}

private theorem key?_of_memberOf? {f : ElementForm → Option Value} {p : PropertyForm} {m : Member}
    (h : memberOf? f p = some m) : p.key? = some m.key := by
  obtain ⟨key, hkey, h⟩ := Option.bind_eq_some_iff.mp h
  obtain ⟨v, -, rfl⟩ := Option.map_eq_some_iff.mp h
  exact hkey

private theorem exists_mem_of_key {f : ElementForm → Option Value} {ps : List PropertyForm}
    {ms : List Member} (h : ps.mapM (memberOf? f) = some ms) {p : PropertyForm} (hp : p ∈ ps) :
    ∃ m ∈ ms, p.key? = some m.key := by
  induction ps generalizing ms with
  | nil => cases hp
  | cons q ps ih =>
    rw [List.mapM_cons] at h
    obtain ⟨m, hm, h⟩ := Option.bind_eq_some_iff.mp h
    obtain ⟨ms', hms', h⟩ := Option.bind_eq_some_iff.mp h
    obtain rfl := Option.some.inj h
    rcases List.mem_cons.mp hp with rfl | hp
    · exact ⟨m, List.mem_cons_self, key?_of_memberOf? hm⟩
    · obtain ⟨n, hn, hkey⟩ := ih hms' hp
      exact ⟨n, List.mem_cons_of_mem m hn, hkey⟩

private theorem bool?_of_value?_eq_none {f : Form} (h : f.value? depth = none) : f.bool? = none := by
  cases hb : f.bool? with
  | none => rfl
  | some b =>
    rw [value?_of_bool? hb] at h
    cases h

/-- A member of another name is left in its place. -/
theorem ofMembers?_eq_none {ms : List Member} (h : ∃ m ∈ ms, m.key ≠ jsonOutputKey) :
    ofMembers? (Value.canonicalMembers ms []) = none := by
  obtain ⟨m, hm, hk⟩ := h
  have hfound : ((Value.canonicalMembers ms []).find? (·.key = m.key)).isSome := by
    have hlast : (ms.reverse.find? (·.key = m.key)).isSome :=
      List.find?_isSome.mpr ⟨m, List.mem_reverse.mpr hm, decide_eq_true rfl⟩
    rw [Value.find?_canonicalMembers, List.find?_nil, Option.or_none, Option.isSome_map]
    exact hlast
  obtain ⟨n, hn, hkey⟩ := List.find?_isSome.mp hfound
  match hms : Value.canonicalMembers ms [] with
  | [] =>
    rw [hms] at hn
    cases hn
  | [n'] =>
    rw [hms] at hn
    obtain rfl := List.mem_singleton.mp hn
    rw [ofMembers?, if_neg]
    rw [of_decide_eq_true hkey]
    exact hk
  | _ :: _ :: _ => rfl

private theorem bind_ofValue_array (inside : Blanks) (es : List ElementForm) (depth : Nat) :
    ((Form.array inside es).value? (depth + 1)).bind
      (fun v => (Settings.decoder.ofValue v.canonical).toOption) = ofForm? (.array inside es) := by
  have hlist (vs : List Value) : (Settings.decoder.ofValue (Value.array vs).canonical).toOption =
      ofItems? (Value.canonicalItems vs) := by
    rw [Value.canonical, toOption_ofValue_array]
  rw [Form.value?, itemsValue?_eq, Option.bind_map]
  simp only [Function.comp_def, hlist]
  rcases es with _ | ⟨e, _ | ⟨e', es⟩⟩
  · rw [List.mapM_nil, Option.pure_def, Option.bind_some, Value.canonicalItems]
    rfl
  · rw [List.mapM_cons, List.mapM_nil, ofForm?]
    cases hv : e.form.value? depth with
    | none =>
      rw [bool?_of_value?_eq_none hv]
      rfl
    | some v =>
      rw [← toOption_ofValue_bool hv]
      change ofItems? (Value.canonicalItems [v]) = _
      rw [Value.canonicalItems, Value.canonicalItems]
      rfl
  · rw [List.mapM_cons, List.mapM_cons, ofForm?]
    cases e.form.value? depth with
    | none => rfl
    | some v =>
      cases e'.form.value? depth with
      | none => rfl
      | some w =>
        cases es.mapM fun e => e.form.value? depth with
        | none => rfl
        | some vs =>
          change ofItems? (Value.canonicalItems (v :: w :: vs)) = _
          rw [Value.canonicalItems, Value.canonicalItems]
          rfl

private theorem repeats_of_forall_key {key : String} {p q : PropertyForm} {ps : List PropertyForm}
    (inside : Blanks) (h : ∀ r ∈ p :: q :: ps, r.key? = some key) :
    (Form.object inside (p :: q :: ps)).Repeats key := by
  have hall : (p :: q :: ps).countP (fun r => r.key? = some key) = (p :: q :: ps).length :=
    List.countP_eq_length.mpr fun r hr => decide_eq_true (h r hr)
  rw [Form.Repeats, hall]
  exact Nat.succ_lt_succ (Nat.succ_pos ps.length)

private theorem bind_ofValue_object {inside : Blanks} {ps : List PropertyForm}
    (h : ¬ (Form.object inside ps).Repeats jsonOutputKey) (depth : Nat) :
    ((Form.object inside ps).value? (depth + 1)).bind
      (fun v => (Settings.decoder.ofValue v.canonical).toOption) = ofForm? (.object inside ps) := by
  have hobject (ms : List Member) : (Settings.decoder.ofValue (Value.object ms).canonical).toOption =
      ofMembers? (Value.canonicalMembers ms []) := by
    rw [Value.canonical, toOption_ofValue_object]
  rw [Form.value?, membersValue?_eq, Option.bind_map]
  simp only [Function.comp_def, hobject]
  rcases ps with _ | ⟨p, _ | ⟨q, ps⟩⟩
  · rw [List.mapM_nil, Option.pure_def, Option.bind_some, Value.canonicalMembers]
    rfl
  · rw [List.mapM_cons, List.mapM_nil, ofForm?, memberOf?]
    cases p.key? with
    | none => rfl
    | some key =>
      cases hv : p.value.form.value? depth with
      | none =>
        rw [bool?_of_value?_eq_none hv]
        exact (ite_self none).symm
      | some v =>
        rw [← toOption_ofValue_bool hv]
        change ofMembers? [.mk key v.canonical] = _
        exact if_congr Option.some_inj.symm rfl rfl
  · rw [ofForm?]
    cases hms : (p :: q :: ps).mapM (memberOf? fun e => e.form.value? depth) with
    | none => rfl
    | some ms =>
      obtain ⟨r, hr, hk⟩ : ∃ r ∈ p :: q :: ps, r.key? ≠ some jsonOutputKey := by
        by_contra hall
        simp only [not_exists, not_and, not_not] at hall
        exact h (repeats_of_forall_key inside hall)
      obtain ⟨m, hm, hkey⟩ := exists_mem_of_key hms hr
      exact ofMembers?_eq_none ⟨m, hm, fun he => hk (hkey.trans (congrArg some he))⟩

private theorem not_repeats_singleton (inside : Blanks) (p : PropertyForm) (key : String) :
    ¬ (Form.object inside [p]).Repeats key :=
  Nat.not_lt.mpr List.countP_le_length

private theorem ofForm?_of_repeats {f : Form} (h : f.Repeats jsonOutputKey) : ofForm? f = none := by
  match f, h with
  | .object _ (_ :: _ :: _), _ => rfl
  | .object inside [p], h => exact absurd h (not_repeats_singleton inside p _)

private theorem isSome_bool?_iff (f : Form) : f.bool?.isSome ↔ ∃ b, f = .scalar (.bool b) := by
  constructor
  · intro h
    match f, h with
    | .scalar (.bool b), _ => exact ⟨b, rfl⟩
  · rintro ⟨b, rfl⟩
    rfl

/-- Which objects hold settings. -/
theorem isSome_ofForm?_object (inside : Blanks) (ps : List PropertyForm) :
    (ofForm? (.object inside ps)).isSome ↔ (∀ p ∈ ps, p.key? = some jsonOutputKey) ∧
      ¬ (Form.object inside ps).Repeats jsonOutputKey ∧
        ∀ p ∈ ps, ∃ b, p.value.form = .scalar (.bool b) := by
  match ps with
  | [] => simp [ofForm?, Form.Repeats]
  | [p] =>
    rw [ofForm?, and_iff_right (not_repeats_singleton inside p _), List.forall_mem_singleton,
      List.forall_mem_singleton, ← isSome_bool?_iff]
    split
    · rw [Option.isSome_map, and_iff_right ‹_›]
    · exact iff_of_false Bool.false_ne_true fun h => absurd h.1 ‹_›
  | p :: q :: ps =>
    refine iff_of_false Bool.false_ne_true ?_
    rintro ⟨hkeys, hn, -⟩
    exact hn (repeats_of_forall_key inside hkeys)

/-- Read as a value first, a text that repeats nothing holds the settings of its form. -/
theorem bind_ofValue {f : Form} (h : ¬ f.Repeats jsonOutputKey) (depth : Nat) :
    (f.value? (depth + 1)).bind (fun v => (Settings.decoder.ofValue v.canonical).toOption) =
      ofForm? f := by
  cases f with
  | array inside es => exact bind_ofValue_array inside es depth
  | object inside ps => exact bind_ofValue_object h depth
  | scalar s =>
    rw [Form.value?, ofForm?]
    cases s.scalar? with
    | none => rfl
    | some t =>
      rw [Option.map_some, Option.bind_some, Value.canonical]
      rfl

end Settings

namespace Json

private theorem exists_canonical_lastOnly {f : ElementForm → Option Value} (key : String)
    {ps : List PropertyForm} {ms : List Member} (h : ps.mapM (memberOf? f) = some ms) :
    ∃ ms', (lastOnly key ps).mapM (memberOf? f) = some ms' ∧
      ∀ acc, Value.canonicalMembers ms' acc = Value.canonicalMembers ms acc := by
  induction ps generalizing ms with
  | nil => exact ⟨ms, h, fun _ => rfl⟩
  | cons p ps ih =>
    rw [List.mapM_cons] at h
    obtain ⟨m, hm, h⟩ := Option.bind_eq_some_iff.mp h
    obtain ⟨rest, hrest, h⟩ := Option.bind_eq_some_iff.mp h
    obtain rfl := Option.some.inj h
    obtain ⟨ms', hms', hcanonical⟩ := ih hrest
    obtain ⟨k, v⟩ := m
    rw [lastOnly]
    split
    · rename_i hlast
      -- What is left out is put in and overwritten, by a member among those that follow.
      refine ⟨ms', hms', fun acc => ?_⟩
      obtain ⟨hp, q, hq, hkey⟩ : p.key? = some key ∧ ∃ q ∈ ps, q.key? = some key := by simpa using hlast
      obtain ⟨n, hn, hqn⟩ := Settings.exists_mem_of_key hrest hq
      have hkeys : some n.key = some (Member.mk k v.canonical).key := by
        rw [← hqn, hkey, ← hp, Settings.key?_of_memberOf? hm, Member.key_mk, Member.key_mk]
      rw [hcanonical, Value.canonicalMembers,
        Value.canonicalMembers_insertMember ⟨n, hn, Option.some.inj hkeys⟩]
    · refine ⟨.mk k v :: ms', ?_, fun acc => ?_⟩
      · rw [List.mapM_cons, hm, hms']
        rfl
      · rw [Value.canonicalMembers, Value.canonicalMembers, hcanonical]

private theorem exists_value?_lastOnly {e : ElementForm} {depth : Nat} {v : Value} (key : String)
    (h : e.form.value? depth = some v) :
    ∃ v', (e.lastOnly key).form.value? depth = some v' ∧ v'.canonical = v.canonical := by
  obtain ⟨before, form, after⟩ := e
  cases form with
  | scalar s => exact ⟨v, h, rfl⟩
  | array inside es => exact ⟨v, h, rfl⟩
  | object inside ps =>
    cases depth with
    | zero => cases h
    | succ depth =>
      change (Form.object inside ps).value? (depth + 1) = some v at h
      rw [Form.value?, membersValue?_eq] at h
      obtain ⟨ms, hms, rfl⟩ := Option.map_eq_some_iff.mp h
      obtain ⟨ms', hms', hcanonical⟩ := exists_canonical_lastOnly key hms
      refine ⟨.object ms', ?_, ?_⟩
      · change (Form.object inside (lastOnly key ps)).value? (depth + 1) = _
        rw [Form.value?, membersValue?_eq, hms']
        rfl
      · rw [Value.canonical, Value.canonical, hcanonical]

end Json

/-- What stands around settings in a manifest that they are the only member of. -/
structure ManifestForm where
  before : Blanks
  inside : Blanks
  lead : Blanks
  key : List StringPart
  between : Blanks
  after : Blanks
  text?_key : StringPart.text? key = some Settings.manifestKey

namespace ManifestForm

def holding (m : ManifestForm) (e : ElementForm) : ElementForm :=
  .mk m.before (.object m.inside [.mk m.lead m.key m.between e]) m.after

private theorem value?_holding (m : ManifestForm) (e : ElementForm) (depth : Nat) :
    (m.holding e).form.value? (depth + 1) =
      (e.form.value? depth).map fun v => .object [.mk Settings.manifestKey v] := by
  change (Form.object m.inside [.mk m.lead m.key m.between e]).value? (depth + 1) = _
  have hkey : PropertyForm.key? (.mk m.lead m.key m.between e) = some Settings.manifestKey := m.text?_key
  rw [Form.value?, membersValue?_eq, List.mapM_cons, List.mapM_nil, memberOf?, hkey]
  change ((Option.map _ (e.form.value? depth)).bind _).map _ = _
  cases e.form.value? depth <;> rfl

end ManifestForm

namespace FileSystem

variable {fs fs' : FileSystem} {path manifest : SystemText} {m : ManifestForm} {e e' : ElementForm} {v : Value}

private theorem toOption_loadSettings (h : fs.readText path = .ok e.text) :
    (fs.loadSettings path).toOption = Settings.ofForm? e.form := by
  rw [loadSettings_of_readText h, ← Settings.toOption_decode]
  cases Settings.decoder.decode e.text <;> rfl

private theorem toOption_decode_holding (m : ManifestForm) (e : ElementForm) :
    (Decoder.anything.decode (m.holding e).text).toOption =
      (e.form.value? 126).map fun v => .object [.mk Settings.manifestKey v] :=
  (Decoder.toOption_decode_anything _).trans (m.value?_holding e 126)

private theorem decode_holding (m : ManifestForm) (hv : e.form.value? 126 = some v) :
    Decoder.anything.decode (m.holding e).text = .ok (.object [.mk Settings.manifestKey v]) := by
  have hdecode := toOption_decode_holding m e
  rw [hv] at hdecode
  cases hd : Decoder.anything.decode (m.holding e).text with
  | error fault =>
    rw [hd] at hdecode
    cases hdecode
  | ok w =>
    rw [hd] at hdecode
    exact congrArg Except.ok (Option.some.inj hdecode)

/-- A manifest that can be read holds what the value of its member stands for. -/
theorem loadManifest_of_value? (h : fs.readText manifest = .ok (m.holding e).text)
    (hv : e.form.value? 126 = some v) : fs.loadManifest manifest =
      ((Settings.decoder.ofValue v.canonical).mapError (.manifestMismatch manifest)).map some := by
  rw [loadManifest_of_decode h (decode_holding m hv), Value.member?_canonical]
  rfl

private theorem toOption_loadManifest_of_unread {text : String} (h : fs.readText manifest = .ok text)
    (hn : ∀ v, Decoder.anything.decode text ≠ .ok v) : (fs.loadManifest manifest).toOption = none := by
  cases hd : Decoder.anything.decode text with
  | ok v => exact absurd hd (hn v)
  | error fault =>
    rw [loadManifest_of_malformed h hd]
    rfl

private theorem loadManifest_of_value?_eq_none (h : fs.readText manifest = .ok (m.holding e).text)
    (hv : e.form.value? 126 = none) : (fs.loadManifest manifest).toOption = none := by
  refine toOption_loadManifest_of_unread h fun w hw => ?_
  have hdecode := toOption_decode_holding m e
  rw [hv, hw] at hdecode
  cases hdecode

private theorem toOption_loadManifest (h : fs.readText manifest = .ok (m.holding e).text) :
    (fs.loadManifest manifest).toOption =
      ((e.form.value? 126).bind fun v => (Settings.decoder.ofValue v.canonical).toOption).map some := by
  cases hv : e.form.value? 126 with
  | none => exact loadManifest_of_value?_eq_none h hv
  | some v =>
    rw [loadManifest_of_value? h hv, Option.bind_some]
    cases Settings.decoder.ofValue v.canonical <;> rfl

/-- A text that does not repeat the member for the output is refused in both places or holds the same
settings in both. One that does is no file of settings, and in a manifest that can be read it stands for
what is left of it without the members that a later one replaces. An object is a file of settings iff it
has at most that one member, once, with a truth value. -/
theorem loadManifest_holding {fs : FileSystem} {path manifest : SystemText} (e : ElementForm) (m : ManifestForm)
    (hs : fs.readText path = .ok e.text) (hm : fs.readText manifest = .ok (m.holding e).text) :
    (¬ e.form.Repeats Settings.jsonOutputKey →
      (fs.loadManifest manifest).toOption = (fs.loadSettings path).toOption.map some) ∧
    (e.form.Repeats Settings.jsonOutputKey → (fs.loadSettings path).toOption = none ∧
      ((∀ v, Decoder.anything.decode (m.holding e).text ≠ .ok v) →
        (fs.loadManifest manifest).toOption = none) ∧
      ∀ v, Decoder.anything.decode (m.holding e).text = .ok v → ∀ fs' : FileSystem,
        fs'.readText manifest = .ok (m.holding (e.lastOnly Settings.jsonOutputKey)).text →
        fs.loadManifest manifest = fs'.loadManifest manifest) ∧
    ∀ inside ps, e.form = .object inside ps →
      ((fs.loadSettings path).toOption.isSome ↔
        (∀ p ∈ ps, p.key? = some Settings.jsonOutputKey) ∧
          ¬ e.form.Repeats Settings.jsonOutputKey ∧ ∀ p ∈ ps, ∃ b, p.value.form = .scalar (.bool b)) := by
  refine ⟨fun hn => ?_, fun hr => ⟨?_, fun hunread => ?_, fun v hv fs' hm' => ?_⟩,
    fun inside ps hf => ?_⟩
  · rw [toOption_loadManifest hm, toOption_loadSettings hs, Settings.bind_ofValue hn]
  · rw [toOption_loadSettings hs, Settings.ofForm?_of_repeats hr]
  · exact toOption_loadManifest_of_unread hm hunread
  · have hdecode := toOption_decode_holding m e
    rw [hv] at hdecode
    obtain ⟨u, hu, -⟩ := Option.map_eq_some_iff.mp hdecode.symm
    obtain ⟨u', hu', hcanonical⟩ := exists_value?_lastOnly Settings.jsonOutputKey hu
    rw [loadManifest_of_value? hm hu, loadManifest_of_value? hm' hu', hcanonical]
  · rw [toOption_loadSettings hs, hf]
    exact Settings.isSome_ofForm?_object inside ps

private def noBlanks : Blanks :=
  ⟨[], nofun⟩

private def plain (cs : List Char) (h : ∀ c ∈ cs, c ≠ '"' ∧ c ≠ '\\' ∧ ¬ c < ' ') : List StringPart :=
  cs.pmap (fun c hc => .plain c hc.1 hc.2.1 hc.2.2) h

private theorem text?_plain (cs : List Char) (h : ∀ c ∈ cs, c ≠ '"' ∧ c ≠ '\\' ∧ ¬ c < ' ') :
    StringPart.text? (plain cs h) = some (String.ofList cs) := by
  have hchars : StringPart.charsAfter? none (plain cs h) = some cs := by
    induction cs with
    | nil => rfl
    | cons c cs ih =>
      rw [plain, List.pmap, StringPart.charsAfter?]
      change (StringPart.charsAfter? none (plain cs _)).map _ = _
      rw [ih]
      rfl
  rw [StringPart.text?, hchars]
  rfl

private def outputKey : List StringPart :=
  plain ['j', 's', 'o', 'n', 'O', 'u', 't', 'p', 'u', 't'] (by simp)

/-- A member for the output. -/
private def output (f : Form) : PropertyForm :=
  .mk noBlanks outputKey noBlanks (.mk noBlanks f noBlanks)

private theorem key?_output (f : Form) : (output f).key? = some Settings.jsonOutputKey :=
  text?_plain _ _

private def outputs (fs : List Form) : ElementForm :=
  .mk noBlanks (.object noBlanks (fs.map output)) noBlanks

private def plainManifest : ManifestForm where
  before := noBlanks
  inside := noBlanks
  lead := noBlanks
  key := plain ['s', 'e', 'm', 'a'] (by simp)
  between := noBlanks
  after := noBlanks
  text?_key := text?_plain _ _

/-- A file of settings beside a manifest. -/
private def files (settings manifest : String) : FileSystem :=
  .of ⟨.of [.mk ⟨"s", rfl⟩ (.file (.ok settings.toUTF8)),
    .mk ⟨"m", rfl⟩ (.file (.ok manifest.toUTF8))], rfl⟩ (.ok [])

private theorem readText_files (settings manifest : String) :
    (files settings manifest).readText "s" = .ok settings ∧
      (files settings manifest).readText "m" = .ok manifest := by
  have hutf8 (text : String) : String.fromUTF8? text.toUTF8 = some text := by
    unfold String.fromUTF8?
    exact dif_pos text.isValidUTF8
  have hs : (files settings manifest).entry "s" = .ok (.file (.ok settings.toUTF8)) := by cbv
  have hm : (files settings manifest).entry "m" = .ok (.file (.ok manifest.toUTF8)) := by cbv
  constructor
  · rw [readText, hs]
    simp only [bind, Except.bind, hutf8]
  · rw [readText, hm]
    simp only [bind, Except.bind, hutf8]

private theorem repeats_outputs (f g : Form) :
    (outputs [f, g]).form.Repeats Settings.jsonOutputKey := by
  change 1 < [output f, output g].countP fun p => p.key? = some Settings.jsonOutputKey
  simp [key?_output]

private theorem lastOnly_outputs (f g : Form) :
    (outputs [f, g]).lastOnly Settings.jsonOutputKey = outputs [g] := by
  simp [outputs, ElementForm.lastOnly, lastOnly, key?_output]

private theorem ofForm?_outputs (b : Bool) :
    Settings.ofForm? (outputs [.scalar (.bool b)]).form = some ⟨b⟩ := by
  change Settings.ofForm? (.object noBlanks [output (.scalar (.bool b))]) = _
  rw [Settings.ofForm?, if_pos (key?_output _)]
  rfl

private theorem value?_outputs (f g : Form) (depth : Nat) :
    (outputs [f, g]).form.value? (depth + 1) = (f.value? depth).bind fun v =>
      (g.value? depth).map fun w => .object [.mk Settings.jsonOutputKey v, .mk Settings.jsonOutputKey w] := by
  have hvalue (f : Form) : (output f).value.form.value? depth = f.value? depth := rfl
  change (Form.object noBlanks [output f, output g]).value? (depth + 1) = _
  rw [Form.value?, membersValue?_eq, List.mapM_cons, List.mapM_cons, List.mapM_nil, memberOf?, memberOf?,
    key?_output, key?_output, Option.bind_some, Option.bind_some, hvalue, hvalue]
  cases f.value? depth <;> cases g.value? depth <;> rfl

private theorem readText_holding (settings manifest : ElementForm) :
    let fs := files settings.text (plainManifest.holding manifest).text
    fs.readText "s" = .ok settings.text ∧ fs.readText "m" = .ok (plainManifest.holding manifest).text :=
  readText_files _ _

private theorem toOption_loadManifest_once (settings : ElementForm) (b : Bool) :
    ((files settings.text (plainManifest.holding (outputs [.scalar (.bool b)])).text).loadManifest
      "m").toOption = some (some ⟨b⟩) := by
  have hn : ¬ (outputs [.scalar (.bool b)]).form.Repeats Settings.jsonOutputKey :=
    Settings.not_repeats_singleton _ _ _
  rw [toOption_loadManifest (readText_holding settings _).2, Settings.bind_ofValue hn, ofForm?_outputs]
  rfl

/-- The file is refused, and of the two members in the manifest the last one counts. -/
theorem loadManifest_holding_repeated :
    let e := outputs [.scalar (.bool false), .scalar (.bool true)]
    let fs := files e.text (plainManifest.holding e).text
    fs.readText "s" = .ok e.text ∧ fs.readText "m" = .ok (plainManifest.holding e).text ∧
      (fs.loadSettings "s").toOption = none ∧ (fs.loadManifest "m").toOption = some (some ⟨true⟩) := by
  intro e fs
  obtain ⟨hs, hm⟩ := readText_holding e e
  obtain ⟨-, hrepeated, -⟩ := loadManifest_holding e plainManifest hs hm
  obtain ⟨hfails, -, hlast⟩ := hrepeated (repeats_outputs _ _)
  obtain ⟨v, hv⟩ : ∃ v, e.form.value? (125 + 1) = some v := by
    rw [value?_outputs, Settings.value?_of_bool? rfl, Settings.value?_of_bool? rfl]
    exact ⟨_, rfl⟩
  have hequal := hlast _ (decode_holding plainManifest hv) _ (readText_holding e _).2
  refine ⟨hs, hm, hfails, ?_⟩
  rw [hequal, lastOnly_outputs, toOption_loadManifest_once]

/-- A list with so many lists inside of each other. -/
private def nestedList : Nat → Form
  | 0 => .array noBlanks []
  | n + 1 => .array noBlanks [.mk noBlanks (nestedList n) noBlanks]

private theorem isSome_value?_nestedList (n depth : Nat) :
    ((nestedList n).value? depth).isSome ↔ n < depth := by
  induction n generalizing depth with
  | zero =>
    cases depth with
    | zero => exact iff_of_false Bool.false_ne_true (Nat.lt_irrefl 0)
    | succ depth =>
      rw [nestedList, Form.value?, itemsValue?]
      exact iff_of_true rfl (Nat.succ_pos depth)
  | succ n ih =>
    cases depth with
    | zero => exact iff_of_false Bool.false_ne_true (Nat.not_lt_zero _)
    | succ depth =>
      rw [nestedList, Form.value?, itemsValue?, itemsValue?, ElementForm.value?, Nat.succ_lt_succ_iff, ← ih]
      cases (nestedList n).value? depth <;> rfl

theorem loadManifest_nested :
    let e := outputs [nestedList 125, .scalar (.bool true)]
    let e' := e.lastOnly Settings.jsonOutputKey
    let fs := files e.text (plainManifest.holding e).text
    let fs' := files e'.text (plainManifest.holding e').text
    (Decoder.anything.decode e.text).toOption.isSome ∧ e.form.Repeats Settings.jsonOutputKey ∧
      fs.readText "m" = .ok (plainManifest.holding e).text ∧ (fs.loadManifest "m").toOption = none ∧
      fs'.readText "m" = .ok (plainManifest.holding e').text ∧
      (fs'.loadManifest "m").toOption = some (some ⟨true⟩) := by
  intro e e' fs fs'
  obtain ⟨-, hm⟩ := readText_holding e e
  obtain ⟨-, hm'⟩ := readText_holding e' e'
  have hdeep : (nestedList 125).value? 125 = none := by
    rw [← Option.not_isSome_iff_eq_none, isSome_value?_nestedList]
    decide
  refine ⟨?_, repeats_outputs _ _, hm, ?_, hm', ?_⟩
  · have hfits : ((nestedList 125).value? 126).isSome := (isSome_value?_nestedList 125 126).mpr (by decide)
    obtain ⟨v, hv⟩ := Option.isSome_iff_exists.mp hfits
    rw [Decoder.toOption_decode_anything]
    change (e.form.value? (126 + 1)).isSome
    rw [value?_outputs, hv, Settings.value?_of_bool? rfl]
    rfl
  · refine loadManifest_of_value?_eq_none hm ?_
    rw [value?_outputs, hdeep]
    rfl
  · have hlast : e' = outputs [.scalar (.bool true)] := lastOnly_outputs _ _
    have honce := toOption_loadManifest_once e' true
    rw [← hlast] at honce
    exact honce

end FileSystem

end SideEffectLint
