import SideEffectLint.Proofs.Json.Agreement

/-! What decoders make of printed values. A value that stands for something is read back as that from its
text, unless it opens too many brackets. -/

namespace SideEffectLint.Json

namespace Decoder

variable {α β : Type} {depth : Nat} {v : Value} {a : α}

/-- The value stands for `a`, and it is read back as it is where so many brackets may be opened. -/
structure Decodes (d : Decoder α) (depth : Nat) (v : Value) (a : α) : Prop where
  fits : v.Fits depth
  ofValue : d.ofValue v = .ok a

theorem Decodes.map {d : Decoder α} (h : d.Decodes depth v a) (f : α → β) :
    (d.map f).Decodes depth v (f a) :=
  ⟨h.fits, congrArg (Except.map f) h.ofValue⟩

theorem decodes_string (text : String) : string.Decodes depth (.string text) text :=
  ⟨Value.fits_string text depth, rfl⟩

theorem decodes_word32 {n : Nat} (h : n < UInt32.size) : word32.Decodes depth (.natural n) n :=
  ⟨Value.fits_natural.mpr (Nat.lt_trans h (by decide)), if_pos ⟨Int.natCast_nonneg n, h⟩⟩

theorem Decodes.optional {d : Decoder α} (h : d.Decodes depth v a) (hn : v ≠ .scalar .null) :
    d.optional.Decodes depth v (some a) where
  fits := h.fits
  ofValue := by
    simp only [Decoder.optional]
    rw [h.ofValue]
    rfl

theorem decodes_list {d : Decoder α} {vs : List Value} {as : List α}
    (h : List.Forall₂ (d.Decodes depth) vs as) : d.list.Decodes (depth + 1) (.array vs) as where
  fits := by
    rw [Value.Fits]
    induction h with
    | nil => trivial
    | cons hv _ ih => exact ⟨hv.fits, ih⟩
  ofValue := by
    change vs.mapM d.ofValue = .ok as
    induction h with
    | nil => rfl
    | cons hv _ ih =>
      rw [List.mapM_cons, hv.ofValue, ih]
      rfl

theorem decodes_choice {choices : List (String × α)} {name : String}
    (h : lookUp choices name = .ok a) : (choice choices).Decodes depth (.string name) a :=
  ⟨Value.fits_string name depth, h⟩

end Decoder

namespace Record

open Reader (Leads)

variable {α : Type} {depth : Nat} {r : Record α}

/-- The member sets the field of its key. -/
def Sets (r : Record α) (depth : Nat) (d : Draft α) (m : Member) (d' : Draft α) : Prop :=
  r.Puts d m d' ∧ m.value.Fits depth

theorem sets_field {β : Type} {d : Draft α} {key : String} {isRequired : Bool} {decoder : Decoder β}
    {set : β → α → α} {v : Value} {b : β}
    (hf : r.fields.find? (·.name = key) = some ⟨key, isRequired, decoder.map set⟩)
    (hs : d.seen.contains key = false) (h : decoder.Decodes depth v b) :
    r.Sets depth d (.mk key v) ⟨set b d.value, key :: d.seen⟩ :=
  ⟨.field hf hs (h.map set).ofValue, h.fits⟩

private theorem membersFit_of_sets {d d' : Draft α} {ms : List Member}
    (h : Leads (r.Sets depth) d ms d') : Value.membersFit ms depth := by
  induction h with
  | nil => trivial
  | @cons _ _ _ m _ hm _ ih =>
    cases m
    exact ⟨hm.2, ih⟩

/-- An object whose members set all required fields stands for what they make of the blank record. -/
theorem decodes {d : Draft α} {ms : List Member} {a : α}
    (h : Leads (r.Sets depth) ⟨r.blank, []⟩ ms d) (hf : r.finish d = .ok a) :
    r.decoder.Decodes (depth + 1) (.object ms) a where
  fits := by
    rw [Value.Fits]
    exact membersFit_of_sets h
  ofValue := ofMembers_eq_ok_iff.mpr ⟨d, h.imp fun _ _ _ hm => hm.1, hf⟩

end Record

namespace Tagged

variable {α : Type} {depth : Nat} {t : Tagged α} {name : String} {d : Decoder α}
  {ms : List Member}

/-- An object whose first member names a variant, and no other does, stands for what the variant makes
of the others. -/
theorem decodes (hn : Decoder.lookUp t.variants name = .ok d) (hms : ∀ m ∈ ms, m.key ≠ t.tag) {a : α}
    (h : d.Decodes (depth + 1) (.object ms) a) :
    t.decoder.Decodes (depth + 1) (.object (.mk t.tag (.string name) :: ms)) a where
  fits := by
    have hf := h.fits
    rw [Value.Fits] at hf ⊢
    exact ⟨trivial, hf⟩
  ofValue := by
    have hothers : ms.filter (·.key ≠ t.tag) = ms := List.filter_eq_self.mpr (by simpa using hms)
    have htag : ms.filter (·.key = t.tag) = [] := List.filter_eq_nil_iff.mpr (by simpa using hms)
    refine ofValue_eq_ok_iff.mpr ⟨.string name, d, ?_, hn, ?_⟩
    · simp [htag]
    · have hv := h.ofValue
      rw [← hothers] at hv
      simpa using hv

end Tagged

namespace Decoder

open Reader

variable {α : Type} {v : Value} {a : α}

/-- A value is read back from its text as it is. -/
theorem decode_anything_render (h : v.Fits maxDepth) : anything.decode v.render = .ok v := by
  have hread : anything.readText.Yields maxDepth (v.chars 0) v [] := by
    have hv := takes_value h 0 [] [] nofun nofun
    rw [List.append_nil] at hv
    exact hv.placed.bind ((yields_peek_end maxDepth).bind (yields_pure v maxDepth []))
  obtain ⟨offset, hread⟩ := hread 0
  refine decode_eq_ok_iff.mpr ⟨⟨[], offset⟩, ?_⟩
  rw [Value.render, String.toList_ofList]
  exact hread

/-- What a printed value stands for is read from its text. -/
theorem Decodes.decode_render {d : Decoder α} (h : d.Decodes maxDepth v a) (hd : d.Agrees) :
    d.decode v.render = .ok a :=
  hd.decode (decode_anything_render h.fits) h.ofValue

end Decoder

end SideEffectLint.Json
