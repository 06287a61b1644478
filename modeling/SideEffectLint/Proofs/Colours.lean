import Mathlib.Data.List.Chain
import SideEffectLint.Proofs.Sequences
import SideEffectLint.Report.Styled

/-! Colours add escape sequences to a report and nothing else: without them the text for a terminal
is the plain text, and one pass that takes the sequences out leaves the same of both. -/

namespace SideEffectLint

namespace Piece

open Text

/-- A piece without style ends, and one with a style is followed by, a character that is no part of
an escape sequence. -/
def Apart (p q : Piece) : Prop :=
  match p.style with
  | none => ∀ c ∈ p.text.toList.getLast?, ¬ IsInner c
  | some _ => q.style = none ∧ ∃ c ∈ q.text.toList.head?, ¬ Continues c

private theorem render_append {p : Piece} {rest : List Char} (coloured : Bool)
    (h : Text.Apart p.text.toList rest) :
    withoutSequences ((p.render coloured).toList ++ rest) =
      withoutSequences p.text.toList ++ withoutSequences rest := by
  obtain ⟨style, text⟩ := p
  cases style with
  | none => exact withoutSequences_append _ _ h
  | some style =>
    cases coloured with
    | false => exact withoutSequences_append _ _ h
    | true => exact style.withoutSequences_apply_append text rest

private theorem head?_renderAll {p : Piece} (hp : p.style = none) {c : Char}
    (hc : c ∈ p.text.toList.head?) (coloured : Bool) (ps : List Piece) :
    (renderAll coloured (p :: ps)).toList.head? = some c := by
  obtain ⟨style, text⟩ := p
  obtain rfl : style = none := hp
  rw [renderAll, List.map_cons, String.join_cons, String.toList_append, List.head?_append]
  exact Option.or_of_isSome (Option.isSome_of_mem hc) |>.trans hc

/-- One pass over pieces that are apart leaves of each what it leaves of its text. -/
theorem withoutSequences_renderAll {ps : List Piece} (h : ps.IsChain Apart) (coloured : Bool) :
    withoutSequences (renderAll coloured ps).toList =
      ps.flatMap fun p => withoutSequences p.text.toList := by
  induction ps with
  | nil => exact withoutSequences_nil
  | cons p ps ih =>
    have ha : Text.Apart p.text.toList (renderAll coloured ps).toList := by
      cases ps with
      | nil => exact Or.inr fun c hc => by cases hc
      | cons q ps =>
        have hpq := (List.isChain_cons_cons.mp h).1
        unfold Apart at hpq
        split at hpq
        · exact Or.inl hpq
        · obtain ⟨hq, c, hc, hn⟩ := hpq
          rw [Text.Apart, head?_renderAll hq hc]
          exact Or.inr fun c' hc' => Option.some.inj hc' ▸ hn
    rw [List.flatMap_cons, ← ih h.tail, ← render_append coloured ha, renderAll, List.map_cons,
      String.join_cons, String.toList_append]
    rfl

/-- Pieces that are apart from each other and from whatever follows. -/
def Ended (ps : List Piece) : Prop :=
  ps.IsChain Apart ∧ ∀ p ∈ ps.getLast?, ∀ q, p.Apart q

theorem Ended.append {ps qs : List Piece} (hp : Ended ps) (hq : Ended qs) : Ended (ps ++ qs) := by
  refine ⟨hp.1.append hq.1 fun p h q _ => hp.2 p h q, fun p h => ?_⟩
  rw [List.getLast?_append] at h
  rcases Option.or_eq_some_iff.mp h with h | ⟨-, h⟩
  · exact hq.2 p h
  · exact hp.2 p h

private theorem ended_flatMap {α : Type} {f : α → List Piece} (h : ∀ a, Ended (f a)) (as : List α) :
    Ended (as.flatMap f) := by
  induction as with
  | nil => exact ⟨.nil, fun p hp => by cases hp⟩
  | cons a as ih => exact (h a).append ih

private theorem plain_apart {text : String} {c : Char} (h : text.toList.getLast? = some c)
    (hc : ¬ IsInner c) (q : Piece) : (plain text).Apart q := by
  intro c' hc'
  obtain rfl := Option.some.inj (h.symm.trans hc')
  exact hc

private theorem styled_apart (style : Style) (text : String) {next : String} {c : Char}
    (h : next.toList.head? = some c) (hc : ¬ Continues c) : (styled style text).Apart (plain next) :=
  ⟨rfl, c, h, hc⟩

private theorem ended_of_getLast? {ps : List Piece} {text : String} {c : Char} (h : ps.IsChain Apart)
    (hl : ps.getLast? = some (plain text)) (hc : text.toList.getLast? = some c)
    (hn : ¬ IsInner c) : Ended ps := by
  refine ⟨h, fun p hp q => ?_⟩
  obtain rfl := Option.some.inj (hl.symm.trans hp)
  exact plain_apart hc hn q

private theorem getLast?_toList_append {a b : String} {c : Char} (h : b.toList.getLast? = some c) :
    (a ++ b).toList.getLast? = some c := by
  rw [String.toList_append, List.getLast?_append, h]
  rfl

@[simp]
theorem renderAll_nil (coloured : Bool) : renderAll coloured [] = "" :=
  rfl

@[simp]
theorem renderAll_plain_cons (coloured : Bool) (text : String) (ps : List Piece) :
    renderAll coloured (plain text :: ps) = text ++ renderAll coloured ps :=
  String.join_cons

@[simp]
theorem renderAll_styled_cons (style : Style) (text : String) (ps : List Piece) :
    renderAll false (styled style text :: ps) = text ++ renderAll false ps :=
  String.join_cons

private theorem renderAll_append (coloured : Bool) (ps qs : List Piece) :
    renderAll coloured (ps ++ qs) = renderAll coloured ps ++ renderAll coloured qs := by
  rw [renderAll, List.map_append, String.join_append]
  rfl

private theorem renderAll_flatMap {α : Type} {f : α → List Piece} {text : α → String} {coloured : Bool}
    (h : ∀ a, renderAll coloured (f a) = text a) (as : List α) :
    renderAll coloured (as.flatMap f) = String.join (as.map text) := by
  induction as with
  | nil => rfl
  | cons a as ih =>
    rw [List.flatMap_cons, renderAll_append, h, ih, List.map_cons, String.join_cons]

end Piece

open Piece

namespace FileReport

private theorem ended_findingPieces (f : Finding) : Ended (findingPieces f) := by
  refine ended_of_getLast? (.cons_cons ?_ (.cons_cons ?_ (.singleton _))) rfl (c := '\n') rfl
    (by decide)
  · exact plain_apart (c := ' ') rfl (by decide) _
  · exact styled_apart _ _ (c := '\n') rfl (by decide)

private theorem ended_skippedPieces (s : SkippedFunction) : Ended (skippedPieces s) := by
  refine ended_of_getLast? (.cons_cons ?_ (.cons_cons ?_ (.cons_cons ?_ (.cons_cons ?_
    (.singleton _))))) rfl (c := '\n') rfl (by decide)
  · exact plain_apart (c := ' ') rfl (by decide) _
  · refine styled_apart _ _ (c := ' ') ?_ (by decide)
    rw [String.toList_append, String.toList_append]
    rfl
  · exact plain_apart (c := ' ') (getLast?_toList_append rfl) (by decide) _
  · exact styled_apart _ _ (c := '\n') rfl (by decide)

private theorem ended_pieces (r : FileReport) : Ended r.pieces := by
  refine Ended.append ?_ (ended_flatMap ended_skippedPieces r.skipped)
  split
  · refine ended_of_getLast? (.cons_cons ?_ (.cons_cons ?_ (.singleton _))) rfl (c := '\n') rfl
      (by decide)
    · exact plain_apart (c := ' ') (getLast?_toList_append rfl) (by decide) _
    · exact styled_apart _ _ (c := '\n') rfl (by decide)
  · refine Ended.append (?_ : Ended [.styled .boldRed r.file, .plain ":\n"])
      (ended_flatMap ended_findingPieces r.findings)
    refine ended_of_getLast? (.cons_cons ?_ (.singleton _)) rfl (c := '\n') rfl (by decide)
    exact styled_apart _ _ (c := ':') rfl (by decide)

private theorem renderAll_findingPieces (f : Finding) :
    renderAll false (findingPieces f) = findingLine f := by
  simp only [findingPieces, findingLine, renderAll_styled_cons, renderAll_plain_cons,
    renderAll_nil, String.append_assoc, String.append_empty]

private theorem renderAll_skippedPieces (s : SkippedFunction) :
    renderAll false (skippedPieces s) = s.line := by
  have h : "    skipped " = "    " ++ ("skipped" ++ " ") := rfl
  unfold SkippedFunction.line
  simp only [skippedPieces, h, renderAll_styled_cons, renderAll_plain_cons, renderAll_nil,
    String.append_assoc, String.append_empty]

private theorem renderAll_pieces (r : FileReport) : renderAll false r.pieces = r.text := by
  rw [pieces, text, renderAll_append, renderAll_flatMap renderAll_skippedPieces]
  refine congrArg (· ++ _) ?_
  split
  · have h : ": no side effects found\n" = ": " ++ "no side effects found\n" := rfl
    simp [h, String.append_assoc]
  · rw [← renderAll_flatMap renderAll_findingPieces, renderAll_styled_cons, renderAll_plain_cons,
      String.append_assoc]

end FileReport

namespace FileFailure

private theorem ended_pieces (f : FileFailure) : Ended f.pieces := by
  refine ended_of_getLast? (.cons_cons ?_ (.cons_cons ?_ (.cons_cons ?_ (.singleton _)))) rfl
    (c := '\n') rfl (by decide)
  · refine styled_apart _ _ (c := ' ') ?_ (by decide)
    rw [String.toList_append, String.toList_append]
    rfl
  · exact plain_apart (c := ' ') (getLast?_toList_append rfl) (by decide) _
  · exact styled_apart _ _ (c := '\n') rfl (by decide)

private theorem renderAll_pieces (f : FileFailure) : renderAll false f.pieces = f.line := by
  have h : "Could not process " = "Could not process" ++ " " := rfl
  unfold line
  simp only [pieces, h, renderAll_styled_cons, renderAll_plain_cons, renderAll_nil,
    String.append_assoc, String.append_empty]

end FileFailure

namespace ScanReport

open Text (withoutSequences)

variable (r : ScanReport)

private theorem isChain_pieces : r.pieces.IsChain Apart := by
  have he := (ended_flatMap FileReport.ended_pieces r.files).append
    (ended_flatMap FileFailure.ended_pieces r.failures)
  exact he.1.append (.singleton _) fun p hp q _ => he.2 p hp q

private theorem render_plain : r.render false = r.text := by
  rw [ScanReport.render, pieces, renderAll_append, renderAll_append,
    renderAll_flatMap FileReport.renderAll_pieces, renderAll_flatMap FileFailure.renderAll_pieces,
    renderAll_styled_cons, renderAll_nil, String.append_empty, text]

/-- Without colours a report is written as its plain text. With colours it is the same once the
escape sequences are taken out of both, and those may well be part of the names in the report. -/
theorem render_eq_text_without_sequences :
    r.render false = r.text ∧
      withoutSequences (r.render true).toList = withoutSequences r.text.toList := by
  refine ⟨r.render_plain, ?_⟩
  rw [← r.render_plain]
  exact (withoutSequences_renderAll r.isChain_pieces true).trans
    (withoutSequences_renderAll r.isChain_pieces false).symm

end ScanReport

end SideEffectLint
