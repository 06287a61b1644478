import Mathlib.Data.List.Basic
import SideEffectLint.Proofs.Bindings

/-! The lint of one body under several parameter lists and blacklists. More names and more methods
only add findings, the first rule does not go by the blacklist nor the second by the parameters, and
of the parameters nothing counts but which names they bind. -/

namespace SideEffectLint

/-- No pattern in the list is unsupported. -/
def AreParameters (ps : List Pattern) : Prop :=
  ∀ place p offset, PatternAt ps place p → ¬ p.Unsupported offset

/-- An identifier of that name stands somewhere in the list. -/
def Binds (ps : List Pattern) (name : String) : Prop :=
  ∃ place span type, PatternAt ps place (.ident span name type)

/-- Puts together or takes apart the values of other patterns. -/
def Pattern.IsGroup : Pattern → Prop
  | .array .. | .object .. | .rest .. | .withDefault .. => True
  | .ident .. | .expr _ | .hole | .invalid _ => False

/-- Parameters in another order, or more than once, or put into a pattern together. -/
inductive Regroups : List Pattern → List Pattern → Prop
  | reordered {ps qs : List Pattern} (h : ∀ p, p ∈ ps ↔ p ∈ qs) : Regroups ps qs
  | grouped {before after : List Pattern} {group : Pattern} (h : group.IsGroup) :
    Regroups (before ++ group.parts ++ after) (before ++ group :: after)
  | symm {ps qs : List Pattern} (h : Regroups ps qs) : Regroups qs ps
  | trans {ps qs rs : List Pattern} (h : Regroups ps qs) (h' : Regroups qs rs) : Regroups ps rs

private theorem patternPieces_eq_flatMap (ps : List Pattern) :
    patternPieces ps = ps.flatMap Pattern.pieces := by
  induction ps with
  | nil => rfl
  | cons p ps ih => rw [patternPieces, ih, List.flatMap_cons]

private theorem areParameters_iff {ps : List Pattern} :
    AreParameters ps ↔ ∀ p ∈ patternPieces ps, ∀ offset, ¬ p.Unsupported offset := by
  constructor
  · intro h p hp offset
    obtain ⟨place, hp⟩ := mem_patternPieces_iff.mp hp
    exact h place p offset hp
  · intro h place p offset hp
    exact h p (mem_patternPieces_iff.mpr ⟨place, hp⟩) offset

private theorem binds_iff {ps : List Pattern} {name : String} :
    Binds ps name ↔ ∃ span type, .ident span name type ∈ patternPieces ps := by
  constructor
  · rintro ⟨place, span, type, hp⟩
    exact ⟨span, type, mem_patternPieces_iff.mpr ⟨place, hp⟩⟩
  · rintro ⟨span, type, hp⟩
    obtain ⟨place, hp⟩ := mem_patternPieces_iff.mp hp
    exact ⟨place, span, type, hp⟩

private theorem Pattern.IsGroup.not_unsupported {p : Pattern} (h : p.IsGroup) (offset : Nat) :
    ¬ p.Unsupported offset := by
  rintro (_ | _) <;> exact h

/-- Regrouping keeps every piece that is no group. -/
theorem Regroups.mem_pieces_iff {ps qs : List Pattern} (h : Regroups ps qs) {p : Pattern}
    (hp : ¬ p.IsGroup) : p ∈ patternPieces ps ↔ p ∈ patternPieces qs := by
  induction h with
  | reordered h => simp only [patternPieces_eq_flatMap, List.mem_flatMap, h]
  | @grouped before after group h =>
    have hne : p ≠ group := fun he => hp (he ▸ h)
    simp only [patternPieces_eq_flatMap, List.flatMap_append, List.flatMap_cons, List.mem_append,
      group.pieces_eq, List.mem_cons, hne, false_or, or_assoc]
  | symm _ ih => exact ih.symm
  | trans _ _ ih ih' => exact ih.trans ih'

private theorem Regroups.areParameters {ps qs : List Pattern} (h : Regroups ps qs)
    (hps : AreParameters ps) : AreParameters qs := by
  rw [areParameters_iff] at hps ⊢
  intro p hp offset hu
  have hg : ¬ p.IsGroup := fun hg => hg.not_unsupported offset hu
  exact hps p ((h.mem_pieces_iff hg).mpr hp) offset hu

private theorem Regroups.binds_iff {ps qs : List Pattern} (h : Regroups ps qs) (name : String) :
    Binds ps name ↔ Binds qs name := by
  have hm (span : Span) (type : Option TypeExpr) :
      .ident span name type ∈ patternPieces ps ↔ .ident span name type ∈ patternPieces qs :=
    h.mem_pieces_iff not_false
  simp only [SideEffectLint.binds_iff, hm]

private theorem contains_declaredBy_iff_binds {ps : List Pattern} {name : String} :
    (ParameterSet.declaredBy ps).contains name ↔ Binds ps name :=
  ParameterSet.contains_declaredBy_iff

def Finding.isMutation : Finding → Bool
  | parameterMutation .. => true
  | blacklistedCall .. => false

def Finding.isCall : Finding → Bool
  | parameterMutation .. => false
  | blacklistedCall .. => true

/-- The second lint fails as the first one does, or tells in the same order all that the first one
tells. -/
inductive Widens : Except FunctionFault (List Finding) → Except FunctionFault (List Finding) → Prop
  | failed (fault : FunctionFault) : Widens (.error fault) (.error fault)
  | found {xs ys : List Finding} (h : xs.Sublist ys) : Widens (.ok xs) (.ok ys)

namespace FoundFunction

/-- The same body under other parameters. -/
def withParams (f : FoundFunction) (params : List Pattern) : FoundFunction :=
  ⟨f.name, params, f.span, f.body⟩

/-- All that the rules see in the body, to blame or not. -/
def seen (f : FoundFunction) : List Sighting :=
  f.body.reached.filterMap Node.sighting?

variable (f : FoundFunction) (lines : LineMap)

/-- What is told of what is seen when the parameters and the blacklist are these. -/
def told (params : List Pattern) (blacklist : Blacklist) : List Finding :=
  (f.seen.filter (Sighting.isBlamed (.declaredBy params) blacklist)).map
    (Sighting.finding (f.ref lines) lines)

variable {P Q : List Pattern} {B C : Blacklist}

private theorem lint_withParams (hP : AreParameters P) (B : Blacklist) :
    (f.withParams P).lint B lines =
      match f.body.reached.findSome? Node.fault? with
      | none => .ok (f.told lines P B)
      | some fault => .error fault := by
  have hf : (patternPieces P).findSome? Pattern.fault? = none := by
    apply List.findSome?_eq_none_iff.mpr
    intro p hp
    exact Pattern.fault?_eq_none_iff.mpr (areParameters_iff.mp hP p hp)
  have hb : (f.withParams P).fault? = f.body.reached.findSome? Node.fault? := by
    rw [fault?, withParams, hf, Option.none_or]
  rw [lint_eq, hb]
  rfl

/-- What is to blame stays so under more names and more methods. -/
theorem told_sublist (hn : ∀ name, Binds P name → Binds Q name)
    (hm : ∀ method ∈ B.methods, method ∈ C.methods) :
    (f.told lines P B).Sublist (f.told lines Q C) := by
  apply List.Sublist.map
  apply List.monotone_filter_right
  intro s hs
  cases s with
  | mutation span parameter =>
    have hb := hn parameter (contains_declaredBy_iff_binds.mp hs)
    exact contains_declaredBy_iff_binds.mpr hb
  | call span method =>
    have hc := hm method (List.contains_iff_mem.mp hs)
    exact List.contains_iff_mem.mpr hc

/-- Parameters count by the names they bind. -/
theorem told_congr (hn : ∀ name, Binds P name ↔ Binds Q name) (B : Blacklist) :
    f.told lines P B = f.told lines Q B := by
  refine congrArg (List.map _) (List.filter_congr ?_)
  intro s _
  cases s with
  | mutation span parameter =>
    apply Bool.eq_iff_iff.mpr
    exact contains_declaredBy_iff_binds.trans
      ((hn parameter).trans contains_declaredBy_iff_binds.symm)
  | call span method => rfl

/-- Findings of one kind are the same when what is seen of that kind is to blame alike. -/
theorem filter_told_congr {kind : Finding → Bool}
    (h : ∀ s : Sighting, kind (s.finding (f.ref lines) lines) →
      s.isBlamed (.declaredBy P) B = s.isBlamed (.declaredBy Q) C) :
    (f.told lines P B).filter kind = (f.told lines Q C).filter kind := by
  rw [told, told, List.filter_map, List.filter_map, List.filter_filter, List.filter_filter]
  refine congrArg (List.map _) (List.filter_congr ?_)
  intro s _
  rw [Bool.eq_iff_iff, Bool.and_eq_true, Bool.and_eq_true]
  exact and_congr_right fun hs => Bool.eq_iff_iff.mp (h s hs)

variable (P Q B C)

/-- Calls are found by the blacklist. -/
theorem filter_isCall_told :
    (f.told lines P B).filter Finding.isCall = (f.told lines Q B).filter Finding.isCall := by
  apply f.filter_told_congr lines
  intro s hs
  cases s with
  | mutation span parameter => cases hs
  | call span method => rfl

/-- Mutations are found by the parameters. -/
theorem filter_isMutation_told :
    (f.told lines P B).filter Finding.isMutation =
      (f.told lines P C).filter Finding.isMutation := by
  apply f.filter_told_congr lines
  intro s hs
  cases s with
  | mutation span parameter => rfl
  | call span method => cases hs

variable {P Q}

/-- More names and more methods widen a lint. The calls it finds are those it finds with any other
parameters, and the mutations those with any other blacklist. Parameters of the same names, such as
those that come of regrouping, give the same. -/
theorem lint_withParams_widens (hP : AreParameters P) (hQ : AreParameters Q) :
    ((∀ name, Binds P name → Binds Q name) → (∀ method ∈ B.methods, method ∈ C.methods) →
        Widens ((f.withParams P).lint B lines) ((f.withParams Q).lint C lines)) ∧
      ((f.withParams P).lint B lines).map (List.filter Finding.isCall) =
        ((f.withParams Q).lint B lines).map (List.filter Finding.isCall) ∧
      ((f.withParams P).lint B lines).map (List.filter Finding.isMutation) =
        ((f.withParams P).lint C lines).map (List.filter Finding.isMutation) ∧
      ((∀ name, Binds P name ↔ Binds Q name) →
        (f.withParams P).lint B lines = (f.withParams Q).lint B lines) ∧
      ∀ R, Regroups P R → AreParameters R ∧
        (f.withParams R).lint B lines = (f.withParams P).lint B lines := by
  have hR {R : List Pattern} (h : Regroups P R) : AreParameters R ∧
      f.told lines R B = f.told lines P B :=
    ⟨h.areParameters hP, f.told_congr lines (fun name => (h.binds_iff name).symm) B⟩
  rw [f.lint_withParams lines hP, f.lint_withParams lines hP, f.lint_withParams lines hQ,
    f.lint_withParams lines hQ]
  cases hb : f.body.reached.findSome? Node.fault? with
  | some fault =>
    refine ⟨fun _ _ => .failed fault, rfl, rfl, fun _ => rfl, fun R h => ⟨(hR h).1, ?_⟩⟩
    rw [f.lint_withParams lines (hR h).1, hb]
  | none =>
    refine ⟨fun hn hm => .found (f.told_sublist lines hn hm), ?_, ?_, ?_,
      fun R h => ⟨(hR h).1, ?_⟩⟩
    · exact congrArg Except.ok (f.filter_isCall_told lines P Q B)
    · exact congrArg Except.ok (f.filter_isMutation_told lines P B C)
    · exact fun hn => congrArg Except.ok (f.told_congr lines hn B)
    · rw [f.lint_withParams lines (hR h).1, hb]
      exact congrArg Except.ok (hR h).2

/-- A body `{ x.a = 1; y.pop(); y.a = 1; x.push(1) }` without parameters. -/
private def pairBody : FoundFunction :=
  let mutation (span : Span) (name : String) : Expr :=
    .assign span "=" (.expr (.member span (.ident span name) (.named span "a")))
      (.compound span .literal [])
  let call (span : Span) (name method : String) : Expr :=
    .call span (.member span (.ident span name) (.named span method)) []
  ⟨some "f", [], ⟨1, 60⟩, .block ⟨19, 60⟩
    [.expr ⟨21, 29⟩ (mutation ⟨21, 28⟩ "x"), .expr ⟨30, 38⟩ (call ⟨30, 37⟩ "y" "pop"),
      .expr ⟨39, 47⟩ (mutation ⟨39, 46⟩ "y"), .expr ⟨48, 58⟩ (call ⟨48, 57⟩ "x" "push")]⟩

/-- With the parameter `x` and the method `push` less is found than with the parameters `[y]` and
`x` and all methods that change an array. -/
theorem lint_pairBody_widens :
    let x : Pattern := .ident ⟨12, 13⟩ "x" none
    let y : Pattern := .ident ⟨13, 14⟩ "y" none
    let Q : List Pattern := [.array ⟨12, 15⟩ [y] none, x]
    let first : List Finding :=
      [.parameterMutation 1 "x" ⟨some "f", 1⟩, .blacklistedCall 1 "push" ⟨some "f", 1⟩]
    let second : List Finding :=
      [.parameterMutation 1 "x" ⟨some "f", 1⟩, .blacklistedCall 1 "pop" ⟨some "f", 1⟩,
        .parameterMutation 1 "y" ⟨some "f", 1⟩, .blacklistedCall 1 "push" ⟨some "f", 1⟩]
    AreParameters [x] ∧ AreParameters Q ∧ (∀ name, Binds [x] name → Binds Q name) ∧
      (pairBody.withParams [x]).lint ⟨["push"]⟩ ⟨[]⟩ = .ok first ∧
      (pairBody.withParams Q).lint .arrayMutators ⟨[]⟩ = .ok second ∧
      Widens (.ok first) (.ok second) := by
  intro x y Q first second
  have hx : AreParameters [x] := by
    rw [areParameters_iff]
    rintro p hp offset (_ | _) <;> simp [x, patternPieces, Pattern.pieces] at hp
  have hQ : AreParameters Q := by
    rw [areParameters_iff]
    rintro p hp offset (_ | _) <;> simp [Q, x, y, patternPieces, Pattern.pieces] at hp
  have hn (name : String) (h : Binds [x] name) : Binds Q name := by
    obtain ⟨span, type, hp⟩ := binds_iff.mp h
    exact binds_iff.mpr ⟨span, type, List.mem_append_right _ hp⟩
  have hm : ∀ method ∈ (⟨["push"]⟩ : Blacklist).methods,
      method ∈ Blacklist.arrayMutators.methods := by decide
  have h := (pairBody.lint_withParams_widens ⟨[]⟩ ⟨["push"]⟩ .arrayMutators hx hQ).1 hn hm
  have hfirst : (pairBody.withParams [x]).lint ⟨["push"]⟩ ⟨[]⟩ = .ok first := by
    rw [lint_eq]
    rfl
  have hsecond : (pairBody.withParams Q).lint .arrayMutators ⟨[]⟩ = .ok second := by
    rw [lint_eq]
    rfl
  rw [hfirst, hsecond] at h
  exact ⟨hx, hQ, hn, hfirst, hsecond, h⟩

end FoundFunction

end SideEffectLint
