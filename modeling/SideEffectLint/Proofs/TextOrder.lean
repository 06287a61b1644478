import SideEffectLint.Proofs.Declarations
import SideEffectLint.Proofs.Detection
import SideEffectLint.Proofs.Isolation
import SideEffectLint.Proofs.Placement

/-! Where the findings of a report stand in the text when the places of its module are nested and in
order: each in its function, and one after the other. -/

namespace SideEffectLint

open Site

namespace LineMap

/-- The lines of a text are in the order of its offsets, for any list of line starts. -/
theorem line_mono (lines : LineMap) {a b : Nat} (h : a ≤ b) : lines.line a ≤ lines.line b := by
  have hl (starts : List Nat) : (starts.takeWhile (· ≤ a)).length ≤
      (starts.takeWhile (· ≤ b)).length := by
    induction starts with
    | nil => exact Nat.le_refl _
    | cons s starts ih =>
      by_cases hs : s ≤ a
      · have hb : s ≤ b := Nat.le_trans hs h
        simpa [hs, hb] using ih
      · simp [hs]
  exact Nat.add_le_add_left (hl lines.starts) 1

end LineMap

namespace Expr

private theorem inside_core : ∀ e : Expr, (node (.expr e.core)).Inside (node (.expr e))
  | paren _ inner => .part List.mem_cons_self inner.inside_core
  | typed _ form operand _ => by
    rw [core]
    split
    · exact .part List.mem_cons_self operand.inside_core
    · exact .here
  | ident .. | string .. | array .. | object .. | member .. | superMember .. | call ..
  | chainMember .. | chainCall .. | assign .. | arrow .. | compound .. | invalid .. => .here

private theorem inside_of_hasCore {e c : Expr} (h : e.HasCore c) :
    (node (.expr c)).Inside (node (.expr e)) := by
  obtain rfl := hasCore_iff.mp h
  exact e.inside_core

private theorem inside_unparenthesized : ∀ e : Expr,
    (node (.expr e.unparenthesized)).Inside (node (.expr e))
  | paren _ inner => .part List.mem_cons_self inner.inside_unparenthesized
  | ident .. | string .. | array .. | object .. | typed .. | member .. | superMember .. | call ..
  | chainMember .. | chainCall .. | assign .. | arrow .. | compound .. | invalid .. => .here

end Expr

/-- The member that is assigned to is a part of the assignment. -/
theorem Target.Assigns.inside {t : Target} {span place : Span} {object value : Expr}
    {operator : String} (h : t.Assigns place object) :
    ∃ key, (node (.expr (.member place object key))).Inside
      (node (.expr (.assign span operator t value))) := by
  cases h with
  | direct => exact ⟨_, .part List.mem_cons_self .here⟩
  | wrapped hi =>
    exact ⟨_, .part List.mem_cons_self (.part List.mem_cons_self (Expr.inside_of_hasCore hi))⟩

/-- The line of a finding is that of an expression inside of its leaf. -/
theorem LintContext.exists_inside_of_find {ctx : LintContext} {n : Node} {f : Finding}
    (h : ctx.find n = some f) :
    ∃ e : Expr, (node (.expr e)).Inside (node n) ∧ f.line = ctx.lines.line e.span.start := by
  cases detects_of_find_eq h with
  | mutation he ht _ _ =>
    obtain ⟨key, hi⟩ := ht.inside
    exact ⟨_, hi.trans (Expr.inside_of_hasCore he), rfl⟩
  | call he _ _ => exact ⟨_, Expr.inside_of_hasCore he, rfl⟩
  | chainCall he _ _ => exact ⟨_, Expr.inside_of_hasCore he, rfl⟩

/-- The piece of a module that a function is. -/
structure FoundFunction.IsAt (f : FoundFunction) (site : Site) : Prop where
  span_eq : site.span = f.span
  not_isWrapper : ¬ site.IsWrapper
  body_mem : node f.body.node ∈ site.parts

private theorem Declarator.exists_isAt {d : Declarator} {f : FoundFunction} (h : d.function? = some f) :
    ∃ site : Site, site.Inside (declarator d) ∧ f.IsAt site := by
  obtain ⟨span, pattern, init⟩ := d
  cases init with
  | none => cases h
  | some e =>
    have hi := e.inside_unparenthesized
    rw [function?] at h
    cases hu : e.unparenthesized with
    | arrow place params body =>
      rw [hu] at h hi
      cases h
      exact ⟨_, .part List.mem_cons_self hi, rfl, fun hw => hw rfl, List.mem_cons_self⟩
    | _ =>
      rw [hu] at h
      cases h

private theorem Stmt.exists_isAt {s : Stmt} {f : FoundFunction} (h : f ∈ s.functions) :
    ∃ site : Site, site.Inside (node (.stmt s)) ∧ f.IsAt site := by
  cases s with
  | function span name params body =>
    obtain ⟨bodySpan, statements, rfl, rfl⟩ :=
      FunctionBlock.function?_eq_some_iff.mp (Option.mem_toList.mp h)
    exact ⟨_, .here, rfl, fun hw => hw rfl, List.mem_cons_self⟩
  | bindings span declarators =>
    obtain ⟨d, hd, hf⟩ := List.mem_filterMap.mp h
    obtain ⟨site, hi, hat⟩ := Declarator.exists_isAt hf
    exact ⟨site, .part (List.mem_map_of_mem hd) hi, hat⟩
  | _ => cases h

private theorem ModuleItem.exists_isAt {i : ModuleItem} {f : FoundFunction} (h : f ∈ i.functions) :
    ∃ site : Site, site.Inside (item i) ∧ f.IsAt site := by
  cases i with
  | stmt s | exportDecl span s =>
    obtain ⟨site, hi, hat⟩ := Stmt.exists_isAt h
    exact ⟨site, .part List.mem_cons_self hi, hat⟩
  | exportDefaultFunction span name params body =>
    obtain ⟨bodySpan, statements, rfl, rfl⟩ :=
      FunctionBlock.function?_eq_some_iff.mp (Option.mem_toList.mp h)
    exact ⟨_, .here, rfl, fun hw => hw, List.mem_cons_self⟩
  | other => cases h

/-- The pieces of a module stand one after the other, and each is well placed. -/
structure Module.WellPlaced (x : Extents) (m : Module) : Prop where
  inOrder : m.items.Pairwise fun i j => i.span.Before j.span
  start_le_stop : ∀ i ∈ m.items, i.span.start ≤ i.span.stop
  items : ∀ i ∈ m.items, (item i).WellPlaced x

namespace FoundFunction

variable {x : Extents} {f : FoundFunction} {site part : Site} {outer : Span}

/-- The extent of a function is that of its piece. -/
theorem IsAt.place_eq (hf : f.IsAt site) : x.place site = f.span := by
  rw [x.place_eq site hf.not_isWrapper, hf.span_eq]

private theorem IsAt.span_within (hf : f.IsAt part) (hi : part.Inside site) (h : site.WellPlaced x)
    (ho : (x.place site).Within outer) : f.span.Within outer := by
  rw [← hf.place_eq (x := x)]
  exact WellPlaced.within_of_inside hi h ho

/-- A body with all its places in order, inside of the span of its function. -/
structure WellPlaced (x : Extents) (f : FoundFunction) : Prop where
  body : (node f.body.node).WellPlaced x
  within : (x.place (node f.body.node)).Within f.span

private theorem IsAt.wellPlaced (hf : f.IsAt part) (hi : part.Inside site) (h : site.WellPlaced x) :
    f.WellPlaced x := by
  have hp := WellPlaced.of_inside hi h
  refine ⟨hp.of_part hf.body_mem, ?_⟩
  rw [← hf.place_eq (x := x)]
  exact hp.part_within hf.body_mem

end FoundFunction

namespace Module

variable {x : Extents} {m : Module}

private theorem WellPlaced.item_within (h : m.WellPlaced x) {i : ModuleItem} (hi : i ∈ m.items) :
    (x.place (item i)).Within i.span := by
  rw [x.place_eq (item i) fun hw => hw]
  exact Span.within_self (h.start_le_stop i hi)

theorem WellPlaced.function (h : m.WellPlaced x) {f : FoundFunction} (hf : f ∈ m.functions) :
    f.WellPlaced x := by
  obtain ⟨i, hi, hf⟩ := List.mem_flatMap.mp hf
  obtain ⟨site, hin, hat⟩ := ModuleItem.exists_isAt hf
  exact hat.wellPlaced hin (h.items i hi)

end Module

private theorem FunctionBlock.pairwise_function? (b : FunctionBlock) (name : Option String)
    (params : List Pattern) (span : Span) :
    (b.function? name params span).toList.Pairwise fun f g => f.span.Before g.span := by
  cases b with
  | missing => exact .nil
  | block => exact List.pairwise_singleton ..

private theorem Stmt.pairwise_functions {x : Extents} {s : Stmt} (h : (node (.stmt s)).WellPlaced x) :
    s.functions.Pairwise fun f g => f.span.Before g.span := by
  cases s with
  | function span name params body => exact body.pairwise_function? (some name) params span
  | bindings span declarators =>
    have hin (d : Declarator) (hd : d ∈ declarators) (f : FoundFunction)
        (hf : d.function? = some f) : f.span.Within (x.place (declarator d)) := by
      obtain ⟨site, hi, hat⟩ := Declarator.exists_isAt hf
      have hp : declarator d ∈ (node (.stmt (.bindings span declarators))).parts :=
        List.mem_map_of_mem hd
      exact hat.span_within hi (h.of_part hp) (Span.within_self (h.part_within hp).start_le_stop)
    have hd := h.pairwise_parts
    rw [parts, List.map_map, List.pairwise_map] at hd
    rw [functions, List.pairwise_filterMap]
    apply hd.imp_of_mem
    intro d e hd he hde f hf g hg
    exact Span.hereditary_before hde (hin d hd f hf) (hin e he g hg)
  | _ => exact .nil

private theorem ModuleItem.pairwise_functions {x : Extents} {i : ModuleItem} (h : (item i).WellPlaced x) :
    i.functions.Pairwise fun f g => f.span.Before g.span := by
  cases i with
  | stmt s | exportDecl span s => exact Stmt.pairwise_functions (h.of_part List.mem_cons_self)
  | exportDefaultFunction span name params body => exact body.pairwise_function? name params span
  | other => exact .nil

private theorem Module.WellPlaced.pairwise_functions {x : Extents} {m : Module} (h : m.WellPlaced x) :
    m.functions.Pairwise fun f g => f.span.Before g.span := by
  have hin (i : ModuleItem) (hi : i ∈ m.items) (f : FoundFunction) (hf : f ∈ i.functions) :
      f.span.Within i.span := by
    obtain ⟨site, hin, hat⟩ := ModuleItem.exists_isAt hf
    exact hat.span_within hin (h.items i hi) (h.item_within hi)
  rw [functions, List.pairwise_flatMap]
  constructor
  · intro i hi
    exact ModuleItem.pairwise_functions (h.items i hi)
  · apply h.inOrder.imp_of_mem
    intro i j hi hj hij f hf g hg
    exact Span.hereditary_before hij (hin i hi f hf) (hin j hj g hg)

private theorem Body.reached_node (b : Body) : b.reached = b.node.reached := by
  cases b <;> rfl

namespace FoundFunction

variable {x : Extents} {f : FoundFunction} {blacklist : Blacklist} {lines : LineMap}

private theorem findings_cases (f : FoundFunction) (blacklist : Blacklist) (lines : LineMap) :
    f.findings blacklist lines = [] ∨ f.skipped? blacklist lines = none ∧
      f.findings blacklist lines = f.body.reached.filterMap
        (LintContext.find ⟨.declaredBy f.params, blacklist, f.ref lines, lines⟩) := by
  rcases f.ofPatterns_cases with ⟨-, hp⟩ | ⟨-, offset, hp⟩
  · rcases f.leaves_cases with ⟨-, hl⟩ | ⟨-, offset, hl⟩
    · right
      rw [skipped?, findings, lint, hp, hl]
      exact ⟨rfl, rfl⟩
    · left
      rw [findings, lint, hp, hl]
      rfl
  · left
    rw [findings, lint, hp]
    rfl

/-- The line of a finding is that of an extent inside of its leaf. -/
theorem WellPlaced.exists_within_of_find (h : f.WellPlaced x) {ctx : LintContext} {n : Node}
    {y : Finding} (hn : n ∈ f.body.reached) (hy : ctx.find n = some y) :
    ∃ span : Span, span.Within n.span ∧ n.span.Within f.span ∧
      y.line = ctx.lines.line span.start := by
  rw [Body.reached_node] at hn
  obtain ⟨hopens, hleaf⟩ := h.body.opens_of_mem_reached f.body.node rfl n hn
  have hw : n.span.Within f.span := h.body.span_within_of_mem_reached h.within hn
  obtain ⟨e, hi, hline⟩ := LintContext.exists_inside_of_find hy
  refine ⟨e.span, ?_, hw, hline⟩
  have hp : (x.place (node n)).Within n.span := by
    rw [x.place_of_leaf hleaf]
    exact Span.within_self hw.start_le_stop
  have he : x.place (node (.expr e)) = e.span := x.place_of_leaf rfl
  rw [← he]
  exact WellPlaced.within_of_inside hi (.of_inside hopens.inside h.body) hp

/-- A finding stands between the lines on which its function starts and ends. -/
theorem WellPlaced.line_mem (h : f.WellPlaced x) {y : Finding}
    (hy : y ∈ f.findings blacklist lines) :
    lines.line f.span.start ≤ y.line ∧ y.line ≤ lines.line f.span.stop := by
  rcases f.findings_cases blacklist lines with he | ⟨-, he⟩
  · rw [he] at hy
    cases hy
  · rw [he] at hy
    obtain ⟨n, hn, hy⟩ := List.mem_filterMap.mp hy
    obtain ⟨span, hs, hnf, hline⟩ := h.exists_within_of_find hn hy
    have hf := hs.trans hnf
    rw [hline]
    exact ⟨lines.line_mono hf.start_le,
      lines.line_mono (Nat.le_trans hf.start_le_stop hf.le_stop)⟩

/-- Findings of leaves in the order of the text are in the order of the text. -/
theorem WellPlaced.pairwise_line (h : f.WellPlaced x)
    (hf : f.skipped? blacklist lines = none → ∀ span subject cases,
      f.body.node.Opens (.stmt (.switch span subject cases)) → TestsFirst cases) :
    (f.findings blacklist lines).Pairwise fun y z => y.line ≤ z.line := by
  rcases f.findings_cases blacklist lines with he | ⟨hs, he⟩
  · rw [he]
    exact .nil
  · have hr := h.body.pairwise_before_reached (hf hs)
    rw [← Body.reached_node] at hr
    rw [he, List.pairwise_filterMap]
    apply hr.imp_of_mem
    intro n k hn hk hnk y hy z hz
    obtain ⟨span, hsn, -, hly⟩ := h.exists_within_of_find hn hy
    obtain ⟨span', hsk, -, hlz⟩ := h.exists_within_of_find hk hz
    have hb := Span.hereditary_before hnk hsn hsk
    rw [hly, hlz]
    exact lines.line_mono (Nat.le_trans hsn.start_le_stop hb)

end FoundFunction

/-- In a module whose places are nested and in the order of the text, the leaves of a function do not
overlap, and its findings stand between the lines on which it starts and ends. When no switch that
is opened in a function that is not skipped has a test behind statements, the lines of a report do
not decrease. Lines are in the order of offsets for every `lines`. -/
theorem Module.WellPlaced.report_inOrder {x : Extents} {m : Module} (h : m.WellPlaced x)
    (file : String) (blacklist : Blacklist) (lines : LineMap) :
    (∀ f ∈ m.functions, ∀ leaves, f.body.leaves = .ok leaves →
        leaves.Pairwise fun a b => a.span.Apart b.span) ∧
      (∀ f ∈ m.functions, ∀ y ∈ f.findings blacklist lines, y.function = f.ref lines ∧
        lines.line f.span.start ≤ y.line ∧ y.line ≤ lines.line f.span.stop) ∧
      ((∀ f ∈ m.functions, f.skipped? blacklist lines = none → ∀ span subject cases,
          f.body.node.Opens (.stmt (.switch span subject cases)) → TestsFirst cases) →
        (m.report file blacklist lines).findings.Pairwise fun y z => y.line ≤ z.line) := by
  refine ⟨?_, ?_, ?_⟩
  · intro f hf leaves hl
    rcases f.leaves_cases with ⟨-, he⟩ | ⟨-, offset, he⟩
    · rw [he, Body.reached_node] at hl
      cases hl
      exact (h.function hf).body.pairwise_apart_reached
    · rw [he] at hl
      cases hl
  · intro f hf y hy
    exact ⟨FoundFunction.function_of_mem_findings hy, (h.function hf).line_mem hy⟩
  · intro hm
    change (m.functions.flatMap (·.findings blacklist lines)).Pairwise _
    rw [List.pairwise_flatMap]
    constructor
    · intro f hf
      exact (h.function hf).pairwise_line (hm f hf)
    · apply h.pairwise_functions.imp_of_mem
      intro f g hf hg hfg y hy z hz
      have hly := ((h.function hf).line_mem hy).2
      have hlz := ((h.function hg).line_mem hz).1
      exact Nat.le_trans hly (Nat.le_trans (lines.line_mono hfg) hlz)

namespace Module

/-- The text
```
const g = (x) => {
  if (c) x.a = 1;
  else if (d) (x).b = 2;
  else x.pop();
};
export function h() {
  switch (k) {
    case c:
    default: y.push(3);
  }
}
```
with the spans that are read for it. -/
private def branches : Module :=
  ⟨[.stmt (.bindings ⟨1, 81⟩ [.mk ⟨7, 80⟩ (.ident ⟨7, 8⟩ "g" none) (some
      (.arrow ⟨11, 80⟩ [.ident ⟨12, 13⟩ "x" none] (.block ⟨18, 80⟩ [
        .conditional ⟨22, 78⟩ (.ident ⟨26, 27⟩ "c")
          (.expr ⟨29, 37⟩ (.assign ⟨29, 36⟩ "="
            (.expr (.member ⟨29, 32⟩ (.ident ⟨29, 30⟩ "x") (.named ⟨31, 32⟩ "a")))
            (.compound ⟨35, 36⟩ .literal [])))
          (some (.conditional ⟨45, 62⟩ (.ident ⟨49, 50⟩ "d")
            (.expr ⟨52, 62⟩ (.assign ⟨52, 61⟩ "="
              (.expr (.member ⟨52, 57⟩ (.paren ⟨52, 55⟩ (.ident ⟨53, 54⟩ "x"))
                (.named ⟨56, 57⟩ "b")))
              (.compound ⟨60, 61⟩ .literal [])))
            (some (.expr ⟨70, 78⟩ (.call ⟨70, 77⟩
              (.member ⟨70, 75⟩ (.ident ⟨70, 71⟩ "x") (.named ⟨72, 75⟩ "pop")) [])))))])))]),
    .exportDecl ⟨82, 160⟩ (.function ⟨89, 160⟩ "h" [] (.block ⟨102, 160⟩ [
      .switch ⟨106, 158⟩ (.ident ⟨114, 115⟩ "k") [
        .mk ⟨123, 130⟩ (some (.ident ⟨128, 129⟩ "c")) [],
        .mk ⟨135, 154⟩ none [.expr ⟨144, 154⟩ (.call ⟨144, 153⟩
          (.member ⟨144, 150⟩ (.ident ⟨144, 145⟩ "y") (.named ⟨146, 150⟩ "push"))
          [.plain (.compound ⟨151, 152⟩ .literal [])])]]]))]⟩

theorem report_inOrder_branches :
    let lines : LineMap := ⟨[20, 38, 63, 79, 82, 104, 119, 131, 155, 159, 161]⟩
    let findings := (branches.report "a.js" .arrayMutators lines).findings
    let rest : Module := ⟨branches.items.drop 1⟩
    branches.WellPlaced .withAlternates ∧
      (∀ f ∈ branches.functions, ∀ span subject cases,
        f.body.node.Opens (.stmt (.switch span subject cases)) → TestsFirst cases) ∧
      findings = [.parameterMutation 2 "x" ⟨some "g", 1⟩, .parameterMutation 3 "x" ⟨some "g", 1⟩,
        .blacklistedCall 4 "pop" ⟨some "g", 1⟩, .blacklistedCall 9 "push" ⟨some "h", 6⟩] ∧
      (findings.Pairwise fun y z => y.line ≤ z.line) ∧
      rest.WellPlaced .ofSpans ∧
      (rest.report "a.js" .arrayMutators lines).findings.Pairwise fun y z => y.line ≤ z.line := by
  intro lines findings rest
  have hw : branches.WellPlaced .withAlternates := by
    refine ⟨by decide, by decide, fun i hi => ?_⟩
    have hc : branches.items.all fun i => (item i).isWellPlaced .withAlternates 12 := by
      decide +kernel
    exact .of_isWellPlaced (List.all_eq_true.mp hc i hi)
  have ht : ∀ f ∈ branches.functions, ∀ span subject cases,
      f.body.node.Opens (.stmt (.switch span subject cases)) → TestsFirst cases := by
    intro f hf span subject cases ho
    have hc : branches.functions.all fun f => f.body.node.opensInOrder 12 := by
      decide +kernel
    exact ho.testsFirst rfl (List.all_eq_true.mp hc f hf)
  have hr := hw.report_inOrder "a.js" .arrayMutators lines
  -- Without an alternate behind an `else` the spans themselves will do.
  have hw' : rest.WellPlaced .ofSpans := by
    refine ⟨by decide, by decide, fun i hi => ?_⟩
    have hc : rest.items.all fun i => (item i).isWellPlaced .ofSpans 12 := by
      decide +kernel
    exact .of_isWellPlaced (List.all_eq_true.mp hc i hi)
  have hr' := hw'.report_inOrder "a.js" .arrayMutators lines
  have hsub : ∀ f ∈ rest.functions, f ∈ branches.functions := fun f hf =>
    List.mem_append_right (ModuleItem.functions _) hf
  refine ⟨hw, ht, ?_, hr.2.2 fun f hf _ => ht f hf, hw', hr'.2.2 fun f hf _ => ht f (hsub f hf)⟩
  change branches.functions.flatMap (·.findings .arrayMutators lines) = _
  simp only [FoundFunction.findings_eq]
  rfl

end Module

end SideEffectLint
