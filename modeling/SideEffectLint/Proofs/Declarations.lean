import Mathlib.Data.List.Nodup
import SideEffectLint.Lint.Discovery

/-! Which functions a module declares at its top level. Each has a place, the item and the declarator in
it, and the functions are listed in the order of their places. What stands inside of anything else has
no place. -/

namespace SideEffectLint

namespace Expr

/-- An expression in any number of parentheses. -/
inductive Parenthesizes : Expr → Expr → Prop
  | here {e : Expr} : Parenthesizes e e
  | paren {span : Span} {e inner : Expr} : Parenthesizes e inner → Parenthesizes (.paren span e) inner

variable {e : Expr} {span : Span} {params : List Pattern} {body : Body}

private theorem parenthesizes_unparenthesized (e : Expr) : e.Parenthesizes e.unparenthesized := by
  fun_induction unparenthesized e with
  | case1 span inner ih => exact .paren ih
  | case2 e => exact .here

private theorem unparenthesized_eq_arrow_iff :
    e.unparenthesized = .arrow span params body ↔ e.Parenthesizes (.arrow span params body) := by
  constructor
  · intro h
    have hp := e.parenthesizes_unparenthesized
    rwa [h] at hp
  · intro h
    generalize ha : Expr.arrow span params body = inner at h
    induction h with
    | here =>
      subst ha
      rw [unparenthesized]
      simp
    | paren _ ih => rw [unparenthesized, ih ha]

end Expr

namespace Pattern

/-- The name of a variable whose pattern is nothing else. -/
inductive Names : Pattern → Option String → Prop
  | named {span : Span} {name : String} {type : Option TypeExpr} :
    Names (.ident span name type) (some name)
  | unnamed {p : Pattern} (h : ∀ span name type, p ≠ .ident span name type) : Names p none

private theorem names_iff {p : Pattern} {name : Option String} : p.Names name ↔ name = p.name? := by
  constructor
  · intro h
    cases h with
    | named => rfl
    | unnamed h =>
      cases p with
      | ident span name type => exact absurd rfl (h span name type)
      | _ => rfl
  · rintro rfl
    cases p with
    | ident => exact .named
    | _ => exact .unnamed nofun

end Pattern

/-- The function that a variable is given as its value. -/
inductive Declarator.Gives : Declarator → FoundFunction → Prop
  | arrow {place span : Span} {pattern : Pattern} {init : Expr} {name : Option String}
    {params : List Pattern} {body : Body} (he : init.Parenthesizes (.arrow span params body))
    (hn : pattern.Names name) :
    Gives (.mk place pattern (some init)) ⟨name, params, span, body⟩

/-- The declaration that an item is, be it exported or not. -/
inductive ModuleItem.Holds : ModuleItem → Stmt → Prop
  | plain {s : Stmt} : Holds (.stmt s) s
  | exported {span : Span} {s : Stmt} : Holds (.exportDecl span s) s

/-- Where a function is declared. What has no declarators declares its function at 0. -/
structure DeclarationPlace where
  item : Nat
  declarator : Nat

/-- The order of the text. -/
def DeclarationPlace.Before (p q : DeclarationPlace) : Prop :=
  p.item < q.item ∨ p.item = q.item ∧ p.declarator < q.declarator

private theorem DeclarationPlace.Before.ne {p q : DeclarationPlace} (h : p.Before q) : p ≠ q := by
  rintro rfl
  rcases h with h | ⟨-, h⟩
  · exact Nat.lt_irrefl _ h
  · exact Nat.lt_irrefl _ h

/-- The function that a module declares at a place. One that has no body is declared nowhere. -/
inductive Module.DeclaresAt (m : Module) : DeclarationPlace → FoundFunction → Prop
  | declaration {i : Nat} {item : ModuleItem} {span bodySpan : Span} {name : String}
    {params : List Pattern} {statements : List Stmt} (hi : m.items[i]? = some item)
    (hs : item.Holds (.function span name params (.block bodySpan statements))) :
    DeclaresAt m ⟨i, 0⟩ ⟨some name, params, span, .block bodySpan statements⟩
  | defaultExport {i : Nat} {span bodySpan : Span} {name : Option String} {params : List Pattern}
    {statements : List Stmt} (hi : m.items[i]? =
      some (.exportDefaultFunction span name params (.block bodySpan statements))) :
    DeclaresAt m ⟨i, 0⟩ ⟨name, params, span, .block bodySpan statements⟩
  | bound {i j : Nat} {item : ModuleItem} {span : Span} {declarators : List Declarator}
    {d : Declarator} {f : FoundFunction} (hi : m.items[i]? = some item)
    (hs : item.Holds (.bindings span declarators)) (hd : declarators[j]? = some d)
    (hf : d.Gives f) : DeclaresAt m ⟨i, j⟩ f

/-- The numbers of a list are in their order. -/
theorem pairwise_zipIdx {α : Type} (xs : List α) : xs.zipIdx.Pairwise fun a b => a.2 < b.2 := by
  have h : (xs.zipIdx.map Prod.snd).Pairwise (· < ·) := by
    rw [List.zipIdx_map_snd]
    exact List.pairwise_lt_range'
  exact List.pairwise_map.mp h

namespace FunctionBlock

variable {name : Option String} {params : List Pattern} {span : Span} {f : FoundFunction} {j : Nat}

theorem function?_eq_some_iff {b : FunctionBlock} :
    b.function? name params span = some f ↔ ∃ bodySpan statements,
      b = .block bodySpan statements ∧ f = ⟨name, params, span, .block bodySpan statements⟩ := by
  constructor
  · intro h
    cases b with
    | missing => cases h
    | block bodySpan statements =>
      cases h
      exact ⟨bodySpan, statements, rfl, rfl⟩
  · rintro ⟨bodySpan, statements, rfl, rfl⟩
    rfl

/-- The function with the number that stands for no declarator. -/
def numbered (name : Option String) (params : List Pattern) (span : Span) (b : FunctionBlock) :
    List (FoundFunction × Nat) :=
  (b.function? name params span).toList.map fun f => (f, 0)

private theorem map_numbered (b : FunctionBlock) :
    (b.numbered name params span).map Prod.fst = (b.function? name params span).toList := by
  cases b <;> rfl

private theorem pairwise_numbered (b : FunctionBlock) :
    (b.numbered name params span).Pairwise fun a b => a.2 < b.2 := by
  cases b with
  | missing => exact .nil
  | block => exact List.pairwise_singleton ..

private theorem mem_numbered_iff {b : FunctionBlock} : (f, j) ∈ b.numbered name params span ↔
    b.function? name params span = some f ∧ j = 0 := by
  simp [numbered, eq_comm]

end FunctionBlock

theorem Declarator.function?_eq_some_iff {d : Declarator} {f : FoundFunction} :
    d.function? = some f ↔ d.Gives f := by
  constructor
  · intro h
    obtain ⟨place, pattern, init⟩ := d
    cases init with
    | none => cases h
    | some init =>
      rw [function?] at h
      split at h
      · rename_i span params body ha
        obtain rfl := Option.some.inj h
        exact .arrow (Expr.unparenthesized_eq_arrow_iff.mp ha) (Pattern.names_iff.mpr rfl)
      · cases h
  · rintro ⟨he, hn⟩
    obtain rfl := Pattern.names_iff.mp hn
    rw [function?, Expr.unparenthesized_eq_arrow_iff.mpr he]

namespace Stmt

/-- The functions of a declaration with the numbers of their declarators. -/
def numbered : Stmt → List (FoundFunction × Nat)
  | function span name params body => body.numbered (some name) params span
  | bindings _ declarators =>
    declarators.zipIdx.filterMap fun d => d.1.function?.map fun f => (f, d.2)
  | _ => []

private theorem map_numbered (s : Stmt) : s.numbered.map Prod.fst = s.functions := by
  cases s with
  | function _ _ _ body => exact body.map_numbered
  | bindings span declarators =>
    have hd : declarators.zipIdx.map Prod.fst = declarators := List.zipIdx_map_fst 0 declarators
    rw [numbered, functions, List.map_filterMap]
    conv_rhs => rw [← hd, List.filterMap_map]
    congr 1
    funext d
    simp [Function.comp_def]
  | _ => rfl

private theorem pairwise_numbered (s : Stmt) : s.numbered.Pairwise fun a b => a.2 < b.2 := by
  cases s with
  | function _ _ _ body => exact body.pairwise_numbered
  | bindings span declarators =>
    rw [numbered, List.pairwise_filterMap]
    apply (pairwise_zipIdx declarators).imp
    intro d e hlt a ha b hb
    obtain ⟨f, -, rfl⟩ := Option.map_eq_some_iff.mp ha
    obtain ⟨g, -, rfl⟩ := Option.map_eq_some_iff.mp hb
    exact hlt
  | _ => exact .nil

private theorem mem_numbered_bindings_iff {span : Span} {declarators : List Declarator} {j : Nat}
    {f : FoundFunction} : (f, j) ∈ (bindings span declarators).numbered ↔
      ∃ d, declarators[j]? = some d ∧ d.Gives f := by
  rw [numbered, List.mem_filterMap]
  constructor
  · rintro ⟨⟨d, k⟩, hd, hf⟩
    obtain ⟨g, hg, heq⟩ := Option.map_eq_some_iff.mp hf
    cases heq
    exact ⟨d, List.mem_zipIdx_iff_getElem?.mp hd, Declarator.function?_eq_some_iff.mp hg⟩
  · rintro ⟨d, hd, hf⟩
    refine ⟨(d, j), List.mem_zipIdx_iff_getElem?.mpr hd, ?_⟩
    rw [Declarator.function?_eq_some_iff.mpr hf]
    rfl

end Stmt

namespace ModuleItem

/-- The functions of an item with the numbers of their declarators. -/
def numbered : ModuleItem → List (FoundFunction × Nat)
  | stmt s | exportDecl _ s => s.numbered
  | exportDefaultFunction span name params body => body.numbered name params span
  | other .. => []

private theorem Holds.numbered_eq {item : ModuleItem} {s : Stmt} (h : item.Holds s) :
    item.numbered = s.numbered := by
  cases h <;> rfl

private theorem map_numbered (item : ModuleItem) : item.numbered.map Prod.fst = item.functions := by
  cases item with
  | stmt s | exportDecl _ s => exact s.map_numbered
  | exportDefaultFunction _ _ _ body => exact body.map_numbered
  | other => rfl

private theorem pairwise_numbered (item : ModuleItem) : item.numbered.Pairwise fun a b => a.2 < b.2 := by
  cases item with
  | stmt s | exportDecl _ s => exact s.pairwise_numbered
  | exportDefaultFunction _ _ _ body => exact body.pairwise_numbered
  | other => exact .nil

end ModuleItem

namespace Module

variable {m : Module} {p : DeclarationPlace} {f : FoundFunction}

/-- The functions of a module with their places. -/
def placed (m : Module) : List (DeclarationPlace × FoundFunction) :=
  m.items.zipIdx.flatMap fun item => item.1.numbered.map fun f => (⟨item.2, f.2⟩, f.1)

private theorem map_placed (m : Module) : m.placed.map Prod.snd = m.functions := by
  have hi : m.items.zipIdx.map Prod.fst = m.items := List.zipIdx_map_fst 0 m.items
  rw [placed, functions, List.map_flatMap]
  conv_rhs => rw [← hi, List.flatMap_map]
  congr 1
  funext item
  rw [List.map_map]
  exact item.1.map_numbered

private theorem pairwise_placed (m : Module) : m.placed.Pairwise fun a b => a.1.Before b.1 := by
  rw [placed, List.pairwise_flatMap]
  constructor
  · intro item _
    rw [List.pairwise_map]
    exact item.1.pairwise_numbered.imp fun h => .inr ⟨rfl, h⟩
  · apply (pairwise_zipIdx m.items).imp
    intro item item' hlt a ha b hb
    obtain ⟨_, -, rfl⟩ := List.mem_map.mp ha
    obtain ⟨_, -, rfl⟩ := List.mem_map.mp hb
    exact .inl hlt

private theorem mem_placed_iff : (p, f) ∈ m.placed ↔
    ∃ item, m.items[p.item]? = some item ∧ (f, p.declarator) ∈ item.numbered := by
  rw [placed, List.mem_flatMap]
  constructor
  · rintro ⟨⟨item, i⟩, hi, h⟩
    obtain ⟨⟨g, j⟩, hg, heq⟩ := List.mem_map.mp h
    cases heq
    exact ⟨item, List.mem_zipIdx_iff_getElem?.mp hi, hg⟩
  · rintro ⟨item, hi, hf⟩
    exact ⟨(item, p.item), List.mem_zipIdx_iff_getElem?.mpr hi, List.mem_map.mpr ⟨_, hf, rfl⟩⟩

private theorem declaresAt_of_holds {i j : Nat} {item : ModuleItem} {s : Stmt}
    (hi : m.items[i]? = some item) (hs : item.Holds s) (hf : (f, j) ∈ s.numbered) :
    m.DeclaresAt ⟨i, j⟩ f := by
  cases s with
  | function =>
    obtain ⟨hb, rfl⟩ := FunctionBlock.mem_numbered_iff.mp hf
    obtain ⟨bodySpan, statements, rfl, rfl⟩ := FunctionBlock.function?_eq_some_iff.mp hb
    exact .declaration hi hs
  | bindings =>
    obtain ⟨d, hd, hf⟩ := Stmt.mem_numbered_bindings_iff.mp hf
    exact .bound hi hs hd hf
  | _ => cases hf

private theorem mem_placed_iff_declaresAt : (p, f) ∈ m.placed ↔ m.DeclaresAt p f := by
  rw [mem_placed_iff]
  constructor
  · rintro ⟨item, hi, hf⟩
    cases item with
    | stmt s => exact declaresAt_of_holds hi .plain hf
    | exportDecl span s => exact declaresAt_of_holds hi .exported hf
    | exportDefaultFunction =>
      obtain ⟨i, j⟩ := p
      obtain ⟨hb, rfl⟩ := FunctionBlock.mem_numbered_iff.mp hf
      obtain ⟨bodySpan, statements, rfl, rfl⟩ := FunctionBlock.function?_eq_some_iff.mp hb
      exact .defaultExport hi
    | other => cases hf
  · intro h
    cases h with
    | declaration hi hs =>
      refine ⟨_, hi, ?_⟩
      rw [hs.numbered_eq]
      exact FunctionBlock.mem_numbered_iff.mpr ⟨rfl, rfl⟩
    | defaultExport hi => exact ⟨_, hi, FunctionBlock.mem_numbered_iff.mpr ⟨rfl, rfl⟩⟩
    | bound hi hs hd hf =>
      refine ⟨_, hi, ?_⟩
      rw [hs.numbered_eq]
      exact Stmt.mem_numbered_bindings_iff.mpr ⟨_, hd, hf⟩

theorem DeclaresAt.unique {g : FoundFunction} (hf : m.DeclaresAt p f) (hg : m.DeclaresAt p g) :
    f = g := by
  have hn : (m.placed.map Prod.fst).Nodup := by
    rw [List.Nodup, List.pairwise_map]
    exact m.pairwise_placed.imp fun h => h.ne
  have heq := List.inj_on_of_nodup_map hn (mem_placed_iff_declaresAt.mpr hf)
    (mem_placed_iff_declaresAt.mpr hg) rfl
  exact (Prod.mk.inj heq).2

/-- The functions of a module are those that it declares at some place, each of them once and in the
order of their places. No place declares two. -/
theorem functions_declared (m : Module) :
    ∃ placed : List (DeclarationPlace × FoundFunction), placed.map Prod.snd = m.functions ∧
      placed.Pairwise (fun a b => a.1.Before b.1) ∧
      (∀ p f, (p, f) ∈ placed ↔ m.DeclaresAt p f) ∧
      ∀ p f g, m.DeclaresAt p f → m.DeclaresAt p g → f = g :=
  ⟨m.placed, m.map_placed, m.pairwise_placed, fun _ _ => mem_placed_iff_declaresAt,
    fun _ _ _ hf hg => hf.unique hg⟩

end Module

end SideEffectLint
