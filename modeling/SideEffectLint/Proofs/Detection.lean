import SideEffectLint.Lint.Rules

/-! What the rules find in a leaf, told by the shape of the leaf and not by the functions that look for
it. An expression is a stack of wrappers around its core, and the cores at five places decide: that of
the leaf, of the target, of the object of a member, of the callee and of a computed key. -/

namespace SideEffectLint

/-- What may stand around an expression without changing what the rules see. -/
inductive Wrapper where
  | paren (span : Span)
  | assertion (span : Span) (form : TypedForm) (types : List TypeExpr)
      (isAssertion : form ≠ .instantiation)

namespace Wrapper

def around : Wrapper → Expr → Expr
  | paren span, e => .paren span e
  | assertion span form types _, e => .typed span form e types

end Wrapper

private theorem TypedForm.isAssertion_iff {form : TypedForm} :
    form.isAssertion ↔ form ≠ .instantiation := by
  cases form <;> simp [isAssertion]

namespace Expr

variable {e c : Expr}

/-- No wrapper stands around the expression. -/
def IsBare (e : Expr) : Prop :=
  ∀ (w : Wrapper) (inner : Expr), e ≠ w.around inner

/-- The expression is `c` in a stack of wrappers, of any kinds and in any order. Nothing more can be
taken off `c`. -/
structure HasCore (e c : Expr) : Prop where
  wrapped : ∃ ws : List Wrapper, e = ws.foldr Wrapper.around c
  bare : c.IsBare

private theorem core_around (w : Wrapper) (e : Expr) : (w.around e).core = e.core := by
  cases w with
  | paren span => rw [Wrapper.around, core]
  | assertion span form types h =>
    have ha : form.isAssertion := TypedForm.isAssertion_iff.mpr h
    rw [Wrapper.around, core, if_pos ha]

private theorem core_foldr_around (ws : List Wrapper) (e : Expr) :
    (ws.foldr Wrapper.around e).core = e.core := by
  induction ws with
  | nil => rfl
  | cons w ws ih => rw [List.foldr_cons, core_around, ih]

private theorem core_of_isBare (h : e.IsBare) : e.core = e := by
  cases e with
  | paren span inner => exact absurd rfl (h (.paren span) inner)
  | typed span form operand types =>
    rw [core, if_neg]
    intro ha
    have hf := TypedForm.isAssertion_iff.mp ha
    exact h (.assertion span form types hf) operand rfl
  | _ => rfl

private theorem IsBare.hasCore (h : e.IsBare) : e.HasCore e :=
  ⟨⟨[], rfl⟩, h⟩

private theorem HasCore.around (h : e.HasCore c) (w : Wrapper) : (w.around e).HasCore c := by
  obtain ⟨⟨ws, rfl⟩, hb⟩ := h
  exact ⟨⟨w :: ws, rfl⟩, hb⟩

private theorem hasCore_core : ∀ e : Expr, e.HasCore e.core
  | paren span inner => by
    rw [core]
    exact inner.hasCore_core.around (.paren span)
  | typed span form operand types => by
    rw [core]
    split
    · rename_i ha
      have hf := TypedForm.isAssertion_iff.mp ha
      exact operand.hasCore_core.around (.assertion span form types hf)
    · rename_i ha
      apply IsBare.hasCore
      intro w inner he
      cases w with
      | paren span => cases he
      | assertion span form types hf =>
        cases he
        exact ha (TypedForm.isAssertion_iff.mpr hf)
  | ident .. | string .. | array .. | object .. | member .. | superMember .. | call ..
  | chainMember .. | chainCall .. | assign .. | arrow .. | compound .. | invalid .. =>
    IsBare.hasCore fun w _ he => by cases w <;> cases he

/-- An expression has one core, and it is the one that is computed. -/
theorem hasCore_iff : e.HasCore c ↔ e.core = c := by
  constructor
  · rintro ⟨⟨ws, rfl⟩, hb⟩
    rw [core_foldr_around, core_of_isBare hb]
  · rintro rfl
    exact e.hasCore_core

end Expr

/-- A member is assigned to, which may stand wrapped in parentheses: its place and its object. -/
inductive Target.Assigns : Target → Span → Expr → Prop
  | direct {span : Span} {object : Expr} {key : Key} :
    Assigns (.expr (.member span object key)) span object
  | wrapped {parens span : Span} {inner object : Expr} {key : Key}
    (hi : inner.HasCore (.member span object key)) :
    Assigns (.expr (.paren parens inner)) span object

/-- The text shows the name that a key stands for: a plain one, or a string in brackets. -/
inductive Key.Shows : Key → String → Prop
  | named {span : Span} {name : String} : Shows (.named span name) name
  | computed {span place : Span} {value : Expr} {name : String}
    (hv : value.HasCore (.string place name)) : Shows (.computed span value) name

/-- The callee is a member of an object, of `super` or of an optional chain, and shows its name. -/
inductive Expr.Calls : Expr → String → Prop
  | member {callee object : Expr} {span : Span} {key : Key} {method : String}
    (hc : callee.HasCore (.member span object key)) (hk : key.Shows method) : Calls callee method
  | superMember {callee : Expr} {span : Span} {key : Key} {method : String}
    (hc : callee.HasCore (.superMember span key)) (hk : key.Shows method) : Calls callee method
  | chainMember {callee object : Expr} {span : Span} {key : Key} {optional : Bool} {method : String}
    (hc : callee.HasCore (.chainMember span object key optional)) (hk : key.Shows method) :
    Calls callee method

private theorem Target.member?_eq_some_iff {t : Target} {span : Span} {object : Expr} :
    t.member? = some (span, object) ↔ t.Assigns span object := by
  constructor
  · intro h
    unfold member? at h
    split at h
    · cases h
      exact .direct
    · split at h
      · rename_i hc
        cases h
        exact .wrapped (Expr.hasCore_iff.mpr hc)
      · cases h
    · cases h
  · intro h
    cases h with
    | direct => rfl
    | wrapped hi =>
      have hc := Expr.hasCore_iff.mp hi
      simp only [member?, hc]

private theorem Expr.stringValue?_eq_some_iff {e : Expr} {text : String} :
    e.stringValue? = some text ↔ ∃ span, e.HasCore (.string span text) := by
  simp only [hasCore_iff]
  constructor
  · intro h
    unfold stringValue? at h
    split at h
    · rename_i span value hc
      cases h
      exact ⟨span, hc⟩
    · cases h
  · rintro ⟨span, hc⟩
    rw [stringValue?, hc]

private theorem Key.staticName?_eq_some_iff {k : Key} {name : String} :
    k.staticName? = some name ↔ k.Shows name := by
  constructor
  · intro h
    cases k with
    | named span text =>
      cases h
      exact .named
    | computed span value =>
      obtain ⟨place, hv⟩ := Expr.stringValue?_eq_some_iff.mp h
      exact .computed hv
    | string | number | privateName => cases h
  · intro h
    cases h with
    | named => rfl
    | computed hv => exact Expr.stringValue?_eq_some_iff.mpr ⟨_, hv⟩

private theorem Expr.method?_eq_some_iff {callee : Expr} {method : String} :
    callee.method? = some method ↔ callee.Calls method := by
  constructor
  · intro h
    have hcore := callee.hasCore_core
    unfold method? at h
    split at h
    · rename_i hc
      exact .member (hc ▸ hcore) (Key.staticName?_eq_some_iff.mp h)
    · rename_i hc
      exact .superMember (hc ▸ hcore) (Key.staticName?_eq_some_iff.mp h)
    · rename_i hc
      exact .chainMember (hc ▸ hcore) (Key.staticName?_eq_some_iff.mp h)
    · cases h
  · intro h
    cases h with
    | member hc hk | superMember hc hk | chainMember hc hk =>
      have hcore := hasCore_iff.mp hc
      simp only [method?, hcore]
      exact Key.staticName?_eq_some_iff.mpr hk

namespace LintContext

variable {ctx : LintContext}

/-- What is to be found in a leaf. -/
inductive Detects (ctx : LintContext) : Node → Finding → Prop
  | mutation {e value object : Expr} {span place first : Span} {operator name : String}
    {target : Target} (he : e.HasCore (.assign span operator target value))
    (ht : target.Assigns place object) (ho : object.HasCore (.ident first name))
    (hn : name ∈ ctx.params.names) :
    Detects ctx (.expr e) (.parameterMutation (ctx.lines.line place.start) name ctx.function)
  | call {e callee : Expr} {span : Span} {arguments : List Element} {method : String}
    (he : e.HasCore (.call span callee arguments)) (hc : callee.Calls method)
    (hm : method ∈ ctx.blacklist.methods) :
    Detects ctx (.expr e) (.blacklistedCall (ctx.lines.line span.start) method ctx.function)
  | chainCall {e callee : Expr} {span : Span} {arguments : List Element} {optional : Bool}
    {method : String} (he : e.HasCore (.chainCall span callee arguments optional))
    (hc : callee.Calls method) (hm : method ∈ ctx.blacklist.methods) :
    Detects ctx (.expr e) (.blacklistedCall (ctx.lines.line span.start) method ctx.function)

private theorem mutation_eq_some_iff {t : Target} {x : Finding} :
    ctx.mutation t = some x ↔ ∃ place object first name, t.Assigns place object ∧
      object.HasCore (.ident first name) ∧ name ∈ ctx.params.names ∧
      x = .parameterMutation (ctx.lines.line place.start) name ctx.function := by
  simp only [Expr.hasCore_iff, ← Target.member?_eq_some_iff]
  constructor
  · intro h
    unfold mutation at h
    split at h
    · rename_i place object ht
      split at h
      · rename_i first name ho
        split at h
        · rename_i hn
          have hn : name ∈ ctx.params.names := List.contains_iff_mem.mp hn
          cases h
          exact ⟨place, object, first, name, ht, ho, hn, rfl⟩
        · cases h
      · cases h
    · cases h
  · rintro ⟨place, object, first, name, ht, ho, hn, rfl⟩
    have hn : ctx.params.contains name := List.contains_iff_mem.mpr hn
    simp only [mutation, ht, ho, hn, if_true]

private theorem forbiddenCall_eq_some_iff {span : Span} {callee : Expr} {x : Finding} :
    ctx.forbiddenCall span callee = some x ↔ ∃ method, callee.Calls method ∧
      method ∈ ctx.blacklist.methods ∧
      x = .blacklistedCall (ctx.lines.line span.start) method ctx.function := by
  simp only [← Expr.method?_eq_some_iff]
  constructor
  · intro h
    unfold forbiddenCall at h
    split at h
    · rename_i method hc
      split at h
      · rename_i hm
        have hm : method ∈ ctx.blacklist.methods := List.contains_iff_mem.mp hm
        cases h
        exact ⟨method, hc, hm, rfl⟩
      · cases h
    · cases h
  · rintro ⟨method, hc, hm, rfl⟩
    have hm : ctx.blacklist.contains method := List.contains_iff_mem.mpr hm
    simp only [forbiddenCall, hc, hm, if_true]

theorem Detects.find_eq {n : Node} {x : Finding} (h : ctx.Detects n x) : ctx.find n = some x := by
  cases h with
  | mutation he ht ho hn =>
    rw [find, findInExpr, Expr.hasCore_iff.mp he]
    exact mutation_eq_some_iff.mpr ⟨_, _, _, _, ht, ho, hn, rfl⟩
  | call he hc hm =>
    rw [find, findInExpr, Expr.hasCore_iff.mp he]
    exact forbiddenCall_eq_some_iff.mpr ⟨_, hc, hm, rfl⟩
  | chainCall he hc hm =>
    rw [find, findInExpr, Expr.hasCore_iff.mp he]
    exact forbiddenCall_eq_some_iff.mpr ⟨_, hc, hm, rfl⟩

theorem detects_of_find_eq {n : Node} {x : Finding} (h : ctx.find n = some x) :
    ctx.Detects n x := by
  cases n with
  | stmt s => cases h
  | expr e =>
    have he := e.hasCore_core
    rw [find, findInExpr] at h
    split at h
    · rename_i hcore
      obtain ⟨_, _, _, _, ht, ho, hn, rfl⟩ := mutation_eq_some_iff.mp h
      exact .mutation (hcore ▸ he) ht ho hn
    · rename_i hcore
      obtain ⟨_, hc, hm, rfl⟩ := forbiddenCall_eq_some_iff.mp h
      exact .call (hcore ▸ he) hc hm
    · rename_i hcore
      obtain ⟨_, hc, hm, rfl⟩ := forbiddenCall_eq_some_iff.mp h
      exact .chainCall (hcore ▸ he) hc hm
    · cases h

/-- The rules find in a leaf what is to be found there, and that is one thing at most: a leaf is not
both an assignment and a call, and each names one parameter or method at one place. -/
theorem find_eq_some_iff_detects (ctx : LintContext) (n : Node) :
    (∀ x, ctx.find n = some x ↔ ctx.Detects n x) ∧
      ∀ x y, ctx.Detects n x → ctx.Detects n y → x = y := by
  refine ⟨fun x => ⟨detects_of_find_eq, Detects.find_eq⟩, ?_⟩
  intro x y hx hy
  have h : some x = some y := hx.find_eq.symm.trans hy.find_eq
  exact Option.some.inj h

end LintContext

end SideEffectLint
