import SideEffectLint.Proofs.Sighting

/-! Trees without type syntax. What is found in a leaf is found in it without its types as well.
More is found there only where the rules do not see through type syntax: they stop at an
instantiation, and at any typed form that is assigned to without parentheses. -/

namespace SideEffectLint

mutual

/-- Without the typed forms at every depth, also where one is assigned to. -/
def Expr.untyped : Expr → Expr
  | .ident span name => .ident span name
  | .string span value => .string span value
  | .array span elements => .array span (elementsUntyped elements)
  | .object span properties => .object span (propertiesUntyped properties)
  | .paren span inner => .paren span inner.untyped
  | .typed _ _ operand _ => operand.untyped
  | .member span object key => .member span object.untyped key.untyped
  | .superMember span key => .superMember span key.untyped
  | .call span callee arguments => .call span callee.untyped (elementsUntyped arguments)
  | .chainMember span object key optional => .chainMember span object.untyped key.untyped optional
  | .chainCall span callee arguments optional =>
    .chainCall span callee.untyped (elementsUntyped arguments) optional
  | .assign span operator target value => .assign span operator target.untyped value.untyped
  | .arrow span params body => .arrow span (patternsUntyped params) body.untyped
  | .compound span kind parts => .compound span kind (partsUntyped parts)
  | .invalid span => .invalid span

def Expr.untypedOptional : Option Expr → Option Expr
  | none => none
  | some e => some e.untyped

def Element.untyped : Element → Element
  | .hole => .hole
  | .plain value => .plain value.untyped
  | .spread span value => .spread span value.untyped

def elementsUntyped : List Element → List Element
  | [] => []
  | e :: es => e.untyped :: elementsUntyped es

def Property.untyped : Property → Property
  | .shorthand span name => .shorthand span name
  | .shorthandDefault span name value => .shorthandDefault span name value.untyped
  | .keyValue key value => .keyValue key.untyped value.untyped
  | .method span key params body => .method span key.untyped (patternsUntyped params) body.untyped
  | .spread span value => .spread span value.untyped

def propertiesUntyped : List Property → List Property
  | [] => []
  | p :: ps => p.untyped :: propertiesUntyped ps

def Key.untyped : Key → Key
  | .named span name => .named span name
  | .string span value => .string span value
  | .number span text => .number span text
  | .computed span value => .computed span value.untyped
  | .privateName span name => .privateName span name

def Target.untyped : Target → Target
  | .expr value => .expr value.untyped
  | .pattern value => .pattern value.untyped

def Pattern.untyped : Pattern → Pattern
  | .ident span name type => .ident span name type
  | .array span elements type => .array span (patternsUntyped elements) type
  | .object span members type => .object span (membersUntyped members) type
  | .rest span argument type => .rest span argument.untyped type
  | .withDefault span left value => .withDefault span left.untyped value.untyped
  | .expr value => .expr value.untyped
  | .hole => .hole
  | .invalid span => .invalid span

def patternsUntyped : List Pattern → List Pattern
  | [] => []
  | p :: ps => p.untyped :: patternsUntyped ps

def PatternMember.untyped : PatternMember → PatternMember
  | .keyValue key value => .keyValue key.untyped value.untyped
  | .shorthand span name value => .shorthand span name (Expr.untypedOptional value)
  | .rest span argument => .rest span argument.untyped

def membersUntyped : List PatternMember → List PatternMember
  | [] => []
  | m :: ms => m.untyped :: membersUntyped ms

def Body.untyped : Body → Body
  | .block span statements => .block span (stmtsUntyped statements)
  | .expr value => .expr value.untyped

def FunctionBlock.untyped : FunctionBlock → FunctionBlock
  | .missing => .missing
  | .block span statements => .block span (stmtsUntyped statements)

def Stmt.untyped : Stmt → Stmt
  | .block span statements => .block span (stmtsUntyped statements)
  | .labeled span label body => .labeled span label body.untyped
  | .withObject span object body => .withObject span object.untyped body.untyped
  | .conditional span test yes no =>
    .conditional span test.untyped yes.untyped (Stmt.untypedOptional no)
  | .switch span subject cases => .switch span subject.untyped (casesUntyped cases)
  | .expr span value => .expr span value.untyped
  | .function span name params body => .function span name (patternsUntyped params) body.untyped
  | .bindings span declarators => .bindings span (declaratorsUntyped declarators)
  | .other span kind parts => .other span kind (partsUntyped parts)

def stmtsUntyped : List Stmt → List Stmt
  | [] => []
  | s :: ss => s.untyped :: stmtsUntyped ss

def Stmt.untypedOptional : Option Stmt → Option Stmt
  | none => none
  | some s => some s.untyped

def casesUntyped : List Case → List Case
  | [] => []
  | .mk span test statements :: cs =>
    .mk span (Expr.untypedOptional test) (stmtsUntyped statements) :: casesUntyped cs

def declaratorsUntyped : List Declarator → List Declarator
  | [] => []
  | .mk span pattern init :: ds =>
    .mk span pattern.untyped (Expr.untypedOptional init) :: declaratorsUntyped ds

def Part.untyped : Part → Part
  | .expr value => .expr value.untyped
  | .stmt value => .stmt value.untyped
  | .pattern value => .pattern value.untyped
  | .function params body => .function (patternsUntyped params) body.untyped

def partsUntyped : List Part → List Part
  | [] => []
  | p :: ps => p.untyped :: partsUntyped ps

end

def Expr.isWrapped : Expr → Bool
  | .paren .. | .typed .. => true
  | _ => false

/-- The rules come to an instantiation and look no further. -/
def Expr.isVeiled (e : Expr) : Bool :=
  e.core.isWrapped

def Key.isVeiled : Key → Bool
  | .computed _ value => value.isVeiled
  | _ => false

/-- The callee shows no method because of type syntax. -/
def Expr.isVeiledCallee (callee : Expr) : Bool :=
  match callee.core with
  | .member _ _ key | .superMember _ key | .chainMember _ _ key _ => key.isVeiled
  | c => c.isWrapped

/-- The target shows no member of a variable because of type syntax. -/
def Target.isVeiled : Target → Bool
  | .expr (.typed ..) => true
  | .expr (.member _ object _) => object.isVeiled
  | .expr (.paren _ inner) =>
    match inner.core with
    | .member _ object _ => object.isVeiled
    | c => c.isWrapped
  | _ => false

/-- The leaf shows no assignment or method call because of type syntax. -/
def Expr.isVeiledEffect (e : Expr) : Bool :=
  match e.core with
  | .assign _ _ target _ => target.isVeiled
  | .call _ callee _ | .chainCall _ callee _ _ => callee.isVeiledCallee
  | c => c.isWrapped

private theorem Expr.core_untyped : ∀ e : Expr, e.untyped.core = e.core.untyped.core
  | paren _ inner => by
    rw [untyped, core, core, inner.core_untyped]
  | typed span form operand types => by
    rw [core]
    split
    · exact operand.core_untyped
    · rfl
  | ident .. | string .. | array .. | object .. | member .. | superMember .. | call ..
  | chainMember .. | chainCall .. | assign .. | arrow .. | compound .. | invalid .. => rfl

private theorem Expr.name?_eq (e : Expr) : e.name? = if e.isVeiled then none else e.untyped.name? := by
  rw [name?, name?, isVeiled, core_untyped]
  cases e.core <;> rfl

private theorem Expr.stringValue?_eq (e : Expr) :
    e.stringValue? = if e.isVeiled then none else e.untyped.stringValue? := by
  rw [stringValue?, stringValue?, isVeiled, core_untyped]
  cases e.core <;> rfl

private theorem Key.staticName?_eq (k : Key) :
    k.staticName? = if k.isVeiled then none else k.untyped.staticName? := by
  cases k with
  | computed span value => exact value.stringValue?_eq
  | _ => rfl

private theorem Expr.method?_eq (callee : Expr) :
    callee.method? = if callee.isVeiledCallee then none else callee.untyped.method? := by
  rw [method?, method?, isVeiledCallee, core_untyped]
  cases callee.core with
  | member span object key => exact key.staticName?_eq
  | superMember span key => exact key.staticName?_eq
  | chainMember span object key optional => exact key.staticName?_eq
  | _ => rfl

private theorem map_eq_of_veil {α β : Type} {f : α → β} {veil : Bool} {typed untyped : Option α}
    (h : typed = if veil then none else untyped) :
    typed.map f = if veil then none else untyped.map f := by
  rw [h]
  cases veil <;> rfl

private theorem Target.sighting?_eq (t : Target) :
    t.sighting? = if t.isVeiled then none else t.untyped.sighting? := by
  cases t with
  | pattern p => rfl
  | expr e =>
    cases e with
    | member span object key => exact map_eq_of_veil object.name?_eq
    | paren parens inner =>
      rw [sighting?, sighting?, untyped, Expr.untyped, member?, member?, isVeiled,
        Expr.core_untyped]
      cases inner.core with
      | member span object key => exact map_eq_of_veil object.name?_eq
      | _ => rfl
    | _ => rfl

private theorem Expr.sighting?_eq (e : Expr) :
    e.sighting? = if e.isVeiledEffect then none else e.untyped.sighting? := by
  rw [sighting?, sighting?, isVeiledEffect, core_untyped]
  cases e.core with
  | assign span operator target value => exact target.sighting?_eq
  | call span callee arguments => exact map_eq_of_veil callee.method?_eq
  | chainCall span callee arguments optional => exact map_eq_of_veil callee.method?_eq
  | _ => rfl

namespace LintContext

variable (ctx : LintContext)

private theorem find_eq_of_veil (e : Expr) :
    ctx.find (.expr e) = if e.isVeiledEffect then none else ctx.find (.expr e.untyped) := by
  rw [find_eq, find_eq, Node.sighting?, Node.sighting?, e.sighting?_eq]
  cases e.isVeiledEffect <;> rfl

/-- What is found in a leaf is found in it without its types. The converse fails only at a veiled
leaf, in which nothing is found. -/
theorem find_untyped (e : Expr) :
    (∀ x, ctx.find (.expr e) = some x → ctx.find (.expr e.untyped) = some x) ∧
      (ctx.find (.expr e.untyped) = ctx.find (.expr e) ↔
        e.isVeiledEffect = false ∨ ctx.find (.expr e.untyped) = none) := by
  rw [ctx.find_eq_of_veil e]
  cases e.isVeiledEffect with
  | false => exact ⟨fun _ hx => hx, fun _ => .inl rfl, fun _ => rfl⟩
  | true =>
    refine ⟨nofun, fun h => .inr h, ?_⟩
    rintro (h | h)
    · cases h
    · exact h

/-- Nothing is found in `x.y! = 1` and `(x.push<number>)(1)`, though there is without the types. -/
theorem find_untyped_ne :
    let ctx : LintContext := ⟨⟨["x"]⟩, .arrayMutators, ⟨some "f", 1⟩, ⟨[]⟩⟩
    let assigned : Expr := .assign ⟨17, 25⟩ "="
      (.expr (.typed ⟨17, 21⟩ .nonNull
        (.member ⟨17, 20⟩ (.ident ⟨17, 18⟩ "x") (.named ⟨19, 20⟩ "y")) []))
      (.compound ⟨24, 25⟩ .literal [])
    let called : Expr := .call ⟨27, 46⟩
      (.paren ⟨27, 43⟩ (.typed ⟨28, 42⟩ .instantiation
        (.member ⟨28, 34⟩ (.ident ⟨28, 29⟩ "x") (.named ⟨30, 34⟩ "push")) [⟨⟨35, 41⟩, []⟩]))
      [.plain (.compound ⟨44, 45⟩ .literal [])]
    ctx.find (.expr assigned) = none ∧
      ctx.find (.expr assigned.untyped) = some (.parameterMutation 1 "x" ⟨some "f", 1⟩) ∧
      ctx.find (.expr called) = none ∧
      ctx.find (.expr called.untyped) = some (.blacklistedCall 1 "push" ⟨some "f", 1⟩) :=
  ⟨rfl, rfl, rfl, rfl⟩

end LintContext

end SideEffectLint
