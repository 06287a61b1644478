import SideEffectLint.Proofs.Sighting

/-! Trees with other places and other names of variables. Every stage of the lint up to what the
rules see goes by the shape of the tree, so it gives the same with the labels exchanged. -/

namespace SideEffectLint

/-- What to put for the labels of a tree. Keys, labels of statements and names of functions stay. -/
structure Relabeling where
  place : Span → Span
  /-- For a variable that is used. -/
  name : String → String
  /-- For a variable that a pattern binds. -/
  binding : String → String

variable (r : Relabeling)

def TypeExpr.relabel (t : TypeExpr) : TypeExpr :=
  ⟨r.place t.span, t.names⟩

mutual

def Expr.relabel : Expr → Expr
  | .ident span name => .ident (r.place span) (r.name name)
  | .string span value => .string (r.place span) value
  | .array span elements => .array (r.place span) (elementsRelabel elements)
  | .object span properties => .object (r.place span) (propertiesRelabel properties)
  | .paren span inner => .paren (r.place span) inner.relabel
  | .typed span form operand types =>
    .typed (r.place span) form operand.relabel (types.map (TypeExpr.relabel r))
  | .member span object key => .member (r.place span) object.relabel key.relabel
  | .superMember span key => .superMember (r.place span) key.relabel
  | .call span callee arguments => .call (r.place span) callee.relabel (elementsRelabel arguments)
  | .chainMember span object key optional =>
    .chainMember (r.place span) object.relabel key.relabel optional
  | .chainCall span callee arguments optional =>
    .chainCall (r.place span) callee.relabel (elementsRelabel arguments) optional
  | .assign span operator target value =>
    .assign (r.place span) operator target.relabel value.relabel
  | .arrow span params body => .arrow (r.place span) (patternsRelabel params) body.relabel
  | .compound span kind parts => .compound (r.place span) kind (partsRelabel parts)
  | .invalid span => .invalid (r.place span)

def Expr.relabelOptional : Option Expr → Option Expr
  | none => none
  | some e => some e.relabel

def Element.relabel : Element → Element
  | .hole => .hole
  | .plain value => .plain value.relabel
  | .spread span value => .spread (r.place span) value.relabel

def elementsRelabel : List Element → List Element
  | [] => []
  | e :: es => e.relabel :: elementsRelabel es

def Property.relabel : Property → Property
  | .shorthand span name => .shorthand (r.place span) name
  | .shorthandDefault span name value => .shorthandDefault (r.place span) name value.relabel
  | .keyValue key value => .keyValue key.relabel value.relabel
  | .method span key params body =>
    .method (r.place span) key.relabel (patternsRelabel params) body.relabel
  | .spread span value => .spread (r.place span) value.relabel

def propertiesRelabel : List Property → List Property
  | [] => []
  | p :: ps => p.relabel :: propertiesRelabel ps

def Key.relabel : Key → Key
  | .named span name => .named (r.place span) name
  | .string span value => .string (r.place span) value
  | .number span text => .number (r.place span) text
  | .computed span value => .computed (r.place span) value.relabel
  | .privateName span name => .privateName (r.place span) name

def Target.relabel : Target → Target
  | .expr value => .expr value.relabel
  | .pattern value => .pattern value.relabel

def Pattern.relabel : Pattern → Pattern
  | .ident span name type =>
    .ident (r.place span) (r.binding name) (type.map (TypeExpr.relabel r))
  | .array span elements type =>
    .array (r.place span) (patternsRelabel elements) (type.map (TypeExpr.relabel r))
  | .object span members type =>
    .object (r.place span) (membersRelabel members) (type.map (TypeExpr.relabel r))
  | .rest span argument type =>
    .rest (r.place span) argument.relabel (type.map (TypeExpr.relabel r))
  | .withDefault span left value => .withDefault (r.place span) left.relabel value.relabel
  | .expr value => .expr value.relabel
  | .hole => .hole
  | .invalid span => .invalid (r.place span)

def patternsRelabel : List Pattern → List Pattern
  | [] => []
  | p :: ps => p.relabel :: patternsRelabel ps

def PatternMember.relabel : PatternMember → PatternMember
  | .keyValue key value => .keyValue key.relabel value.relabel
  | .shorthand span name value =>
    .shorthand (r.place span) (r.binding name) (Expr.relabelOptional value)
  | .rest span argument => .rest (r.place span) argument.relabel

def membersRelabel : List PatternMember → List PatternMember
  | [] => []
  | m :: ms => m.relabel :: membersRelabel ms

def Body.relabel : Body → Body
  | .block span statements => .block (r.place span) (stmtsRelabel statements)
  | .expr value => .expr value.relabel

def FunctionBlock.relabel : FunctionBlock → FunctionBlock
  | .missing => .missing
  | .block span statements => .block (r.place span) (stmtsRelabel statements)

def Stmt.relabel : Stmt → Stmt
  | .block span statements => .block (r.place span) (stmtsRelabel statements)
  | .labeled span label body => .labeled (r.place span) label body.relabel
  | .withObject span object body => .withObject (r.place span) object.relabel body.relabel
  | .conditional span test yes no =>
    .conditional (r.place span) test.relabel yes.relabel (Stmt.relabelOptional no)
  | .switch span subject cases => .switch (r.place span) subject.relabel (casesRelabel cases)
  | .expr span value => .expr (r.place span) value.relabel
  | .function span name params body =>
    .function (r.place span) name (patternsRelabel params) body.relabel
  | .bindings span declarators => .bindings (r.place span) (declaratorsRelabel declarators)
  | .other span kind parts => .other (r.place span) kind (partsRelabel parts)

def stmtsRelabel : List Stmt → List Stmt
  | [] => []
  | s :: ss => s.relabel :: stmtsRelabel ss

def Stmt.relabelOptional : Option Stmt → Option Stmt
  | none => none
  | some s => some s.relabel

def casesRelabel : List Case → List Case
  | [] => []
  | .mk span test statements :: cs =>
    .mk (r.place span) (Expr.relabelOptional test) (stmtsRelabel statements) :: casesRelabel cs

def declaratorsRelabel : List Declarator → List Declarator
  | [] => []
  | .mk span pattern init :: ds =>
    .mk (r.place span) pattern.relabel (Expr.relabelOptional init) :: declaratorsRelabel ds

def Part.relabel : Part → Part
  | .expr value => .expr value.relabel
  | .stmt value => .stmt value.relabel
  | .pattern value => .pattern value.relabel
  | .function params body => .function (patternsRelabel params) body.relabel

def partsRelabel : List Part → List Part
  | [] => []
  | p :: ps => p.relabel :: partsRelabel ps

end

variable {r}

namespace Expr

private theorem core_relabel : ∀ e : Expr, (e.relabel r).core = e.core.relabel r
  | paren _ inner => by
    rw [relabel, core, core, inner.core_relabel]
  | typed span form operand types => by
    rw [relabel, core, core]
    by_cases h : form.isAssertion
    · rw [if_pos h, if_pos h, operand.core_relabel]
    · rw [if_neg h, if_neg h, relabel]
  | ident .. | string .. | array .. | object .. | member .. | superMember .. | call ..
  | chainMember .. | chainCall .. | assign .. | arrow .. | compound .. | invalid .. => rfl

private theorem unparenthesized_relabel : ∀ e : Expr,
    (e.relabel r).unparenthesized = e.unparenthesized.relabel r
  | paren _ inner => by
    rw [relabel, unparenthesized, unparenthesized, inner.unparenthesized_relabel]
  | ident .. | string .. | array .. | object .. | typed .. | member .. | superMember ..
  | call .. | chainMember .. | chainCall .. | assign .. | arrow .. | compound .. | invalid .. => rfl

private theorem name?_relabel (e : Expr) : (e.relabel r).name? = e.name?.map r.name := by
  rw [name?, name?, core_relabel]
  cases e.core <;> rfl

private theorem stringValue?_relabel (e : Expr) : (e.relabel r).stringValue? = e.stringValue? := by
  rw [stringValue?, stringValue?, core_relabel]
  cases e.core <;> rfl

end Expr

private theorem Key.staticName?_relabel (k : Key) : (k.relabel r).staticName? = k.staticName? := by
  cases k with
  | computed span value => exact value.stringValue?_relabel
  | _ => rfl

private theorem Expr.method?_relabel (callee : Expr) : (callee.relabel r).method? = callee.method? := by
  rw [method?, method?, core_relabel]
  cases callee.core with
  | member span object key => exact key.staticName?_relabel
  | superMember span key => exact key.staticName?_relabel
  | chainMember span object key optional => exact key.staticName?_relabel
  | _ => rfl

private theorem Target.member?_relabel (t : Target) :
    (t.relabel r).member? = t.member?.map fun m => (r.place m.1, m.2.relabel r) := by
  cases t with
  | pattern p => rfl
  | expr e =>
    cases e with
    | paren span inner =>
      simp only [relabel, Expr.relabel, member?, Expr.core_relabel]
      cases inner.core <;> rfl
    | _ => rfl

variable (r) in
def Sighting.relabel : Sighting → Sighting
  | mutation span parameter => mutation (r.place span) (r.name parameter)
  | call span method => call (r.place span) method

theorem Target.sighting?_relabel (t : Target) :
    (t.relabel r).sighting? = t.sighting?.map (Sighting.relabel r) := by
  rw [sighting?, sighting?, member?_relabel]
  cases t.member? with
  | none => rfl
  | some m =>
    simp only [Option.map_some, Expr.name?_relabel, Option.map_map]
    rfl

/-- The rules see the same thing, of another name and at another place. -/
theorem Expr.sighting?_relabel (e : Expr) :
    (e.relabel r).sighting? = e.sighting?.map (Sighting.relabel r) := by
  have hc (span : Span) (callee : Expr) : (callee.relabel r).method?.map
      (Sighting.call (r.place span)) =
        (callee.method?.map (Sighting.call span)).map (Sighting.relabel r) := by
    rw [method?_relabel, Option.map_map]
    rfl
  rw [sighting?, sighting?, core_relabel]
  cases e.core with
  | assign span operator target value => exact target.sighting?_relabel
  | call span callee arguments => exact hc span callee
  | chainCall span callee arguments optional => exact hc span callee
  | _ => rfl

variable (r) in
def Node.relabel : Node → Node
  | .stmt s => .stmt (s.relabel r)
  | .expr e => .expr (e.relabel r)

theorem Node.sighting?_relabel (n : Node) :
    (n.relabel r).sighting? = n.sighting?.map (Sighting.relabel r) := by
  cases n with
  | stmt s => rfl
  | expr e => exact e.sighting?_relabel

private theorem tests_casesRelabel (cs : List Case) :
    ((casesRelabel r cs).filterMap Case.test?).map Node.expr =
      ((cs.filterMap Case.test?).map Node.expr).map (Node.relabel r) := by
  induction cs with
  | nil => rfl
  | cons c cs ih =>
    obtain ⟨span, test, statements⟩ := c
    cases test with
    | none => exact ih
    | some e => exact congrArg (Node.expr (e.relabel r) :: ·) ih

mutual

theorem Stmt.reached_relabel : ∀ s : Stmt,
    (s.relabel r).reached = s.reached.map (Node.relabel r)
  | .block _ ss => stmtsReached_relabel ss
  | .labeled _ _ s => s.reached_relabel
  | .withObject _ _ s => s.reached_relabel
  | .conditional _ test yes no => by
    simp only [Stmt.relabel, Stmt.reached, yes.reached_relabel, alternateReached_relabel no,
      List.map_cons, List.map_append, Node.relabel]
  | .switch _ subject cs => by
    simp only [Stmt.relabel, Stmt.reached, tests_casesRelabel, casesReached_relabel cs,
      List.map_cons, List.map_append, Node.relabel]
  | .expr .. | .function .. | .bindings .. | .other .. => rfl

private theorem stmtsReached_relabel : ∀ ss : List Stmt,
    stmtsReached (stmtsRelabel r ss) = (stmtsReached ss).map (Node.relabel r)
  | [] => rfl
  | s :: ss => by
    rw [stmtsRelabel, stmtsReached, stmtsReached, s.reached_relabel, stmtsReached_relabel ss,
      List.map_append]

private theorem alternateReached_relabel : ∀ no : Option Stmt,
    alternateReached (Stmt.relabelOptional r no) = (alternateReached no).map (Node.relabel r)
  | none => rfl
  | some s => s.reached_relabel

private theorem casesReached_relabel : ∀ cs : List Case,
    casesReached (casesRelabel r cs) = (casesReached cs).map (Node.relabel r)
  | [] => rfl
  | .mk _ _ ss :: cs => by
    rw [casesRelabel, casesReached, casesReached, stmtsReached_relabel ss,
      casesReached_relabel cs, List.map_append]

end

theorem Body.reached_relabel (b : Body) :
    (b.relabel r).reached = b.reached.map (Node.relabel r) := by
  cases b with
  | block span statements => exact stmtsReached_relabel statements
  | expr e => rfl

mutual

private theorem Pattern.pieces_relabel : ∀ p : Pattern,
    (p.relabel r).pieces = p.pieces.map (Pattern.relabel r)
  | .ident .. | .hole | .expr _ | .invalid _ => rfl
  | .array _ elements _ => congrArg (_ :: ·) (patternPieces_relabel elements)
  | .object _ members _ => congrArg (_ :: ·) (memberPieces_relabel members)
  | .rest _ argument _ => congrArg (_ :: ·) argument.pieces_relabel
  | .withDefault _ left _ => congrArg (_ :: ·) left.pieces_relabel

theorem patternPieces_relabel : ∀ ps : List Pattern,
    patternPieces (patternsRelabel r ps) = (patternPieces ps).map (Pattern.relabel r)
  | [] => rfl
  | p :: ps => by
    rw [patternsRelabel, patternPieces, patternPieces, p.pieces_relabel, patternPieces_relabel ps,
      List.map_append]

private theorem memberPieces_relabel : ∀ ms : List PatternMember,
    memberPieces (membersRelabel r ms) = (memberPieces ms).map (Pattern.relabel r)
  | [] => rfl
  | m :: ms => by
    rw [membersRelabel, memberPieces, memberPieces, m.pieces_relabel, memberPieces_relabel ms,
      List.map_append]

private theorem PatternMember.pieces_relabel : ∀ m : PatternMember,
    (m.relabel r).pieces = m.pieces.map (Pattern.relabel r)
  | .keyValue _ value => value.pieces_relabel
  | .shorthand .. => rfl
  | .rest _ argument => argument.pieces_relabel

end

/-- A fault of the same kind at no place. -/
def FunctionFault.unplaced : FunctionFault → FunctionFault
  | unsupportedParameter _ => unsupportedParameter 0
  | invalidExpression _ => invalidExpression 0

theorem Pattern.fault?_relabel (p : Pattern) :
    (p.relabel r).fault?.map FunctionFault.unplaced = p.fault?.map FunctionFault.unplaced := by
  cases p <;> rfl

private theorem Pattern.name?_relabel (p : Pattern) : (p.relabel r).name? = p.name?.map r.binding := by
  cases p <;> rfl

theorem Node.fault?_relabel (n : Node) :
    (n.relabel r).fault?.map FunctionFault.unplaced = n.fault?.map FunctionFault.unplaced := by
  cases n with
  | stmt s => rfl
  | expr e => cases e <;> rfl

namespace FoundFunction

variable (r) in
/-- The name of the function stays. -/
def relabel (f : FoundFunction) : FoundFunction :=
  ⟨f.name, patternsRelabel r f.params, r.place f.span, f.body.relabel r⟩

private theorem findSome?_map_unplaced {α : Type} {fault? : α → Option FunctionFault} {g : α → α}
    (h : ∀ a, (fault? (g a)).map FunctionFault.unplaced = (fault? a).map FunctionFault.unplaced)
    (as : List α) : ((as.map g).findSome? fault?).map FunctionFault.unplaced =
      (as.findSome? fault?).map FunctionFault.unplaced := by
  rw [List.map_findSome?, List.map_findSome?, List.findSome?_map]
  exact congrArg (as.findSome? ·) (funext h)

/-- The same kind of fault comes first. -/
theorem fault?_relabel (f : FoundFunction) :
    (f.relabel r).fault?.map FunctionFault.unplaced = f.fault?.map FunctionFault.unplaced := by
  rw [fault?, fault?, relabel, patternPieces_relabel, Body.reached_relabel, Option.map_or,
    Option.map_or, findSome?_map_unplaced Pattern.fault?_relabel,
    findSome?_map_unplaced Node.fault?_relabel]

theorem declaredBy_relabel (params : List Pattern) :
    (ParameterSet.declaredBy (patternsRelabel r params)).names =
      (ParameterSet.declaredBy params).names.map r.binding := by
  simp only [ParameterSet.declaredBy, patternPieces_relabel, List.filterMap_map, List.map_filterMap,
    Function.comp_def, Pattern.name?_relabel]

private theorem contains_map_of_injective {g : String → String} (hi : Function.Injective g)
    (names : List String) (name : String) :
    (names.map g).contains (g name) = names.contains name := by
  induction names with
  | nil => rfl
  | cons n ns ih =>
    have he : (g name == g n) = (name == n) := by
      rw [Bool.eq_iff_iff, beq_iff_eq, beq_iff_eq]
      exact ⟨fun h => hi h, congrArg g⟩
    rw [List.map_cons, List.contains_cons, List.contains_cons, he, ih]

private theorem isBlamed_relabel (hi : Function.Injective r.name) (hb : r.binding = r.name)
    (params : List Pattern) (blacklist : Blacklist) (s : Sighting) :
    (s.relabel r).isBlamed (.declaredBy (patternsRelabel r params)) blacklist =
      s.isBlamed (.declaredBy params) blacklist := by
  cases s with
  | call span method => rfl
  | mutation span parameter =>
    simp only [Sighting.relabel, Sighting.isBlamed, ParameterSet.contains, declaredBy_relabel, hb]
    exact contains_map_of_injective hi _ parameter

/-- What is to blame stays so when no two names that are used become one. -/
theorem sightings_relabel (hi : Function.Injective r.name) (hb : r.binding = r.name)
    (f : FoundFunction) (blacklist : Blacklist) :
    (f.relabel r).sightings blacklist = (f.sightings blacklist).map (Sighting.relabel r) := by
  have hs : (f.body.reached.map (Node.relabel r)).filterMap Node.sighting? =
      (f.body.reached.filterMap Node.sighting?).map (Sighting.relabel r) := by
    rw [List.filterMap_map, List.map_filterMap]
    exact congrArg (f.body.reached.filterMap ·) (funext Node.sighting?_relabel)
  have hf : Sighting.isBlamed (.declaredBy (patternsRelabel r f.params)) blacklist ∘
      Sighting.relabel r = Sighting.isBlamed (.declaredBy f.params) blacklist :=
    funext (isBlamed_relabel hi hb f.params blacklist)
  rw [sightings, sightings, relabel, Body.reached_relabel, hs, List.filter_map, hf]

end FoundFunction

namespace Relabeling

/-- Only places are exchanged. -/
def ofPlaces (place : Span → Span) : Relabeling :=
  ⟨place, id, id⟩

end Relabeling

section Module

variable (r)

def ModuleItem.relabel : ModuleItem → ModuleItem
  | .stmt s => .stmt (s.relabel r)
  | .exportDecl span s => .exportDecl (r.place span) (s.relabel r)
  | .exportDefaultFunction span name params body =>
    .exportDefaultFunction (r.place span) name (patternsRelabel r params) (body.relabel r)
  | .other span parts => .other (r.place span) (partsRelabel r parts)

def Module.relabel (m : Module) : Module :=
  ⟨m.items.map (ModuleItem.relabel r)⟩

end Module

variable (hb : r.binding = id)
include hb

private theorem function?_relabel (span : Span) (pattern : Pattern) (init : Option Expr) :
    (Declarator.mk (r.place span) (pattern.relabel r) (Expr.relabelOptional r init)).function? =
      (Declarator.mk span pattern init).function?.map (FoundFunction.relabel r) := by
  cases init with
  | none => rfl
  | some e =>
    simp only [Expr.relabelOptional, Declarator.function?, e.unparenthesized_relabel,
      pattern.name?_relabel, hb, Option.map_id_fun, id_eq]
    cases e.unparenthesized <;> rfl

private theorem functions_declaratorsRelabel (ds : List Declarator) :
    (declaratorsRelabel r ds).filterMap Declarator.function? =
      (ds.filterMap Declarator.function?).map (FoundFunction.relabel r) := by
  induction ds with
  | nil => rfl
  | cons d ds ih =>
    obtain ⟨span, pattern, init⟩ := d
    rw [declaratorsRelabel, List.filterMap_cons, List.filterMap_cons, ih,
      function?_relabel hb span pattern init]
    cases (Declarator.mk span pattern init).function? <;> rfl

omit hb in
private theorem FunctionBlock.function?_relabel (b : FunctionBlock) (name : Option String)
    (params : List Pattern) (span : Span) :
    ((b.relabel r).function? name (patternsRelabel r params) (r.place span)).toList =
      (b.function? name params span).toList.map (FoundFunction.relabel r) := by
  cases b <;> rfl

theorem Stmt.functions_relabel (s : Stmt) :
    (s.relabel r).functions = s.functions.map (FoundFunction.relabel r) := by
  cases s with
  | bindings span declarators => exact functions_declaratorsRelabel hb declarators
  | function span name params body => exact body.function?_relabel (some name) params span
  | _ => rfl

/-- The functions of a module are found at their new places under their old names. -/
theorem Module.functions_relabel (m : Module) :
    (m.relabel r).functions = m.functions.map (FoundFunction.relabel r) := by
  have hf : ModuleItem.functions ∘ ModuleItem.relabel r =
      List.map (FoundFunction.relabel r) ∘ ModuleItem.functions := by
    funext item
    cases item with
    | stmt s => exact s.functions_relabel hb
    | exportDecl span s => exact s.functions_relabel hb
    | exportDefaultFunction span name params body =>
      exact body.function?_relabel name params span
    | other => rfl
  rw [relabel, functions, functions, List.flatMap_map, List.map_flatMap]
  exact congrArg (m.items.flatMap ·) hf

end SideEffectLint
