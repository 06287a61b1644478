import SideEffectLint.Proofs.Sighting

/-! The outline of a module keeps the shape and the places that the lint goes by and drops what is
opaque to it. A module and its outline have the same report, so modules of one outline do. -/

namespace SideEffectLint

/-- What an expression stands for where it stands. -/
inductive Position where
  | value
  /-- Called, also from within parentheses and assertions. -/
  | callee
  /-- Assigned to, also from within parentheses and assertions. -/
  | assigned
deriving Repr, DecidableEq, Inhabited

/-- Stands where any expression may stand. -/
def Expr.blank : Expr := .compound default .thisValue []

/-- Stands where any key may stand. -/
def Key.blank : Key := .named default ""

mutual

/-- Drops the arguments of calls, the receivers of methods that are called, the operators and right
sides of assignments and the keys of members that are assigned to, and whatever is inside of
literals, functions and other forms. -/
def Expr.outline (pos : Position) : Expr → Expr
  | .ident span name => .ident span name
  | .string span value => .string span value
  | .array span _ => .array span []
  | .object span _ => .object span []
  | .paren span inner => .paren span (inner.outline pos)
  | .typed span form operand _ => .typed span form (operand.outline pos) []
  | .member span object key =>
    match pos with
    | .value => .member span (object.outline .value) key.outline
    | .callee => .member span .blank key.outline
    | .assigned => .member span (object.outline .value) .blank
  | .superMember span key =>
    match pos with
    | .assigned => .superMember span .blank
    | _ => .superMember span key.outline
  | .call span callee _ => .call span (callee.outline .callee) []
  | .chainMember span object key optional =>
    match pos with
    | .value => .chainMember span (object.outline .value) key.outline optional
    | .callee => .chainMember span .blank key.outline optional
    | .assigned => .chainMember span (object.outline .value) .blank optional
  | .chainCall span callee _ optional => .chainCall span (callee.outline .callee) [] optional
  | .assign span _ target _ => .assign span "" target.outline .blank
  | .arrow span _ _ => .arrow span [] (.expr .blank)
  | .compound span kind _ => .compound span kind []
  | .invalid span => .invalid span

def Key.outline : Key → Key
  | .computed span value => .computed span (value.outline .value)
  | .named span name => .named span name
  | .string span value => .string span value
  | .number span text => .number span text
  | .privateName span name => .privateName span name

def Target.outline : Target → Target
  | .expr value => .expr (value.outline .assigned)
  | .pattern _ => .pattern .hole

end

/-- An assignment, call or optional chain. A call of `super` or `import` is none, as it names no
method. -/
def Expr.isEffect : Expr → Bool
  | .assign .. | .call .. | .chainMember .. | .chainCall .. => true
  | _ => false

/-- Neither invalid nor an effect, also not one in parentheses and assertions. -/
def Expr.isInert (e : Expr) : Bool :=
  (Node.expr e).fault?.isNone && !e.core.isEffect

/-- One inert leaf is as good as any other. -/
def Expr.outlineLeaf (e : Expr) : Expr :=
  if e.isInert then .blank else e.outline .value

/-- One statement leaf is as good as any other. -/
def Stmt.blankLeaf : Stmt := .other default .empty []

def Body.outline : Body → Body :=
  Body.mapLeaves (fun _ => .blankLeaf) Expr.outlineLeaf

mutual

/-- Drops defaults, types and the keys of key-value members. -/
def Pattern.outline : Pattern → Pattern
  | .ident span name _ => .ident span name none
  | .array span elements _ => .array span (patternsOutline elements) none
  | .object span members _ => .object span (membersOutline members) none
  | .rest span argument _ => .rest span argument.outline none
  | .withDefault span left _ => .withDefault span left.outline .blank
  | .expr value => .expr (value.outline .value)
  | .hole => .hole
  | .invalid span => .invalid span

def patternsOutline : List Pattern → List Pattern
  | [] => []
  | p :: ps => p.outline :: patternsOutline ps

def membersOutline : List PatternMember → List PatternMember
  | [] => []
  | m :: ms => m.outline :: membersOutline ms

def PatternMember.outline : PatternMember → PatternMember
  | .keyValue _ value => .keyValue .blank value.outline
  | .shorthand span name _ => .shorthand span name none
  | .rest span argument => .rest span argument.outline

end

/-- The value of a variable; an arrow function keeps the outline of its own. -/
def Expr.outlineInit : Expr → Expr
  | .paren span inner => .paren span inner.outlineInit
  | .arrow span params body => .arrow span (patternsOutline params) body.outline
  | e => e.outline .value

def Declarator.outline : Declarator → Declarator
  | .mk span pattern init => .mk span pattern.outline (init.map Expr.outlineInit)

def FunctionBlock.outline : FunctionBlock → FunctionBlock
  | .missing => .missing
  | .block span statements =>
    .block span (stmtsMapLeaves (fun _ => .blankLeaf) Expr.outlineLeaf statements)

def Stmt.outlineDeclaration : Stmt → Stmt
  | .function span name params body => .function span name (patternsOutline params) body.outline
  | .bindings span declarators => .bindings span (declarators.map Declarator.outline)
  | s => s

/-- One item without functions is as good as any other. -/
def ModuleItem.outline (item : ModuleItem) : ModuleItem :=
  if item.functions.isEmpty then .other default []
  else match item with
    | .stmt s => .stmt s.outlineDeclaration
    | .exportDecl span s => .exportDecl span s.outlineDeclaration
    | .exportDefaultFunction span name params body =>
      .exportDefaultFunction span name (patternsOutline params) body.outline
    | .other _ _ => .other default []

def Module.outline (m : Module) : Module :=
  ⟨m.items.map ModuleItem.outline⟩

namespace Expr

private theorem span_outline (pos : Position) (e : Expr) : (e.outline pos).span = e.span := by
  cases e <;> cases pos <;> rfl

/-- Wrappers stay where they are. -/
theorem core_outline (pos : Position) : ∀ e : Expr, (e.outline pos).core = e.core.outline pos
  | paren _ inner => by
    rw [outline, core, core, inner.core_outline pos]
  | typed span form operand types => by
    rw [outline, core, core]
    by_cases h : form.isAssertion
    · rw [if_pos h, if_pos h, operand.core_outline pos]
    · rw [if_neg h, if_neg h, outline]
  | member .. | superMember .. | chainMember .. => by cases pos <;> rfl
  | ident .. | string .. | array .. | object .. | call .. | chainCall .. | assign .. | arrow ..
  | compound .. | invalid .. => rfl

private theorem name?_outline (e : Expr) : (e.outline .value).name? = e.name? := by
  rw [name?, name?, core_outline]
  cases e.core <;> rfl

private theorem stringValue?_outline (e : Expr) : (e.outline .value).stringValue? = e.stringValue? := by
  rw [stringValue?, stringValue?, core_outline]
  cases e.core <;> rfl

end Expr

private theorem Key.staticName?_outline (k : Key) : k.outline.staticName? = k.staticName? := by
  cases k with
  | computed span value => exact value.stringValue?_outline
  | _ => rfl

private theorem Expr.method?_outline (callee : Expr) :
    (callee.outline .callee).method? = callee.method? := by
  rw [method?, method?, core_outline]
  cases callee.core with
  | member span object key => exact key.staticName?_outline
  | superMember span key => exact key.staticName?_outline
  | chainMember span object key optional => exact key.staticName?_outline
  | _ => rfl

private theorem Target.sighting?_outline (t : Target) : t.outline.sighting? = t.sighting? := by
  rw [sighting?, sighting?]
  cases t with
  | pattern p => rfl
  | expr e =>
    cases e with
    | member span object key =>
      exact congrArg (Option.map (Sighting.mutation span)) object.name?_outline
    | paren span inner =>
      simp only [Target.outline, Expr.outline, member?, Expr.core_outline]
      cases inner.core with
      | member span object key =>
        exact congrArg (Option.map (Sighting.mutation span)) object.name?_outline
      | _ => rfl
    | _ => rfl

/-- The outline shows the rules what the expression shows them. -/
theorem Expr.sighting?_outline (e : Expr) : (e.outline .value).sighting? = e.sighting? := by
  rw [sighting?, sighting?, core_outline]
  cases e.core with
  | assign span operator target value => exact target.sighting?_outline
  | call span callee arguments =>
    exact congrArg (Option.map (Sighting.call span)) callee.method?_outline
  | chainCall span callee arguments optional =>
    exact congrArg (Option.map (Sighting.call span)) callee.method?_outline
  | _ => rfl

private theorem Expr.sighting?_of_isInert {e : Expr} (h : e.isInert = true) : e.sighting? = none := by
  have hc : e.core.isEffect = false := by
    simp only [isInert, Bool.and_eq_true, Bool.not_eq_true'] at h
    exact h.2
  rw [sighting?]
  cases hk : e.core with
  | assign span operator target value => rw [hk] at hc; cases hc
  | call span callee arguments => rw [hk] at hc; cases hc
  | chainCall span callee arguments optional => rw [hk] at hc; cases hc
  | _ => rfl

private theorem Expr.fault?_of_isInert {e : Expr} (h : e.isInert = true) :
    (Node.expr e).fault? = none := by
  simp only [isInert, Bool.and_eq_true, Option.isNone_iff_eq_none] at h
  exact h.1

namespace Expr

private theorem sighting?_outlineLeaf (e : Expr) : e.outlineLeaf.sighting? = e.sighting? := by
  rw [outlineLeaf]
  split
  · rename_i h
    exact (sighting?_of_isInert h).symm
  · exact e.sighting?_outline

private theorem fault?_outlineLeaf (e : Expr) :
    (Node.expr e.outlineLeaf).fault? = (Node.expr e).fault? := by
  rw [outlineLeaf]
  split
  · rename_i h
    exact (fault?_of_isInert h).symm
  · cases e <;> rfl

private theorem unparenthesized_outlineInit : ∀ e : Expr,
    e.outlineInit.unparenthesized = e.unparenthesized.outlineInit
  | paren _ inner => inner.unparenthesized_outlineInit
  | ident .. | string .. | array .. | object .. | typed .. | member .. | superMember ..
  | call .. | chainMember .. | chainCall .. | assign .. | arrow .. | compound .. | invalid .. => rfl

end Expr

namespace LintContext

private theorem find_outline (ctx : LintContext) (n : Node) :
    ctx.find (Node.mapLeaf (fun _ => .blankLeaf) Expr.outlineLeaf n) = ctx.find n := by
  rw [find_eq, find_eq]
  cases n with
  | stmt s => rfl
  | expr e => rw [Node.mapLeaf, Node.sighting?, Node.sighting?, e.sighting?_outlineLeaf]

end LintContext

private theorem Body.leaves_outline (b : Body) :
    b.outline.leaves =
      b.leaves.map (List.map (Node.mapLeaf (fun _ => .blankLeaf) Expr.outlineLeaf)) :=
  leaves_mapLeaves (fun _ => rfl) Expr.fault?_outlineLeaf b

mutual

private theorem Pattern.bindings_outline : ∀ p : Pattern, p.outline.bindings = p.bindings
  | .ident .. | .hole | .invalid _ => rfl
  | .array _ elements _ => by
    rw [Pattern.outline, Pattern.bindings, Pattern.bindings, patternBindings_outline elements]
  | .object _ members _ => by
    rw [Pattern.outline, Pattern.bindings, Pattern.bindings, memberBindings_outline members]
  | .rest _ argument _ => by
    rw [Pattern.outline, Pattern.bindings, Pattern.bindings, argument.bindings_outline]
  | .withDefault _ left _ => by
    rw [Pattern.outline, Pattern.bindings, Pattern.bindings, left.bindings_outline]
  | .expr value => by
    rw [Pattern.outline, Pattern.bindings, Pattern.bindings, value.span_outline]

theorem patternBindings_outline : ∀ ps : List Pattern,
    patternBindings (patternsOutline ps) = patternBindings ps
  | [] => rfl
  | p :: ps => by
    rw [patternsOutline, patternBindings, patternBindings, p.bindings_outline,
      patternBindings_outline ps]

private theorem memberBindings_outline : ∀ ms : List PatternMember,
    memberBindings (membersOutline ms) = memberBindings ms
  | [] => rfl
  | m :: ms => by
    rw [membersOutline, memberBindings, memberBindings, m.bindings_outline,
      memberBindings_outline ms]

private theorem PatternMember.bindings_outline : ∀ m : PatternMember, m.outline.bindings = m.bindings
  | .keyValue _ value => by
    rw [PatternMember.outline, PatternMember.bindings, PatternMember.bindings,
      value.bindings_outline]
  | .shorthand .. => rfl
  | .rest _ argument => by
    rw [PatternMember.outline, PatternMember.bindings, PatternMember.bindings,
      argument.bindings_outline]

end

namespace FoundFunction

def outline (f : FoundFunction) : FoundFunction :=
  ⟨f.name, patternsOutline f.params, f.span, f.body.outline⟩

/-- A function is linted by its outline. -/
theorem lint_outline (f : FoundFunction) (blacklist : Blacklist) (lines : LineMap) :
    f.outline.lint blacklist lines = f.lint blacklist lines := by
  rw [lint, lint, ParameterSet.ofPatterns, ParameterSet.ofPatterns, outline,
    patternBindings_outline, Body.leaves_outline]
  cases patternBindings f.params with
  | error fault => rfl
  | ok names =>
    cases f.body.leaves with
    | error fault => rfl
    | ok leaves =>
      have hf (ctx : LintContext) : (leaves.map
          (Node.mapLeaf (fun _ => .blankLeaf) Expr.outlineLeaf)).filterMap ctx.find =
            leaves.filterMap ctx.find := by
        rw [List.filterMap_map]
        exact congrArg (leaves.filterMap ·) (funext ctx.find_outline)
      exact congrArg Except.ok (hf _)

end FoundFunction

private theorem Pattern.name?_outline (p : Pattern) : p.outline.name? = p.name? := by
  cases p <;> rfl

private theorem Declarator.function?_outline (d : Declarator) :
    d.outline.function? = d.function?.map FoundFunction.outline := by
  obtain ⟨span, pattern, init⟩ := d
  cases init with
  | none => rfl
  | some e =>
    simp only [outline, function?, Option.map_some, e.unparenthesized_outlineInit,
      pattern.name?_outline]
    cases e.unparenthesized <;> rfl

private theorem FunctionBlock.function?_outline (b : FunctionBlock) (name : Option String)
    (params : List Pattern) (span : Span) :
    (b.outline.function? name (patternsOutline params) span).toList =
      (b.function? name params span).toList.map FoundFunction.outline := by
  cases b <;> rfl

private theorem Stmt.functions_outlineDeclaration (s : Stmt) :
    s.outlineDeclaration.functions = s.functions.map FoundFunction.outline := by
  cases s with
  | bindings span declarators =>
    rw [outlineDeclaration, functions, functions, List.filterMap_map, List.map_filterMap]
    exact congrArg (declarators.filterMap ·) (funext Declarator.function?_outline)
  | function span name params body => exact body.function?_outline (some name) params span
  | _ => rfl

private theorem ModuleItem.functions_outline (item : ModuleItem) :
    item.outline.functions = item.functions.map FoundFunction.outline := by
  unfold outline
  split
  · rename_i h
    rw [List.isEmpty_iff.mp h]
    rfl
  · cases item with
    | stmt s => exact s.functions_outlineDeclaration
    | exportDecl span s => exact s.functions_outlineDeclaration
    | exportDefaultFunction span name params body =>
      exact body.function?_outline name params span
    | other => rfl

namespace Module

private theorem functions_outline (m : Module) :
    m.outline.functions = m.functions.map FoundFunction.outline := by
  rw [outline, functions, functions, List.flatMap_map, List.map_flatMap]
  exact congrArg (m.items.flatMap ·) (funext ModuleItem.functions_outline)

private theorem report_outline (m : Module) (file : String) (blacklist : Blacklist) (lines : LineMap) :
    m.outline.report file blacklist lines = m.report file blacklist lines := by
  have hf (f : FoundFunction) :
      f.outline.findings blacklist lines = f.findings blacklist lines := by
    rw [FoundFunction.findings, FoundFunction.findings, f.lint_outline]
  have hs (f : FoundFunction) :
      f.outline.skipped? blacklist lines = f.skipped? blacklist lines := by
    rw [FoundFunction.skipped?, FoundFunction.skipped?, f.lint_outline]
    rfl
  simp only [report, functions_outline, List.flatMap_map, List.filterMap_map, Function.comp_def,
    hf, hs]

/-- Modules of the same outline have the same report. They may differ, at any number of places, in
all that an outline drops. -/
theorem report_eq_of_outline_eq {m m' : Module} (h : m.outline = m'.outline) (file : String)
    (blacklist : Blacklist) (lines : LineMap) :
    m.report file blacklist lines = m'.report file blacklist lines := by
  rw [← m.report_outline, ← m'.report_outline, h]

/-- The item, then a function with the parameters `{ key: x }` and `y = value` and the body
`leaf; x.key operator value; with (value) label: value.push(arguments)`. -/
private def sample (item : ModuleItem) (key : Key) (value : Expr) (leaf : Stmt)
    (operator label : String) (arguments : List Element) : Module :=
  ⟨[item, .stmt (.function ⟨20, 99⟩ "f"
    [.object ⟨31, 41⟩ [.keyValue key (.ident ⟨38, 39⟩ "x" none)] none,
      .withDefault ⟨43, 50⟩ (.ident ⟨43, 44⟩ "y" none) value]
    (.block ⟨52, 99⟩ [leaf,
      .expr ⟨61, 70⟩ (.assign ⟨61, 69⟩ operator
        (.expr (.member ⟨61, 64⟩ (.ident ⟨61, 62⟩ "x") key)) value),
      .withObject ⟨71, 98⟩ value (.labeled ⟨80, 98⟩ label (.expr ⟨84, 98⟩
        (.call ⟨84, 97⟩ (.member ⟨84, 90⟩ value (.named ⟨86, 90⟩ "push")) arguments)))]))]⟩

theorem sample_report_eq :
    let m := sample (.other ⟨1, 11⟩ []) (.named ⟨32, 33⟩ "a") (.ident ⟨45, 46⟩ "z")
      (.other ⟨54, 60⟩ .whileLoop [.expr (.ident ⟨55, 56⟩ "y")]) "=" "l" []
    let m' := sample (.stmt (.function ⟨1, 15⟩ "h" [.ident ⟨12, 13⟩ "z" none] .missing))
      (.computed ⟨32, 35⟩ (.ident ⟨33, 34⟩ "w")) (.invalid ⟨45, 45⟩)
      (.function ⟨54, 60⟩ "g" [] (.block ⟨58, 60⟩ [])) "+=" "k" [.plain (.string ⟨90, 93⟩ "s")]
    m.outline = m'.outline ∧
      m.report "a.js" .arrayMutators ⟨[50, 70]⟩ = m'.report "a.js" .arrayMutators ⟨[50, 70]⟩ ∧
      (m.report "a.js" .arrayMutators ⟨[50, 70]⟩).findings =
        [.parameterMutation 2 "x" ⟨some "f", 1⟩, .blacklistedCall 3 "push" ⟨some "f", 1⟩] := by
  intro m m'
  have h : m.outline = m'.outline := rfl
  refine ⟨h, report_eq_of_outline_eq h "a.js" .arrayMutators ⟨[50, 70]⟩, ?_⟩
  change m.functions.flatMap (·.findings .arrayMutators ⟨[50, 70]⟩) = _
  simp only [FoundFunction.findings_eq]
  rfl

end Module

end SideEffectLint
