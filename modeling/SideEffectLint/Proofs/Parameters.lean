import SideEffectLint.Lint.Discovery
import SideEffectLint.Lint.Parameters

/-! The pieces of a parameter list, outside in and left to right. The first unsupported piece is the
fault of the list; without one its names are those of the identifiers among the pieces. -/

namespace SideEffectLint

mutual

/-- A pattern and the patterns that it takes values apart into. Keys, defaults and types are no
pieces; a shorthand member is an identifier. -/
def Pattern.pieces : Pattern → List Pattern
  | .array span elements type => .array span elements type :: patternPieces elements
  | .object span members type => .object span members type :: memberPieces members
  | .rest span argument type => .rest span argument type :: argument.pieces
  | .withDefault span left value => .withDefault span left value :: left.pieces
  | p@(.ident ..) | p@(.expr _) | p@.hole | p@(.invalid _) => [p]

def patternPieces : List Pattern → List Pattern
  | [] => []
  | p :: ps => p.pieces ++ patternPieces ps

def memberPieces : List PatternMember → List Pattern
  | [] => []
  | m :: ms => m.pieces ++ memberPieces ms

def PatternMember.pieces : PatternMember → List Pattern
  | .keyValue _ value => value.pieces
  | .shorthand span name _ => [.ident span name none]
  | .rest _ argument => argument.pieces

end

namespace Pattern

/-- A piece that cannot be a parameter. -/
def fault? : Pattern → Option FunctionFault
  | expr e => some (.unsupportedParameter e.span.start)
  | invalid span => some (.unsupportedParameter span.start)
  | _ => none

/-- The names of pieces, or else the first fault among them. -/
def declared (ps : List Pattern) : Except FunctionFault (List String) :=
  match ps.findSome? fault? with
  | none => .ok (ps.filterMap name?)
  | some fault => .error fault

private theorem declared_append (ps qs : List Pattern) :
    declared (ps ++ qs) = (do
      let first ← declared ps
      let rest ← declared qs
      pure (first ++ rest)) := by
  simp only [declared, List.findSome?_append, List.filterMap_append]
  cases ps.findSome? fault? with
  | some fault => rfl
  | none => cases qs.findSome? fault? <;> rfl

/-- A piece that binds nothing by itself adds nothing. -/
private theorem declared_cons {p : Pattern} (hf : p.fault? = none) (hn : p.name? = none)
    (ps : List Pattern) : declared (p :: ps) = declared ps := by
  simp only [declared, List.findSome?_cons, List.filterMap_cons, hf, hn]

end Pattern

mutual

private theorem Pattern.bindings_eq_declared : ∀ p : Pattern, p.bindings = Pattern.declared p.pieces
  | .ident .. | .hole | .expr _ | .invalid _ => rfl
  | .array _ elements _ => by
    rw [Pattern.bindings, Pattern.pieces, Pattern.declared_cons rfl rfl]
    exact patternBindings_eq_declared elements
  | .object _ members _ => by
    rw [Pattern.bindings, Pattern.pieces, Pattern.declared_cons rfl rfl]
    exact memberBindings_eq_declared members
  | .rest _ argument _ => by
    rw [Pattern.bindings, Pattern.pieces, Pattern.declared_cons rfl rfl]
    exact argument.bindings_eq_declared
  | .withDefault _ left _ => by
    rw [Pattern.bindings, Pattern.pieces, Pattern.declared_cons rfl rfl]
    exact left.bindings_eq_declared

/-- Reading the names of a list of patterns is reading them off its pieces. -/
theorem patternBindings_eq_declared : ∀ ps : List Pattern,
    patternBindings ps = Pattern.declared (patternPieces ps)
  | [] => rfl
  | p :: ps => by
    rw [patternBindings, patternPieces, Pattern.declared_append, p.bindings_eq_declared,
      patternBindings_eq_declared ps]

private theorem memberBindings_eq_declared : ∀ ms : List PatternMember,
    memberBindings ms = Pattern.declared (memberPieces ms)
  | [] => rfl
  | m :: ms => by
    rw [memberBindings, memberPieces, Pattern.declared_append, m.bindings_eq_declared,
      memberBindings_eq_declared ms]

private theorem PatternMember.bindings_eq_declared : ∀ m : PatternMember,
    m.bindings = Pattern.declared m.pieces
  | .keyValue _ value => by
    rw [PatternMember.bindings, PatternMember.pieces]
    exact value.bindings_eq_declared
  | .shorthand .. => rfl
  | .rest _ argument => by
    rw [PatternMember.bindings, PatternMember.pieces]
    exact argument.bindings_eq_declared

end

namespace ParameterSet

/-- The names of a parameter list, when it has no fault. -/
def declaredBy (params : List Pattern) : ParameterSet :=
  ⟨(patternPieces params).filterMap Pattern.name?⟩

/-- The parameter set of a list is read off its pieces, or is the first fault among them. -/
theorem ofPatterns_eq (params : List Pattern) :
    ofPatterns params =
      match (patternPieces params).findSome? Pattern.fault? with
      | none => .ok (declaredBy params)
      | some fault => .error fault := by
  rw [ofPatterns, patternBindings_eq_declared, Pattern.declared]
  cases (patternPieces params).findSome? Pattern.fault? <;> rfl

end ParameterSet

end SideEffectLint
