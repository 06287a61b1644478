import SideEffectLint.Lint.Leaf

/-! The leaves of a body, told by recursion over its statements instead of by a list of nodes to do.
Both reach the same nodes in the same order and stop at the same invalid expression. -/

namespace SideEffectLint

mutual

/-- The nodes that a statement stands for. The object of a `with` and a label stand for none, and
a switch has its tests before the statements of its cases. -/
def Stmt.reached : Stmt → List Node
  | .block _ statements => stmtsReached statements
  | .labeled _ _ body => body.reached
  | .withObject _ _ body => body.reached
  | .conditional _ test yes no => .expr test :: (yes.reached ++ alternateReached no)
  | .switch _ subject cases =>
    .expr subject :: ((cases.filterMap Case.test?).map .expr ++ casesReached cases)
  | .expr _ value => [.expr value]
  | s@(.function ..) | s@(.bindings ..) | s@(.other ..) => [.stmt s]

def stmtsReached : List Stmt → List Node
  | [] => []
  | s :: ss => s.reached ++ stmtsReached ss

def alternateReached : Option Stmt → List Node
  | none => []
  | some s => s.reached

def casesReached : List Case → List Node
  | [] => []
  | .mk _ _ statements :: cs => stmtsReached statements ++ casesReached cs

end

def Node.reached : Node → List Node
  | .stmt s => s.reached
  | .expr e => [.expr e]

def Body.reached : Body → List Node
  | .block _ statements => stmtsReached statements
  | .expr e => [.expr e]

namespace Node

/-- A leaf whose place holds no expression. -/
def fault? : Node → Option FunctionFault
  | expr (.invalid span) => some (.invalidExpression span.start)
  | _ => none

/-- All the nodes, or else the first fault among them. -/
def checked (ns : List Node) : Except FunctionFault (List Node) :=
  match ns.findSome? fault? with
  | none => .ok ns
  | some fault => .error fault

private theorem stmtsReached_eq_flatMap (ss : List Stmt) :
    stmtsReached ss = (ss.map stmt).flatMap reached := by
  induction ss with
  | nil => rfl
  | cons s ss ih => rw [stmtsReached, ih]; rfl

private theorem casesReached_eq_flatMap (cs : List Case) :
    casesReached cs = ((cs.flatMap Case.statements).map stmt).flatMap reached := by
  induction cs with
  | nil => rfl
  | cons c cs ih =>
    obtain ⟨span, test, statements⟩ := c
    rw [casesReached, ih, stmtsReached_eq_flatMap, List.flatMap_cons, List.map_append,
      List.flatMap_append]
    rfl

private theorem alternateReached_eq_flatMap (no : Option Stmt) :
    alternateReached no = (no.toList.map stmt).flatMap reached := by
  cases no with
  | none => rfl
  | some s => exact (List.append_nil _).symm

private theorem exprs_reached (es : List Expr) : (es.map expr).flatMap reached = es.map expr := by
  induction es with
  | nil => rfl
  | cons e es ih => rw [List.map_cons, List.flatMap_cons, ih]; rfl

/-- Opening one wrapper keeps what is reached. -/
theorem reached_of_children {n : Node} {ns : List Node} (h : n.children? = some ns) :
    n.reached = ns.flatMap reached := by
  match n, h with
  | stmt (.block _ ss), h =>
    obtain rfl := Option.some.inj h
    exact stmtsReached_eq_flatMap ss
  | stmt (.labeled _ _ s), h | stmt (.withObject _ _ s), h =>
    obtain rfl := Option.some.inj h
    exact (List.append_nil _).symm
  | stmt (.conditional _ test yes no), h =>
    obtain rfl := Option.some.inj h
    rw [List.flatMap_cons, List.flatMap_cons, ← alternateReached_eq_flatMap]
    rfl
  | stmt (.switch _ subject cases), h =>
    obtain rfl := Option.some.inj h
    rw [List.cons_append, List.flatMap_cons, List.flatMap_append, exprs_reached,
      ← casesReached_eq_flatMap]
    rfl
  | stmt (.expr _ e), h =>
    obtain rfl := Option.some.inj h
    rfl

/-- A leaf is reached as itself, whatever it holds. -/
theorem reached_of_leaf {n : Node} (h : n.children? = none) : n.reached = [n] := by
  match n, h with
  | expr e, _ => rfl
  | stmt (.function ..), _ | stmt (.bindings ..), _ | stmt (.other ..), _ => rfl

private theorem checked_cons {n : Node} (h : n.fault? = none) (ns : List Node) :
    checked (n :: ns) = (checked ns).map (n :: ·) := by
  unfold checked
  rw [List.findSome?_cons, h]
  cases ns.findSome? fault? <;> rfl

private theorem leavesFrom_open (found rest : List Node) {n : Node} {ns : List Node}
    (h : n.children? = some ns) : leavesFrom found (n :: rest) = leavesFrom found (ns ++ rest) := by
  rw [leavesFrom]
  split
  · rename_i ms hm
    rw [h] at hm
    rw [Option.some.inj hm]
  · rename_i hn
    rw [h] at hn
    cases hn

private theorem leavesFrom_leaf (found rest : List Node) {n : Node} (h : n.children? = none)
    (hv : n.fault? = none) : leavesFrom found (n :: rest) = leavesFrom (n :: found) rest := by
  rw [leavesFrom]
  split
  · rename_i ms hm
    rw [h] at hm
    cases hm
  · split
    · cases hv
    · rfl

/-- What is done and what is still to do make up the traversal at every step of the list. -/
theorem leavesFrom_eq (found todo : List Node) :
    leavesFrom found todo = (checked (todo.flatMap reached)).map (found.reverse ++ ·) := by
  induction found, todo using leavesFrom.induct with
  | case1 found =>
    rw [leavesFrom]
    exact congrArg Except.ok (List.append_nil _).symm
  | case2 found n rest ns h ih =>
    rw [leavesFrom_open found rest h, ih, List.flatMap_cons, List.flatMap_append,
      reached_of_children h]
  | case3 found rest span h =>
    rw [leavesFrom, List.flatMap_cons, reached_of_leaf h]
    rfl
  | case4 found rest n h hv ih =>
    have hn : n.fault? = none := by
      unfold fault?
      split
      · exact (hv _ rfl rfl HEq.rfl).elim
      · rfl
    rw [leavesFrom_leaf found rest h hn, ih, List.flatMap_cons, reached_of_leaf h,
      List.singleton_append, checked_cons hn]
    cases checked (rest.flatMap reached) with
    | error fault => rfl
    | ok ns => simp only [Except.map, List.reverse_cons, List.append_assoc, List.singleton_append]

end Node

namespace Body

theorem leaves_eq_checked (b : Body) : b.leaves = Node.checked b.reached := by
  have h (ns : List Node) : (Node.checked ns).map ([] ++ ·) = Node.checked ns := by
    cases Node.checked ns <;> rfl
  cases b with
  | block span statements =>
    rw [leaves, Node.leavesFrom_eq, List.reverse_nil, h, reached, Node.stmtsReached_eq_flatMap]
  | expr e =>
    rw [leaves, Node.leavesFrom_eq, List.reverse_nil, h]
    rfl

end Body

section mapLeaves

variable (onStmt : Stmt → Stmt) (onExpr : Expr → Expr)

mutual

/-- Puts something else in the place of every leaf, and nothing in that of labels and of objects
of `with`. -/
def Stmt.mapLeaves : Stmt → Stmt
  | .block span statements => .block span (stmtsMapLeaves statements)
  | .labeled span _ body => .labeled span "" body.mapLeaves
  | .withObject span _ body => .withObject span default body.mapLeaves
  | .conditional span test yes no =>
    .conditional span (onExpr test) yes.mapLeaves (alternateMapLeaves no)
  | .switch span subject cases => .switch span (onExpr subject) (casesMapLeaves cases)
  | .expr span value => .expr span (onExpr value)
  | s@(.function ..) | s@(.bindings ..) | s@(.other ..) => onStmt s

def stmtsMapLeaves : List Stmt → List Stmt
  | [] => []
  | s :: ss => s.mapLeaves :: stmtsMapLeaves ss

def alternateMapLeaves : Option Stmt → Option Stmt
  | none => none
  | some s => some s.mapLeaves

def casesMapLeaves : List Case → List Case
  | [] => []
  | .mk span test statements :: cs =>
    .mk span (test.map onExpr) (stmtsMapLeaves statements) :: casesMapLeaves cs

end

def Node.mapLeaf : Node → Node
  | .stmt s => .stmt (onStmt s)
  | .expr e => .expr (onExpr e)

def Body.mapLeaves : Body → Body
  | .block span statements => .block span (stmtsMapLeaves onStmt onExpr statements)
  | .expr e => .expr (onExpr e)

variable {onStmt onExpr}

private theorem tests_casesMapLeaves (cs : List Case) :
    ((casesMapLeaves onStmt onExpr cs).filterMap Case.test?).map Node.expr =
      ((cs.filterMap Case.test?).map Node.expr).map (Node.mapLeaf onStmt onExpr) := by
  induction cs with
  | nil => rfl
  | cons c cs ih =>
    obtain ⟨span, test, statements⟩ := c
    cases test with
    | none => exact ih
    | some e => exact congrArg (Node.expr (onExpr e) :: ·) ih

/-- What is put in the place of a statement leaf is a leaf again. -/
def Stmt.KeepsLeaves (onStmt : Stmt → Stmt) : Prop :=
  ∀ s, (onStmt s).reached = [.stmt (onStmt s)]

mutual

/-- Leaves put in the place of leaves are reached in their stead. -/
theorem Stmt.reached_mapLeaves (h : Stmt.KeepsLeaves onStmt) : ∀ s : Stmt,
    (s.mapLeaves onStmt onExpr).reached = s.reached.map (Node.mapLeaf onStmt onExpr)
  | .block _ ss => stmtsReached_mapLeaves h ss
  | .labeled _ _ s => s.reached_mapLeaves h
  | .withObject _ _ s => s.reached_mapLeaves h
  | .conditional _ test yes no => by
    simp only [Stmt.mapLeaves, Stmt.reached, yes.reached_mapLeaves h,
      alternateReached_mapLeaves h no, List.map_cons, List.map_append, Node.mapLeaf]
  | .switch _ subject cs => by
    simp only [Stmt.mapLeaves, Stmt.reached, tests_casesMapLeaves, casesReached_mapLeaves h cs,
      List.map_cons, List.map_append, Node.mapLeaf]
  | .expr _ e => rfl
  | .function .. => h _
  | .bindings .. => h _
  | .other .. => h _

private theorem stmtsReached_mapLeaves (h : Stmt.KeepsLeaves onStmt) : ∀ ss : List Stmt,
    stmtsReached (stmtsMapLeaves onStmt onExpr ss) =
      (stmtsReached ss).map (Node.mapLeaf onStmt onExpr)
  | [] => rfl
  | s :: ss => by
    rw [stmtsMapLeaves, stmtsReached, stmtsReached, s.reached_mapLeaves h,
      stmtsReached_mapLeaves h ss, List.map_append]

private theorem alternateReached_mapLeaves (h : Stmt.KeepsLeaves onStmt) : ∀ no : Option Stmt,
    alternateReached (alternateMapLeaves onStmt onExpr no) =
      (alternateReached no).map (Node.mapLeaf onStmt onExpr)
  | none => rfl
  | some s => s.reached_mapLeaves h

private theorem casesReached_mapLeaves (h : Stmt.KeepsLeaves onStmt) : ∀ cs : List Case,
    casesReached (casesMapLeaves onStmt onExpr cs) =
      (casesReached cs).map (Node.mapLeaf onStmt onExpr)
  | [] => rfl
  | .mk _ _ ss :: cs => by
    rw [casesMapLeaves, casesReached, casesReached, stmtsReached_mapLeaves h ss,
      casesReached_mapLeaves h cs, List.map_append]

end

private theorem Body.reached_mapLeaves (h : Stmt.KeepsLeaves onStmt) (b : Body) :
    (b.mapLeaves onStmt onExpr).reached = b.reached.map (Node.mapLeaf onStmt onExpr) := by
  cases b with
  | block span statements => exact stmtsReached_mapLeaves h statements
  | expr e => rfl

/-- Leaves with the faults that were there before are the leaves of the new body. -/
theorem Body.leaves_mapLeaves (hs : Stmt.KeepsLeaves onStmt)
    (he : ∀ e, (Node.expr (onExpr e)).fault? = (Node.expr e).fault?) (b : Body) :
    (b.mapLeaves onStmt onExpr).leaves = b.leaves.map (List.map (Node.mapLeaf onStmt onExpr)) := by
  have hf : Node.fault? ∘ Node.mapLeaf onStmt onExpr = Node.fault? := by
    funext n
    cases n with
    | stmt s => rfl
    | expr e => exact he e
  rw [leaves_eq_checked, leaves_eq_checked, reached_mapLeaves hs, Node.checked, Node.checked,
    List.findSome?_map, hf]
  cases b.reached.findSome? Node.fault? <;> rfl

end mapLeaves

/-- A leaf of the same extent with nothing in it. -/
def Stmt.emptied (s : Stmt) : Stmt :=
  .other s.span .empty []

def Expr.emptied : Expr → Expr
  | .invalid span => .invalid span
  | e => .ident e.span ""

namespace Node

theorem fault?_eq_some_iff {n : Node} {fault : FunctionFault} :
    n.fault? = some fault ↔
      ∃ span, n = expr (.invalid span) ∧ fault = .invalidExpression span.start := by
  constructor
  · intro h
    match n, h with
    | expr (.invalid span), h => exact ⟨span, rfl, (Option.some.inj h).symm⟩
  · rintro ⟨span, rfl, rfl⟩
    rfl

/-- The fault is that of the first invalid expression, whatever comes after it. -/
theorem checked_eq_error_iff (ns : List Node) (fault : FunctionFault) :
    checked ns = .error fault ↔ ∃ before span after,
      ns = before ++ expr (.invalid span) :: after ∧ (∀ n ∈ before, n.fault? = none) ∧
        fault = .invalidExpression span.start := by
  have hc : checked ns = .error fault ↔ ns.findSome? fault? = some fault := by
    unfold checked
    cases ns.findSome? fault? <;> simp
  rw [hc, List.findSome?_eq_some_iff]
  constructor
  · rintro ⟨before, n, after, rfl, hn, hb⟩
    obtain ⟨span, rfl, rfl⟩ := fault?_eq_some_iff.mp hn
    exact ⟨before, span, after, rfl, hb, rfl⟩
  · rintro ⟨before, span, after, rfl, hb, rfl⟩
    exact ⟨before, _, after, rfl, rfl, hb⟩

end Node

/-- The list of nodes to do gives what the traversal gives: all that is reached, or the fault of
the first invalid expression among it. What leaves and objects of `with` hold has no part in it. -/
theorem Body.leaves_eq_traversal (b : Body) :
    b.leaves = Node.checked b.reached ∧
    (∀ fault, b.leaves = .error fault ↔ ∃ before span after,
      b.reached = before ++ .expr (.invalid span) :: after ∧
        (∀ n ∈ before, n.fault? = none) ∧ fault = .invalidExpression span.start) ∧
    (b.mapLeaves Stmt.emptied Expr.emptied).leaves =
      b.leaves.map (List.map (Node.mapLeaf Stmt.emptied Expr.emptied)) := by
  refine ⟨b.leaves_eq_checked, fun fault => ?_, ?_⟩
  · rw [b.leaves_eq_checked]
    exact Node.checked_eq_error_iff b.reached fault
  · exact leaves_mapLeaves (fun _ => rfl) (fun e => by cases e <;> rfl) b

end SideEffectLint
