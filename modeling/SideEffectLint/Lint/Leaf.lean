import SideEffectLint.Lint.Finding
import SideEffectLint.Syntax.Tree

/-!
The leaves of a function body: what runs in it, in order, with statements that only hold others
opened. Every other statement is a leaf as a whole. The opening works on a list of nodes to do.
-/

namespace SideEffectLint

/-- A statement or expression of a function body. -/
inductive Node where
  | stmt (value : Stmt)
  | expr (value : Expr)

namespace Case

def test? : Case → Option Expr
  | .mk _ test _ => test

def statements : Case → List Stmt
  | .mk _ _ statements => statements

end Case

namespace Node

def span : Node → Span
  | stmt s => s.span
  | expr e => e.span

private noncomputable def size : Node → Nat
  | stmt s => sizeOf s
  | expr e => sizeOf e

private noncomputable def totalSize : List Node → Nat
  | [] => 0
  | n :: ns => n.size + totalSize ns

private theorem totalSize_append (ns ms : List Node) :
    totalSize (ns ++ ms) = totalSize ns + totalSize ms := by
  induction ns with
  | nil => simp only [List.nil_append, totalSize, Nat.zero_add]
  | cons n ns ih => simp only [List.cons_append, totalSize, ih, Nat.add_assoc]

/-- What a wrapper stands for; `none` for a leaf. A switch stands for its subject, then all tests,
then the statements of all cases. -/
def children? : Node → Option (List Node)
  | stmt (.block _ statements) => some (statements.map stmt)
  | stmt (.labeled _ _ body) => some [stmt body]
  | stmt (.withObject _ _ body) => some [stmt body]
  | stmt (.conditional _ test yes no) => some (expr test :: stmt yes :: no.toList.map stmt)
  | stmt (.switch _ subject cases) =>
    some (expr subject :: (cases.filterMap Case.test?).map expr ++
      (cases.flatMap Case.statements).map stmt)
  | stmt (.expr _ e) => some [expr e]
  | _ => none

private theorem totalSize_stmts_le (ss : List Stmt) : totalSize (ss.map stmt) ≤ sizeOf ss := by
  induction ss with
  | nil => simp only [List.map_nil, totalSize]; omega
  | cons s ss ih => simp only [List.map_cons, totalSize, size, List.cons.sizeOf_spec]; omega

private theorem totalSize_cases_le (cs : List Case) :
    totalSize ((cs.filterMap Case.test?).map expr) +
      totalSize ((cs.flatMap Case.statements).map stmt) ≤ sizeOf cs := by
  induction cs with
  | nil => simp only [List.filterMap_nil, List.flatMap_nil, List.map_nil, totalSize]; omega
  | cons c cs ih =>
    obtain ⟨span, test, statements⟩ := c
    have h := totalSize_stmts_le statements
    cases test <;>
      simp only [List.filterMap_cons, List.flatMap_cons, Case.test?, Case.statements, List.map_cons,
        List.map_append, totalSize, totalSize_append, size, List.cons.sizeOf_spec,
        Case.mk.sizeOf_spec, Option.some.sizeOf_spec, Option.none.sizeOf_spec] at ih h ⊢ <;>
      omega

private theorem size_pos (n : Node) : 0 < n.size := by
  cases n with
  | stmt s => cases s <;> simp only [size, Stmt.block.sizeOf_spec, Stmt.labeled.sizeOf_spec,
      Stmt.withObject.sizeOf_spec, Stmt.conditional.sizeOf_spec, Stmt.switch.sizeOf_spec,
      Stmt.expr.sizeOf_spec, Stmt.function.sizeOf_spec, Stmt.bindings.sizeOf_spec,
      Stmt.other.sizeOf_spec] <;> omega
  | expr e => cases e <;> simp only [size, Expr.ident.sizeOf_spec, Expr.string.sizeOf_spec,
      Expr.array.sizeOf_spec, Expr.object.sizeOf_spec, Expr.paren.sizeOf_spec,
      Expr.typed.sizeOf_spec, Expr.member.sizeOf_spec, Expr.superMember.sizeOf_spec,
      Expr.call.sizeOf_spec, Expr.chainMember.sizeOf_spec, Expr.chainCall.sizeOf_spec,
      Expr.assign.sizeOf_spec, Expr.arrow.sizeOf_spec, Expr.compound.sizeOf_spec,
      Expr.invalid.sizeOf_spec] <;> omega

private theorem totalSize_children_lt {n : Node} {ns : List Node} (h : n.children? = some ns) :
    totalSize ns < n.size := by
  match n, h with
  | stmt (.block _ ss), h =>
    obtain rfl := Option.some.inj h
    have := totalSize_stmts_le ss
    simp only [size, Stmt.block.sizeOf_spec]; omega
  | stmt (.labeled ..), h =>
    obtain rfl := Option.some.inj h
    simp only [totalSize, size, Stmt.labeled.sizeOf_spec]; omega
  | stmt (.withObject ..), h =>
    obtain rfl := Option.some.inj h
    simp only [totalSize, size, Stmt.withObject.sizeOf_spec]; omega
  | stmt (.conditional _ _ _ no), h =>
    obtain rfl := Option.some.inj h
    cases no <;>
      simp only [Option.toList_none, Option.toList_some, List.map_cons, List.map_nil,
        totalSize, size, Stmt.conditional.sizeOf_spec, Option.some.sizeOf_spec,
        Option.none.sizeOf_spec] <;>
      omega
  | stmt (.switch _ _ cs), h =>
    obtain rfl := Option.some.inj h
    have := totalSize_cases_le cs
    simp only [List.cons_append, totalSize, totalSize_append, size, Stmt.switch.sizeOf_spec]; omega
  | stmt (.expr ..), h =>
    obtain rfl := Option.some.inj h
    simp only [totalSize, size, Stmt.expr.sizeOf_spec]; omega

/-- Opens the first node to do, or takes it as a leaf after `found`. -/
def leavesFrom (found : List Node) (todo : List Node) : Except FunctionFault (List Node) :=
  match todo with
  | [] => .ok found.reverse
  | n :: rest =>
    match _ : n.children? with
    | some ns => leavesFrom found (ns ++ rest)
    | none =>
      match n with
      | expr (.invalid span) => .error (.invalidExpression span.start)
      | n => leavesFrom (n :: found) rest
termination_by totalSize todo
decreasing_by
  · rename_i h
    have := totalSize_children_lt h
    simp only [totalSize, totalSize_append]
    omega
  · have := size_pos n
    simp only [totalSize]
    omega

end Node

namespace Body

/-- The leaves of a body, or the first expression reached that is invalid. -/
def leaves : Body → Except FunctionFault (List Node)
  | block _ statements => Node.leavesFrom [] (statements.map .stmt)
  | expr e => Node.leavesFrom [] [.expr e]

end Body

end SideEffectLint
