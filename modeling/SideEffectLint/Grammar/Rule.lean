import SideEffectLint.Grammar.Parser
import SideEffectLint.Syntax.Tree

/-!
The rules of the grammar that refer to each other, as data. The parts of the grammar are written
over a `Grammar` that reads these, and are tied together at the end.
-/

namespace SideEffectLint

/-- What each rule reads is its index. -/
inductive Rule : Type → Type where
  | assignment : Rule Expr
  | unary : Rule Expr
  /-- Operators with their right sides after `left`, which bind tighter than `floor`. -/
  | operators (left : Expr) (floor : Nat) : Rule Expr
  | operand : Rule Expr
  | newOrMember : Rule Expr
  | markup : Rule Expr
  /-- An object from its opening brace. -/
  | object : Rule Expr
  | binding : Rule Pattern
  | params : Rule (List Pattern)
  /-- A type; the result is the names it refers to. -/
  | type : Rule (List String)
  | plainType : Rule (List String)
  | typeOperator : Rule (List String)
  | statement (declarations : Bool) : Rule Stmt
  | conditional : Rule Stmt
  | moduleItem : Rule ModuleItem

structure Grammar where
  run : {α : Type} → Rule α → Parser α

end SideEffectLint
