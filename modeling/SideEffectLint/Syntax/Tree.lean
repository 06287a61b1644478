import SideEffectLint.Source.Span

/-!
The syntax tree of a module. Forms that the lint tells apart have constructors of their own; every
other form is a `compound` expression or an `other` statement, with the pieces it holds in source
order. Every node carries its place.
-/

namespace SideEffectLint

/-- Type syntax, kept as its extent and the names it mentions. -/
structure TypeExpr where
  span : Span
  names : List String
deriving Repr, DecidableEq, Inhabited

/-- A form that gives its operand a type and leaves the value alone. -/
inductive TypedForm where
  | nonNull
  | asType
  | satisfiesType
  | angleBracket
  | asConst
  | instantiation
deriving Repr, DecidableEq, Inhabited

inductive ExprKind where
  | thisValue
  | literal
  | function
  | unary (operator : String)
  | update (operator : String)
  | binary (operator : String)
  | conditional
  | newInstance
  | sequence
  | template
  | taggedTemplate
  | classValue
  | yieldValue
  | metaProperty
  | awaitValue
  | superCall
  | importCall
  | markupElement
  | markupFragment
  | privateName
deriving Repr, DecidableEq, Inhabited

inductive StmtKind where
  | empty
  | debugger
  | returns
  | breaks
  | continues
  | throws
  | tries
  | whileLoop
  | doWhileLoop
  | forLoop
  | forInLoop
  | forOfLoop
  | declaration
deriving Repr, DecidableEq, Inhabited

mutual

inductive Expr where
  | ident (span : Span) (name : String)
  | string (span : Span) (value : String)
  | array (span : Span) (elements : List Element)
  | object (span : Span) (properties : List Property)
  | paren (span : Span) (inner : Expr)
  | typed (span : Span) (form : TypedForm) (operand : Expr) (types : List TypeExpr)
  | member (span : Span) (object : Expr) (key : Key)
  | superMember (span : Span) (key : Key)
  | call (span : Span) (callee : Expr) (arguments : List Element)
  /-- A member access inside an optional chain; `optional` marks the one written `?.`. -/
  | chainMember (span : Span) (object : Expr) (key : Key) (optional : Bool)
  /-- A call inside an optional chain. -/
  | chainCall (span : Span) (callee : Expr) (arguments : List Element) (optional : Bool)
  | assign (span : Span) (operator : String) (target : Target) (value : Expr)
  | arrow (span : Span) (params : List Pattern) (body : Body)
  | compound (span : Span) (kind : ExprKind) (parts : List Part)
  /-- Stands where the text holds no expression. -/
  | invalid (span : Span)

/-- An element of an array or an argument of a call. -/
inductive Element where
  | hole
  | plain (value : Expr)
  | spread (span : Span) (value : Expr)

inductive Property where
  | shorthand (span : Span) (name : String)
  /-- A default such as `name = value`, which only a pattern may hold in the end. -/
  | shorthandDefault (span : Span) (name : String) (value : Expr)
  | keyValue (key : Key) (value : Expr)
  | method (span : Span) (key : Key) (params : List Pattern) (body : Body)
  | spread (span : Span) (value : Expr)

inductive Key where
  | named (span : Span) (name : String)
  | string (span : Span) (value : String)
  | number (span : Span) (text : String)
  | computed (span : Span) (value : Expr)
  | privateName (span : Span) (name : String)

/-- The left side of an assignment. -/
inductive Target where
  | expr (value : Expr)
  | pattern (value : Pattern)

inductive Pattern where
  | ident (span : Span) (name : String) (type : Option TypeExpr)
  | array (span : Span) (elements : List Pattern) (type : Option TypeExpr)
  | object (span : Span) (members : List PatternMember) (type : Option TypeExpr)
  | rest (span : Span) (argument : Pattern) (type : Option TypeExpr)
  | withDefault (span : Span) (left : Pattern) (value : Expr)
  | expr (value : Expr)
  /-- The place of a skipped array element. -/
  | hole
  /-- Stands where the text holds something that binds no name. -/
  | invalid (span : Span)

inductive PatternMember where
  | keyValue (key : Key) (value : Pattern)
  | shorthand (span : Span) (name : String) (value : Option Expr)
  | rest (span : Span) (argument : Pattern)

inductive Body where
  | block (span : Span) (statements : List Stmt)
  | expr (value : Expr)

/-- The body of a function that may be no more than declared. -/
inductive FunctionBlock where
  | missing
  | block (span : Span) (statements : List Stmt)

inductive Stmt where
  | block (span : Span) (statements : List Stmt)
  | labeled (span : Span) (label : String) (body : Stmt)
  | withObject (span : Span) (object : Expr) (body : Stmt)
  | conditional (span : Span) (test : Expr) (consequent : Stmt) (alternate : Option Stmt)
  | switch (span : Span) (subject : Expr) (cases : List Case)
  | expr (span : Span) (value : Expr)
  | function (span : Span) (name : String) (params : List Pattern) (body : FunctionBlock)
  | bindings (span : Span) (declarators : List Declarator)
  | other (span : Span) (kind : StmtKind) (parts : List Part)

/-- One arm of a switch; the default arm has no test. -/
inductive Case where
  | mk (span : Span) (test : Option Expr) (statements : List Stmt)

inductive Declarator where
  | mk (span : Span) (pattern : Pattern) (init : Option Expr)

/-- A piece of a form that the lint does not look into. -/
inductive Part where
  | expr (value : Expr)
  | stmt (value : Stmt)
  | pattern (value : Pattern)
  | function (params : List Pattern) (body : Body)

end

instance : Inhabited Expr := ⟨.invalid default⟩
instance : Inhabited Pattern := ⟨.hole⟩
instance : Inhabited Stmt := ⟨.other default .empty []⟩
instance : Inhabited Body := ⟨.expr default⟩
instance : Inhabited FunctionBlock := ⟨.missing⟩

inductive ModuleItem where
  | stmt (value : Stmt)
  | exportDecl (span : Span) (declaration : Stmt)
  /-- The `span` is that of the function, without `export default`. -/
  | exportDefaultFunction (span : Span) (name : Option String) (params : List Pattern)
      (body : FunctionBlock)
  | other (span : Span) (parts : List Part)

/-- A source text that has been read. -/
structure Module where
  items : List ModuleItem

namespace Expr

def span : Expr → Span
  | ident s _ | string s _ | array s _ | object s _ | paren s _ | typed s .. | member s ..
  | superMember s _ | call s .. | chainMember s .. | chainCall s .. | assign s .. | arrow s ..
  | compound s .. | invalid s => s

end Expr

namespace Key

def span : Key → Span
  | named s _ | string s _ | number s _ | computed s _ | privateName s _ => s

end Key

namespace Stmt

def span : Stmt → Span
  | block s _ | labeled s .. | withObject s .. | conditional s .. | switch s .. | expr s _
  | function s .. | bindings s _ | other s .. => s

end Stmt

end SideEffectLint
