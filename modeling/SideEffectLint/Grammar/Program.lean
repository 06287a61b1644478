import SideEffectLint.Grammar.Modules

/-!
Reading a whole source text.
-/

namespace SideEffectLint

namespace Grammar

open SideEffectLint.Parser

/-- What each rule reads, given what the rules it refers to read. -/
def derive (g : Grammar) : {α : Type} → Rule α → Parser α
  | _, .assignment => assignment g
  | _, .unary => unary g
  | _, .operators left floor => operators g left floor
  | _, .operand => operand g
  | _, .newOrMember => newOrMember g
  | _, .markup => markup g
  | _, .object => objectLiteral g
  | _, .binding => binding g
  | _, .params => params g
  | _, .type => type g
  | _, .plainType => plainType g
  | _, .typeOperator => typeOperator g
  | _, .statement declarations => statement g declarations
  | _, .conditional => conditional g
  | _, .moduleItem => moduleItem g

/-- The rules with at most `depth` of them inside each other. -/
def upTo : Nat → Grammar
  | 0 => ⟨fun _ => fail .tooDeep⟩
  | depth + 1 => ⟨fun rule => derive (upTo depth) rule⟩

private def skipInterpreter (c : Cursor) : Cursor :=
  match c.rest with
  | '#' :: '!' :: _ => c.dropWhile fun ch => !Text.isLineTerminator ch
  | _ => c

private def items (g : Grammar) : Parser (List ModuleItem) :=
  withDirective <| collect do
    if (← token) == .finish then pure none else some <$> g.run .moduleItem

end Grammar

namespace Module

/-- A rule that refers to another without reading a token does so less often than this in a row. -/
private def rulesPerByte : Nat := 64

/-- Reads a text without a byte order mark. -/
def parse (dialect : Dialect) (text : List Char) : Except SyntaxFault Module :=
  let limit := Cursor.utf8Length text + 2
  let start := Grammar.skipInterpreter ⟨text, 1⟩
  let grammar := Grammar.upTo (Module.rulesPerByte * limit)
  let scope : Scope := { dialect := dialect, limit := limit, inAmbient := dialect.ambient }
  match Grammar.items grammar scope ((State.atStart start).refuseEscapes scope) with
  | .done items _ => .ok ⟨items⟩
  | .failed fault _ _ => .error fault

end Module

end SideEffectLint
