import SideEffectLint.Syntax.Fault

/-!
Tokens, and the classes of words that the grammar tells apart.
-/

namespace SideEffectLint

inductive Token where
  /-- Punctuation and operators, by their text. -/
  | mark (text : String)
  /-- A name or keyword; one that starts with an escape is never a keyword. -/
  | word (text : String) (escaped : Bool)
  | string (value : String)
  | number (text : String)
  | bigInt (text : String)
  /-- A template up to its first substitution, or all of it if it has none, with the last bad escape
  sequence in that. -/
  | template (hasSubstitution : Bool) (fault : Option SyntaxFault)
  | regExp (flags : String)
  | markupText
  /-- Text that is no token. -/
  | bad (fault : SyntaxFault)
  | finish
deriving Repr, DecidableEq, Inhabited

namespace Token

/-- Words that are never names. -/
def reserved : List String :=
  ["break", "case", "catch", "class", "const", "continue", "debugger", "default", "delete", "do",
   "else", "export", "extends", "false", "finally", "for", "function", "if", "import", "in",
   "instanceof", "new", "null", "return", "super", "switch", "this", "throw", "true", "try",
   "typeof", "var", "void", "while", "with"]

/-- Words with a meaning in some places, and names in others. -/
def contextual : List String :=
  ["abstract", "accessor", "any", "as", "asserts", "assert", "async", "await", "bigint", "boolean",
   "declare", "enum", "from", "get", "global", "implements", "infer", "interface", "intrinsic",
   "is", "keyof", "let", "meta", "namespace", "never", "number", "object", "of", "out",
   "override", "package", "private", "protected", "public", "readonly", "require", "satisfies",
   "set", "static", "string", "symbol", "target", "type", "undefined", "unique", "unknown", "using",
   "yield"]

/-- The word is told apart from other names. -/
def isKnown (text : String) : Bool :=
  reserved.contains text || contextual.contains text

def isWord : Token → Bool
  | word .. => true
  | _ => false

/-- A word that is told apart, as messages show it. -/
def shownWord : String → String
  | "instanceof" => "instanceOf"
  | "typeof" => "typeOf"
  | text => text

/-- The token as messages show it. -/
def shown : Token → String
  | mark "*=" => "*"
  | mark text => text
  | word text escaped => if isKnown text && !escaped then shownWord text else "ident"
  | string _ => "string literal"
  | number _ => "numeric literal"
  | bigInt _ => "bigint literal"
  | template false _ => "no substitution template literal"
  | template true _ => "template head"
  | regExp _ => "regexp literal"
  | markupText => "jsx text"
  | bad _ => "<lexing error>"
  | finish => "<eof>"

/-- The token as messages about types show it. -/
def kind : Token → String
  | word text escaped => if isKnown text && !escaped then shownWord text else "<identifier>"
  | string _ => "<string literal>"
  | number _ => "<number literal>"
  | bigInt _ => "<bigint literal>"
  | template false _ => "<template literal>"
  | template true _ => "<template head `...$\x7b>"
  | regExp _ => "<regexp literal>"
  | markupText => "<jsx text>"
  | bad _ => "<error>"
  | t => t.shown

end Token

end SideEffectLint
