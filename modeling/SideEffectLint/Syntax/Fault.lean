import SideEffectLint.Text.Quoted

/-!
Why a source text cannot be read, each cause with its one wording.
-/

namespace SideEffectLint

inductive SyntaxFault where
  | expressionExpected
  | expected (token found : String)
  | unexpected (found wanted : String)
  | statementEndExpected
  | nameExpected
  | endOfInput
  | identifierAfterNumber
  | emptyParentheses
  | spreadInParentheses
  | lineBreakAfterThrow
  | lineBreakBeforeArrow
  | arrowNotAllowed
  | unterminatedTemplate
  | unterminatedRegExp
  /-- A number of the given radix has no digit where it needs one. -/
  | digitExpected (radix : Nat)
  | exponentExpected
  | powerOfUnary
  | unexpectedCharacter (c : Char)
  | unicodeEscapeExpected
  | badStringEscape
  | octalEscape
  /-- A low line stands where a digit has to be. -/
  | misplacedSeparator
  | mergeMark
  | destructuringWithoutValue
  | invalidTarget
  | notAPattern
  | notAnExpression
  | restNeedsName
  | bindingCannotBeOptional
  /-- An escape sequence lacks the hex digits it needs, told in words. -/
  | badEscape (digits : String)
  | unclosedEscape
  /-- A keyword is written with an escape sequence. -/
  | escapedKeyword (word : String)
  | spaceAfterHash
  | yieldInParams
  | awaitOutsideForOf
  | fieldIsPattern
  /-- A call of `import` has no argument, or more than two. -/
  | importArity
  | importedString (name : String)
  | invalidSuper
  | invalidSuperCall
  | invalidImport
  | constructorInChain
  | multipleDefaults
  | closingTag (name : String)
  | attributeValueExpected
  | emptyAttribute
  | importOutsideModule
  | awaitStar
  | readonlyMethod
  | propertyNamedConstructor
  | asyncConstructor
  /-- The name `await` is declared where it has a meaning. -/
  | awaitAsName
  /-- An element of a tuple type may be left out, but not one after it. -/
  | requiredAfterOptional
  /-- The reader gave up; no text is deep enough for that. -/
  | tooDeep
deriving Repr, DecidableEq, Inhabited

namespace SyntaxFault

private def radixName : Nat → String
  | 2 => "a binary"
  | 8 => "an octal"
  | 16 => "a hexadecimal"
  | _ => "a decimal"

def message : SyntaxFault → String
  | expressionExpected => "Expression expected"
  | expected token found => "Expected '" ++ token ++ "', got '" ++ found ++ "'"
  | unexpected found wanted => "Unexpected token `" ++ found ++ "`. Expected " ++ wanted
  | statementEndExpected => "Expected ';', '\x7d' or <eof>"
  | nameExpected => "Expected ident"
  | endOfInput => "Unexpected eof"
  | identifierAfterNumber => "Identifier cannot follow number"
  | emptyParentheses => "Parenthesized expression cannot be empty"
  | spreadInParentheses => "Parenthesized expression cannot contain spread operator"
  | lineBreakAfterThrow => "LineBreak cannot follow 'throw'"
  | lineBreakBeforeArrow => "Unexpected line break between arrow head and arrow"
  | arrowNotAllowed => "An arrow function is not allowed here"
  | unterminatedTemplate => "Unterminated template"
  | unterminatedRegExp => "Unterminated regexp literal"
  | digitExpected radix => "Expected " ++ radixName radix ++ " digit"
  | exponentExpected => "Expected +, - or decimal digit after e"
  | powerOfUnary => "'**' cannot be applied to unary/await expression."
  | unexpectedCharacter c => "Unexpected character " ++ Text.quotedChar c
  | unicodeEscapeExpected => "Expected unicode escape"
  | badStringEscape => "Invalid string escape"
  | octalEscape => "Legacy octal escape is not permitted in strict mode"
  | misplacedSeparator => "A numeric separator is only allowed between two digits"
  | mergeMark => "Merge conflict marker encountered."
  | destructuringWithoutValue => "Destructuring bindings require initializers"
  | invalidTarget => "Invalid assignment target"
  | notAPattern => "Not a pattern"
  | notAnExpression => "Not an expression"
  | restNeedsName => "`...` must be followed by an identifier in declaration contexts"
  | bindingCannotBeOptional =>
    "A binding pattern parameter cannot be optional in an implementation signature."
  | badEscape digits => "Bad character escape sequence, expected " ++ digits
  | unclosedEscape => "Invalid unicode escape"
  | escapedKeyword word => "Unexpected escape sequence in reserved word: " ++ word
  | spaceAfterHash => "Unexpected space between # and identifier"
  | yieldInParams => "'yield' cannot be used as a parameter within generator"
  | awaitOutsideForOf => "for await syntax is valid only for for-of statement"
  | fieldIsPattern => "Typescript parameter property must be an identifier or assignment pattern"
  | importArity => "`import()` requires exactly one or two arguments"
  | importedString name =>
    "A string literal cannot be used as an imported binding.\n- Did you mean `import \x7b \"" ++
      name ++ "\" as foo \x7d`?"
  | invalidSuper => "Invalid access to super"
  | invalidSuperCall => "Invalid super call"
  | invalidImport => "Import is not allowed here"
  | constructorInChain => "Constructor in/after an optional chaining is not allowed."
  | multipleDefaults => "A switch block cannot have multiple defaults"
  | closingTag name => "Expected corresponding JSX closing tag for <" ++ name ++ ">"
  | attributeValueExpected =>
    "JSX value should be either an expression or a quoted JSX text"
  | emptyAttribute => "JSX attributes must only be assigned a non-empty expression"
  | importOutsideModule => "'import', and 'export' cannot be used outside of module code"
  | awaitStar =>
    "await* has been removed from the async functions proposal. Use Promise.all() instead"
  | readonlyMethod => "A method cannot be readonly"
  | propertyNamedConstructor => "Classes may not have a non-static field named 'constructor'"
  | asyncConstructor => "Constructor can't be an async function"
  | awaitAsName => "`await` cannot be used as an identifier in an async context"
  | requiredAfterOptional => "A required element cannot follow an optional element."
  | tooDeep => "Nesting too deep"

end SyntaxFault

end SideEffectLint
