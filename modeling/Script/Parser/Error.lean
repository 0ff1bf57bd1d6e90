import Script.CallStack

/-!
# `Parser.Error` — why a program cannot be read
-/

namespace Script

/-- What the parser missed, or found where it may not stand. -/
inductive ParserFault where
  | expectedNewline
  | expectedIdentifier
  | expectedOpeningBrace
  | expectedClosingBrace
  | expectedFunctionName
  | expectedParen
  | expectedParameter
  | unclosedParen
  | maxParameters
  | maxArguments
  | expectedSemicolon
  | expectedInit
  | expectedIn
  | expectedCatch
  | onlyInsideLoop
  | unclosedBracket
  | unclosedDict
  | expectedColon
  | undefinedStatement
  | unclosedSlice
  | expectedProperty
  | unclosedArguments
  | undefinedExpression
  | expectedDot
  /-- The parser left a function that it was not in. -/
  | internal (fault : FrameFault)
  deriving Repr, DecidableEq

/-- A fault and the line it was found on. -/
structure ParserError where
  fault : ParserFault
  line : Nat
  deriving Repr, DecidableEq

namespace ParserFault

/-- The wording of a fault. -/
def message : ParserFault → String
  | expectedNewline => "Expected new line"
  | expectedIdentifier => "Expected variable name"
  | expectedOpeningBrace => "Expected '\x7b' at this position"
  | expectedClosingBrace => "Expected '\x7d' at this position"
  | expectedFunctionName => "Expected function name"
  | expectedParen => "Expect '(' after function name"
  | expectedParameter => "Expected function parameter"
  | unclosedParen => "Expect ')' after expression"
  | maxParameters => "Max number of parameters is 255"
  | maxArguments => "Max number of arguments is 255"
  | expectedSemicolon => "Expected semicolon"
  | expectedInit => "Empty expression or let was expected at this position"
  | expectedIn => "Expected 'in'"
  | expectedCatch => "A catch block was expected at this position"
  | onlyInsideLoop => "Statement only allowed for use inside loop"
  | unclosedBracket => "Expected ']' at end of list"
  | unclosedDict => "Expected '\x7d' at the end of dict"
  | expectedColon => "Expected ':' after key"
  | undefinedStatement => "Undefined statement"
  | unclosedSlice => "Expected ']' at the end of slice"
  | expectedProperty => "Expected property name after '.'"
  | unclosedArguments => "Expect ')' after arguments"
  | undefinedExpression => "Undefined expression"
  | expectedDot => "Keyword 'super' is only valid for property accessing"
  | internal fault => "Internal error: " ++ fault.message

/-- The code under which a fault is reported. -/
def code : ParserFault → String
  | expectedNewline => "PE001"
  | expectedIdentifier => "PE002"
  | expectedOpeningBrace => "PE003"
  | expectedClosingBrace => "PE004"
  | expectedFunctionName => "PE005"
  | expectedParen => "PE006"
  | expectedParameter => "PE007"
  | unclosedParen => "PE008"
  | maxParameters => "PE009"
  | maxArguments => "PE010"
  | expectedSemicolon => "PE011"
  | expectedInit => "PE012"
  | expectedIn => "PE013"
  | expectedCatch => "PE014"
  | onlyInsideLoop => "PE015"
  | unclosedBracket => "PE016"
  | unclosedDict => "PE017"
  | expectedColon => "PE018"
  | undefinedStatement => "PE019"
  | unclosedSlice => "PE020"
  | expectedProperty => "PE021"
  | unclosedArguments => "PE022"
  | undefinedExpression => "PE023"
  | expectedDot => "PE024"
  | internal _ => "PE999"

/-- A fatal fault ends the reading; after any other, reading resumes at the next statement. -/
def isFatal : ParserFault → Bool
  | maxParameters | maxArguments | internal _ => true
  | _ => false

end ParserFault

end Script
