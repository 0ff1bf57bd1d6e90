import Script.Fault
import Script.Parser

/-!
# `Diagnostic` — problems as they are reported

A problem is a fault found while a source text was scanned, parsed or run, with the line it is
reported on. The basic form of its report names the line and the message.
-/

namespace Script

/-- A fault in a source text. -/
inductive Problem where
  | lexical (error : LexicalError)
  | parser (error : ParserError)
  | runtime (error : RuntimeError)

namespace Problem

/-- The line on which a problem is reported. -/
def line : Problem → Nat
  | lexical e => e.line
  | parser e => e.line
  | runtime e => e.line

/-- The code of a problem. -/
def code : Problem → String
  | lexical e => e.fault.code
  | parser e => e.fault.code
  | runtime e => e.fault.code

/-- The wording of a problem. -/
def message : Problem → String
  | lexical e => e.fault.message
  | parser e => e.fault.message
  | runtime e => e.fault.message

/-- What was being done when the problem was found. -/
def title : Problem → String
  | lexical _ => "Failed to scan the source"
  | parser _ => "Failed to parse the program"
  | runtime _ => "Runtime error"

/-- The text at which a problem is reported, if it has one. -/
def lexeme? : Problem → Option String
  | runtime e => some e.lexeme
  | _ => none

/-- The basic report of a problem. -/
def basic : Problem → String
  | lexical e => "Error on line " ++ toString e.line ++ "\n\t" ++ e.fault.message
  | parser e => "Error on line " ++ toString e.line ++ "\n\t" ++ e.fault.message
  | runtime e => "Runtime Error on line " ++ toString e.line ++ "\n\t" ++ e.text

end Problem

/-- The problems for which a source text is no program. -/
def CompileError.problems : CompileError → List Problem
  | lexical errors => errors.map .lexical
  | parser errors => errors.map .parser

end Script
