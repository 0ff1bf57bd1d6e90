import Script.Parser.Cursor
import Script.Parser.Grammar
import Script.Token.Scanner

/-!
# `Parser` — tokens read as a program

The statements of a program are read one after the other, and one reading finds many faults. The
program is the result only if there was no fault at all.
-/

namespace Script

/-- Reads a list of tokens as a program, or gives the faults in the order in which they were
    found. -/
def parse (tokens : List Token) : Except (List ParserError) Program :=
  let c := Cursor.ofTokens tokens
  let depth := c.rest.length + 1
  let reading : ParseM Program := Grammar.program (Level.ofDepth depth) depth
  match reading c with
  | .ok statements c => if c.reported.isEmpty then .ok statements else .error c.reported
  | .error e c => .error (c.reported ++ [e])

/-- Why a source text is no program. -/
inductive CompileError where
  | lexical (errors : List LexicalError)
  | parser (errors : List ParserError)

/-- The wording of a compile error: how many faults there are. -/
def CompileError.message : CompileError → String
  | lexical errors => s!"{errors.length} lexical error(s)"
  | parser errors => s!"{errors.length} parse error(s)"

/-- Reads a source text as a program. With lexical errors there is no parsing. -/
def compile (source : String) : Except CompileError Program :=
  match tokenize source with
  | (tokens, []) => (parse tokens).mapError .parser
  | (_, errors) => .error (.lexical errors)

end Script
