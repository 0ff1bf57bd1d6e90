import Script.Diagnostic.Pretty
import Script.Run
import Script.Token.Listing
import Script.Tree.Outline
import Script.Tree.Source

/-!
# `CommandLine` — the commands and their options

There are three commands, each for one script: to list its tokens, to write it out as a program, and
to run it. Arguments are read from left to right and the first that cannot be understood decides.
Exit code 0 stands for success, 65 for a script with problems, 2 for arguments that make no sense
and 101 for a script that cannot be read.
-/

namespace Script

/-- How a program is written out. -/
inductive ProgramStyle where
  | source
  | outline
  deriving Repr, DecidableEq

/-- What is asked for. -/
inductive Command where
  | tokenize (path : String) (style : ListingStyle)
  | parse (path : String) (style : ProgramStyle)
  | run (path : String) (style : ReportStyle) (maxCallDepth : Nat)
  | version
  | help

/-- A command that takes a script, before its arguments are known. -/
inductive CommandName where
  | tokenize
  | parse
  | run
  deriving Repr, DecidableEq

namespace CommandName

/-- The command with a name. -/
def ofText? : String → Option CommandName
  | "tokenize" => some tokenize
  | "parse" => some parse
  | "run" => some run
  | _ => none

/-- The names of a command's options. -/
def options : CommandName → List String
  | tokenize => ["format"]
  | parse => ["format"]
  | run => ["diagnostics", "max-call-depth"]

end CommandName

/-- A number written in decimal digits, with or without a plus sign, that fits into 64 bits. -/
def readDepth? (text : String) : Option Nat :=
  let digits := match text.toList with
    | '+' :: rest => rest
    | cs => cs
  if digits.isEmpty || !digits.all Char.isDigit then none
  else
    let n := digits.foldl (fun n c => 10 * n + (c.toNat - '0'.toNat)) 0
    if n < Nat.pow 2 64 then some n else none

/-- Whether an option of a command takes a value. -/
def acceptsValue : CommandName → String → String → Bool
  | .tokenize, _, value => value == "basic" || value == "debug"
  | .parse, _, value => value == "source" || value == "debug"
  | .run, "diagnostics", value => value == "basic" || value == "pretty"
  | .run, _, value => (readDepth? value).isSome

/-- The arguments of a command. -/
structure Arguments where
  path : Option String
  options : List (String × String)

/-- The command with its arguments; there has to be a path. -/
def CommandName.complete? (command : CommandName) (a : Arguments) : Option Command :=
  a.path.map fun path =>
    match command with
    | .tokenize =>
      .tokenize path (if a.options.lookup "format" = some "debug" then .detailed else .brief)
    | .parse =>
      .parse path (if a.options.lookup "format" = some "debug" then .outline else .source)
    | .run =>
      .run path
        (if a.options.lookup "diagnostics" = some "pretty" then .drawn Problem.pretty else .basic)
        (((a.options.lookup "max-call-depth").bind readDepth?).getD 1000)

namespace Arguments

/-- Takes the path, of which there can be one only. -/
def withPath? (a : Arguments) (path : String) : Option Arguments :=
  if a.path.isSome || path.isEmpty then none else some { a with path := some path }

/-- Takes an option, each of which can be given once only. -/
def withOption? (command : CommandName) (a : Arguments) (name value : String) : Option Arguments :=
  if command.options.contains name && (a.options.lookup name).isNone
      && acceptsValue command name value then
    some { a with options := (name, value) :: a.options }
  else none

end Arguments

/-- The name of an option and the value after an equals sign, from an argument without dashes. -/
def splitOption (text : String) : String × Option String :=
  let cs := text.toList
  let name := cs.takeWhile (· ≠ '=')
  match cs.dropWhile (· ≠ '=') with
  | _ :: value => (String.ofList name, some (String.ofList value))
  | [] => (String.ofList name, none)

/-- Reads arguments after the end of options: only a path is left to come. -/
def readPaths (command : CommandName) : Arguments → List String → Option Command
  | a, [] => command.complete? a
  | a, path :: rest => do readPaths command (← a.withPath? path) rest

/-- Reads the arguments of a command. -/
def readArguments (command : CommandName) : Arguments → List String → Option Command
  | a, [] => command.complete? a
  | a, argument :: rest =>
    match argument.toList with
    | ['-', '-'] => readPaths command a rest
    | '-' :: '-' :: text =>
      match splitOption (String.ofList text) with
      | ("help", none) => some .help
      | (name, some value) => do readArguments command (← a.withOption? command name value) rest
      | (name, none) =>
        match rest with
        | [] => none
        | value :: rest =>
          if value.startsWith "-" && value != "-" then none
          else do readArguments command (← a.withOption? command name value) rest
    | '-' :: 'h' :: _ => some .help
    | '-' :: _ :: _ => none
    | _ => do readArguments command (← a.withPath? argument) rest

/-- Reads all arguments. -/
def readCommand : List String → Option Command
  | ["help"] => some .help
  | ["help", command] => if command = "help" then some .help else
      (CommandName.ofText? command).map fun _ => .help
  | "--version" :: _ => some .version
  | "--help" :: _ => some .help
  | argument :: rest =>
    match argument.toList with
    | '-' :: 'V' :: _ => some .version
    | '-' :: 'h' :: _ => some .help
    | _ => do readArguments (← CommandName.ofText? argument) ⟨none, []⟩ rest
  | [] => none

/-- How a command ended and what it wrote. -/
structure Response where
  code : Nat
  stdout : String
  stderr : String
  world : World

/-- Lines, each with its end. -/
def linesText (lines : List String) : String := String.join (lines.map (· ++ "\n"))

/-- The exit code for success or failure. -/
def exitCode (succeeded : Bool) : Nat := if succeeded then 0 else 65

/-- Lists the tokens of a source text. -/
def tokenizeCommand (world : World) (style : ListingStyle) (source : String) : Response :=
  let (items, _) := (Scanner.ofSource source).items
  let errors := errorsOf items
  ⟨exitCode errors.isEmpty, linesText ((tokensOf items).map (·.listed style)),
    linesText (errors.map (·.listed style)), world⟩

/-- Writes a source text out as a program. -/
def parseCommand (world : World) (style : ProgramStyle) (source : String) : Response :=
  match compile source with
  | .ok program =>
    let text := match style with
      | .source => program.source
      | .outline => program.outline
    ⟨0, text, "", world⟩
  | .error e => ⟨65, "", linesText (e.problems.map (·.basic)), world⟩

/-- Runs a source text. -/
def runCommand (fuel : Nat) (world : World) (settings : Settings) (source : String) :
    Option Response :=
  (runSource fuel settings world source).map fun r =>
    ⟨exitCode r.succeeded, linesText r.output, linesText r.diagnostics, r.world⟩

/-- What the help says. -/
def usage : String := "Usage: <tokenize|parse|run> [OPTIONS] <PATH>\n"

/-- Goes on with the text of a script, if it can be read. -/
def withScript (world : World) (path : String) (go : String → Option Response) : Option Response :=
  match world.files.readText path with
  | .ok source => go source
  | .error fault =>
    some ⟨101, "", "could not read " ++ path ++ ": " ++ fault.message ++ "\n", world⟩

/-- Carries out a command, unless the fuel does not suffice. -/
def Command.perform (fuel : Nat) (world : World) : Command → Option Response
  | .tokenize path style => withScript world path (some <| tokenizeCommand world style ·)
  | .parse path style => withScript world path (some <| parseCommand world style ·)
  | .run path style maxCallDepth =>
    withScript world path (runCommand fuel world ⟨some path, maxCallDepth, style⟩)
  | .version => some ⟨0, "grotsky 1.0.0\n", "", world⟩
  | .help => some ⟨0, usage, "", world⟩

/-- Reads arguments and does what they ask for. -/
def commandLine (fuel : Nat) (world : World) (arguments : List String) : Option Response :=
  match readCommand arguments with
  | some command => command.perform fuel world
  | none => some ⟨2, "", usage, world⟩

end Script
