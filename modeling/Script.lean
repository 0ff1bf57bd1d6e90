import Script.Bindings
import Script.Builtin
import Script.CallStack
import Script.CommandLine
import Script.Decimal.Binary
import Script.Decimal.Layout
import Script.Decimal.Reader
import Script.Decimal.Shortest
import Script.Diagnostic
import Script.Diagnostic.Pretty
import Script.Eval
import Script.Eval.Access
import Script.Eval.Builtins
import Script.Eval.Call
import Script.Eval.Evaluator
import Script.Eval.Expression
import Script.Eval.Module
import Script.Eval.Property
import Script.Eval.Statement
import Script.Fault
import Script.Files
import Script.Files.Path
import Script.Heap
import Script.Heap.Class
import Script.Heap.Display
import Script.Heap.Operators
import Script.Heap.Scope
import Script.Heap.Store
import Script.Machine
import Script.Main
import Script.Operator
import Script.Parser
import Script.Parser.Cursor
import Script.Parser.Error
import Script.Parser.Grammar
import Script.Parser.Reader
import Script.Proofs.Builtins
import Script.Proofs.Evaluation.Agreement
import Script.Proofs.Evaluation.Alike
import Script.Proofs.Evaluation.Balance
import Script.Proofs.Evaluation.Beside
import Script.Proofs.Evaluation.CallStack
import Script.Proofs.Evaluation.Ceiling
import Script.Proofs.Evaluation.Construction
import Script.Proofs.Evaluation.Course
import Script.Proofs.Evaluation.Discipline
import Script.Proofs.Evaluation.FreshVariables
import Script.Proofs.Evaluation.Growth
import Script.Proofs.Evaluation.Hygiene
import Script.Proofs.Evaluation.IndexedAssignment
import Script.Proofs.Evaluation.Indexing
import Script.Proofs.Evaluation.Initializers
import Script.Proofs.Evaluation.Isolation
import Script.Proofs.Evaluation.Keeps
import Script.Proofs.Evaluation.Layout
import Script.Proofs.Evaluation.LoopExits
import Script.Proofs.Evaluation.Methods
import Script.Proofs.Evaluation.Obedience
import Script.Proofs.Evaluation.Reporting
import Script.Proofs.Evaluation.Snapshot
import Script.Proofs.Evaluation.Super
import Script.Proofs.Evaluation.Tracking
import Script.Proofs.Evaluation.Tracks
import Script.Proofs.Evaluation.Upkeep
import Script.Proofs.Evaluation.Watch
import Script.Proofs.Evaluation.Weakening
import Script.Proofs.Exits
import Script.Proofs.Faults
import Script.Proofs.Heap.Aside
import Script.Proofs.Heap.Chains
import Script.Proofs.Heap.Contents
import Script.Proofs.Heap.Equality
import Script.Proofs.Heap.Functions
import Script.Proofs.Heap.Operations
import Script.Proofs.Heap.Reach
import Script.Proofs.Heap.Scopes
import Script.Proofs.Heap.Values
import Script.Proofs.Parser.Accepted
import Script.Proofs.Parser.Boundaries
import Script.Proofs.Parser.Changes
import Script.Proofs.Parser.Exact
import Script.Proofs.Parser.Exits
import Script.Proofs.Parser.Flattening
import Script.Proofs.Parser.Formed
import Script.Proofs.Parser.Frames
import Script.Proofs.Parser.Precedence
import Script.Proofs.Parser.Productions
import Script.Proofs.Parser.Programs
import Script.Proofs.Parser.Reads
import Script.Proofs.Parser.Simulation
import Script.Proofs.Parser.Totality
import Script.Proofs.Parser.Vector
import Script.Proofs.Parser.WellFormed
import Script.Proofs.Printer.Openings
import Script.Proofs.Printer.Rereading
import Script.Proofs.Printer.RoundTrip
import Script.Proofs.Printer.Scanning
import Script.Proofs.Printer.Statements
import Script.Proofs.Token.Cutting
import Script.Proofs.Token.Genuine
import Script.Proofs.Token.Lines
import Script.Proofs.Token.Pieces
import Script.Proofs.Token.Spacing
import Script.Proofs.Token.Stream
import Script.Proofs.Token.Strings
import Script.Proofs.Tree.Grouping
import Script.Proofs.Tree.Nodes
import Script.Proofs.Tree.Parts
import Script.Proofs.Tree.Spelling
import Script.Proofs.Tree.Traversal
import Script.Proofs.Tree.Words
import Script.Proofs.Value.Dictionary
import Script.Proofs.Value.Elements
import Script.Proofs.Value.Slicing
import Script.Run
import Script.Session
import Script.Source.Lines
import Script.Text.Blank
import Script.Text.Casing
import Script.Text.Indentation
import Script.Text.Letter
import Script.Text.Printable
import Script.Text.Quoted
import Script.Text.Ranges
import Script.Text.Split
import Script.Text.Width
import Script.Token
import Script.Token.Listing
import Script.Token.Scanner
import Script.Tree
import Script.Tree.Outline
import Script.Tree.Source
import Script.Value
import Script.Value.Dict
import Script.Value.Elements
import Script.Value.Slice
import Script.World
