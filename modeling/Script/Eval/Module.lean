import Script.Eval.Evaluator
import Script.Parser

/-!
# `Eval.Module` — global names, and scripts that are imported

Every program starts from its own global scope, which holds the builtins; a program's names live in
a scope inside it. An imported script runs in the same way, with a call stack of its own, and so
shares nothing with the program that imports it.
-/

namespace Script

namespace Heap

/-- A sealed object with builtins as its members. -/
def newGroup (h : Heap) (members : List (String × Builtin)) : Value × Heap :=
  let (table, h) := members.foldl
    (fun (table, h) (name, builtin) =>
      let (ref, h) := h.newBuiltin builtin
      (Bindings.set table name (Value.builtin ref), h))
    (Bindings.empty, h)
  let (ref, h) := h.newHost ⟨table, .sealed, []⟩
  (.host ref, h)

/-- A new global scope, for the script at a path. -/
def newGlobals (h : Heap) (script : Option String) : Ref .scope × Heap :=
  let (io, h) := h.newGroup Builtin.ioMembers
  let (strings, h) := h.newGroup Builtin.stringsMembers
  let (env, h) := h.newGroup Builtin.envMembers
  let (typeOf, h) := h.newBuiltin .typeOf
  let (importer, h) := h.newBuiltin (.importModule script)
  let (globals, h) := h.newScope none
  (globals, h.declareAll globals [
    ("io", io), ("strings", strings), ("env", env), ("type", .builtin typeOf),
    ("import", .builtin importer)])

/-- A new scope for the names of a program, inside a new global scope. -/
def newProgramScope (h : Heap) (script : Option String) : Ref .scope × Heap :=
  let (globals, h) := h.newGlobals script
  h.newScope (some globals)

end Heap

/-- Why a script cannot be loaded. -/
inductive ModuleError where
  | file (path : String) (fault : FileFault)
  | compile (error : CompileError)
  | runtime (error : RuntimeError)

/-- The wording of a module error. -/
def ModuleError.message : ModuleError → String
  | file path fault => "could not read " ++ path ++ ": " ++ fault.message
  | compile error => error.message
  | runtime error => "runtime error on line " ++ toString error.line ++ ": " ++ error.text

namespace Evaluator

/-- Runs the script at a path and gives the scope of its names. -/
def loadModule (ev : Evaluator) (path : String) : Step ModuleError (Ref .scope) := do
  let source ← Step.observe (·.world.files.readText path)
  let text ← Step.ofExcept (source.mapError (.file path))
  let program ← Step.ofExcept ((Script.compile text).mapError .compile)
  let scope ← Step.allocate (·.newProgramScope (some path))
  Step.apart ((ev.program program scope).mapError .runtime)
  return scope

end Evaluator

end Script
