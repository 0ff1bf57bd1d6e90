import Script.Run

/-!
# `Session` — source texts run one after the other in the same scope

Each chunk is compiled and its statements are run one by one up to the first that fails. Unlike in a
program, a `return` does not end the chunk.
-/

namespace Script

/-- How a statement ended, with the text of the value that it returned. -/
inductive Ending where
  | run
  | broke
  | continued
  | returned (text : String)
  deriving Repr, DecidableEq

/-- How a statement ended, as text. -/
def Flow.ending (h : Heap) : Flow → Ending
  | .run => .run
  | .broke => .broke
  | .continued => .continued
  | .returned v => .returned (h.display v)

/-- A name with the type and the text of its value. -/
structure BindingText where
  name : String
  type : String
  text : String
  deriving Repr, DecidableEq

/-- The bindings of a scope itself, in the order of the names. -/
def Heap.bindingTexts (h : Heap) (s : Ref .scope) : List BindingText :=
  (h.bindings s).map fun p => ⟨p.1, p.2.typeName, h.display p.2⟩

/-- Why a chunk did not run to its end. -/
inductive ChunkFault where
  | compile (error : CompileError)
  | runtime (error : RuntimeError)

/-- What a chunk left behind. -/
structure ChunkReport where
  endings : List Ending
  /-- The lines printed by the chunk. -/
  output : List String
  bindings : List BindingText
  fault : Option ChunkFault

/-- A scope in which chunks are run. -/
structure Session where
  settings : Settings
  scope : Ref .scope
  machine : Machine

namespace Session

/-- An object whose members can be set, except for `locked`, and that announces the operators
    applied to it. -/
def newProbe (h : Heap) : Value × Heap :=
  let (add, h) := h.newBuiltin (.announce Operator.add.method)
  let (eq, h) := h.newBuiltin (.announce Operator.eq.method)
  let (neg, h) := h.newBuiltin (.announce Operator.neg.method)
  let (ref, h) := h.newHost ⟨.empty, .allBut ["locked"], [(.add, add), (.eq, eq), (.neg, neg)]⟩
  (.host ref, h)

/-- A new session; with a probe the global scope has an object of that name. -/
def start (settings : Settings) (world : World) (probe : Bool) : Session :=
  let (globals, heap) := Heap.empty.newGlobals settings.path
  let heap :=
    if probe then
      let (v, heap) := newProbe heap
      heap.declare globals "probe" v
    else heap
  let (scope, heap) := heap.newScope (some globals)
  ⟨settings, scope, ⟨heap, .root, world⟩⟩

/-- Runs statements one by one up to the first that fails. -/
def statements (ev : Evaluator) (scope : Ref .scope) :
    List Stmt → Machine → Option (List Ending × Option RuntimeError × Machine)
  | [], m => some ([], none, m)
  | s :: rest, m =>
    match ev.statement s scope m with
    | .ok flow m => do
      let ending := flow.ending m.heap
      let (endings, e, m) ← statements ev scope rest m
      return (ending :: endings, e, m)
    | .error e m => some ([], some e, m)
    | .outOfFuel => none

/-- Runs a chunk, unless the fuel does not suffice. -/
def feed (fuel : Nat) (s : Session) (chunk : String) : Option (ChunkReport × Session) :=
  match compile chunk with
  | .error e =>
    some (⟨[], [], s.machine.heap.bindingTexts s.scope, some (.compile e)⟩, s)
  | .ok program => do
    let (endings, e, m) ← statements (s.settings.evaluator fuel) s.scope program s.machine
    let output := (m.world.since s.machine.world).filterMap Event.printed?
    return (⟨endings, output, m.heap.bindingTexts s.scope, e.map .runtime⟩, { s with machine := m })

end Session

/-- What loading a module left behind: the bindings of its scope, or why it failed. -/
structure ModuleReport where
  result : Except ModuleError (List BindingText)
  output : List String
  world : World

/-- Loads a module, unless the fuel does not suffice. -/
def loadModule (fuel : Nat) (settings : Settings) (world : World) (path : String) :
    Option ModuleReport :=
  match (settings.evaluator fuel).loadModule path ⟨.empty, .root, world⟩ with
  | .ok scope m => some ⟨.ok (m.heap.bindingTexts scope), printed m.world, m.world⟩
  | .error e m => some ⟨.error e, printed m.world, m.world⟩
  | .outOfFuel => none
where
  /-- The lines printed on the way. -/
  printed (after : World) : List String := (after.since world).filterMap Event.printed?

end Script
