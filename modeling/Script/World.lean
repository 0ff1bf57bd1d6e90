import Script.Files

/-!
# `World` — what a program reads and changes outside its own values

Files, environment variables, the time, and a log of what came out so far. The lines that programs
print and the reports of problems go to the same log, so the log has the order in which they came.
-/

namespace Script

/-- Something that came out. -/
inductive Event where
  /-- A line that a program printed. -/
  | printed (line : String)
  /-- The report of a problem. -/
  | reported (text : String)
  deriving Repr, DecidableEq

/-- The line that was printed, if one was. -/
def Event.printed? : Event → Option String
  | printed line => some line
  | reported _ => none

/-- The text of a report, if there was one. -/
def Event.reported? : Event → Option String
  | printed _ => none
  | reported text => some text

/-- The surroundings of a program. -/
structure World where
  files : FileSystem
  environment : List (String × String)
  /-- Seconds since the start of 1970. -/
  clock : Float
  /-- What came out so far. -/
  events : Array Event

namespace World

/-- No files, no environment variables, an empty log. -/
def empty : World := ⟨.empty, [], 0, #[]⟩

/-- Prints a line. -/
def print (w : World) (line : String) : World := { w with events := w.events.push (.printed line) }

/-- Reports a problem. -/
def report (w : World) (text : String) : World := { w with events := w.events.push (.reported text) }

/-- Reports problems one after the other. -/
def reportAll (w : World) (texts : List String) : World := texts.foldl report w

/-- What came out since an earlier time. -/
def since (w earlier : World) : List Event := w.events.toList.drop earlier.events.size

/-- An environment variable. The environment is searched as lines `name=value`, so a name may
    reach into a value that has an equals sign. -/
def lookupVariable (w : World) (name : String) : Option String :=
  if name.isEmpty || name.contains '\x00' then none
  else
    let start := name.toList ++ ['=']
    w.environment.findSome? fun (n, v) =>
      let line := n.toList ++ '=' :: v.toList
      if start.isPrefixOf line then some (String.ofList (line.drop start.length)) else none

/-- Sets an environment variable. -/
def setVariable (w : World) (name value : String) : World :=
  if w.environment.any (·.1 == name) then
    { w with environment := w.environment.map fun p => if p.1 == name then (name, value) else p }
  else { w with environment := w.environment ++ [(name, value)] }

end World

end Script
