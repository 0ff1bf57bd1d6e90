import Script.CommandLine

/-!
# `Main` — the program for the terminal

The command line works on a picture of the surroundings: the files below the working directory, the
environment variables and the time, taken when the program starts. What it printed is then written
out, and files that it made or changed are written back.
-/

namespace Script

/-- The entries of a directory, with all that is below them. What cannot be read is left out. -/
partial def loadEntries (found : Array IO.FS.DirEntry) : IO (List (String × Entry)) := do
  let mut entries : List (String × Entry) := []
  for item in found do
    try
      let entry ←
        if ← item.path.isDir then pure (Entry.directory (← loadEntries (← item.path.readDir)))
        else pure (Entry.file (← IO.FS.readBinFile item.path))
      entries := Entry.place item.fileName entry entries
    catch _ => pure ()
  return entries

/-- The files below the working directory. -/
def loadFiles : IO FileSystem := do
  let entries ← loadEntries (← (← IO.currentDir).readDir)
  let fs := FileSystem.empty
  return { fs with root := fs.root.put fs.home (.directory entries) }

/-- The environment variables, from the table that the system keeps for the process. -/
def loadVariables : IO (List (String × String)) := do
  try
    let table ← IO.FS.readFile "/proc/self/environ"
    return (table.splitOn "\x00").filterMap fun line =>
      let cs := line.toList
      let name := cs.takeWhile (· ≠ '=')
      if name.isEmpty then none
      else some (String.ofList name, String.ofList ((cs.dropWhile (· ≠ '=')).drop 1))
  catch _ => return []

/-- The time in seconds: that of a file made just now. -/
def loadClock : IO Float := do
  let (_, path) ← IO.FS.createTempFile
  let time := (← path.metadata).modified
  IO.FS.removeFile path
  return Float.ofInt time.sec + Float.ofNat time.nsec.toNat / 1000000000

/-- Writes what is not in an older listing of the working directory, or differs from it. -/
def saveFiles (older newer : List (String × Option ByteArray)) : IO Unit := do
  for (path, content?) in newer do
    match content?, older.lookup path with
    | none, none => IO.FS.createDirAll path
    | none, some _ => pure ()
    | some content, known =>
      if known.bind (·.map (·.toList)) ≠ some content.toList then IO.FS.writeBinFile path content

end Script

/-- Does what the arguments ask for. -/
def main (arguments : List String) : IO UInt32 := do
  let files ← Script.loadFiles
  let world : Script.World := ⟨files, ← Script.loadVariables, ← Script.loadClock, #[]⟩
  match Script.commandLine Script.ampleFuel world arguments with
  | none => return 70
  | some response =>
    IO.print response.stdout
    IO.eprint response.stderr
    Script.saveFiles files.contents response.world.files.contents
    return response.code.toUInt32
