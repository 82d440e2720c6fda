import QueryBook.CommandLine.Run

/-!
# The program

Loads the files of the working directory and of the arguments, runs the command line on them, writes
what has changed and prints what was printed.
-/

namespace QueryBook.Program

/-! ## Loading -/

/-- The location of an absolute path. -/
def locationOf (path : String) : Location := (path.splitOn "/").filter fun name => !name.isEmpty

/-- The path of a location. -/
def pathOf (location : Location) : String := "/" ++ String.intercalate "/" location

/-- The directories on the way to a location, and the one there. -/
def directoriesTo (location : Location) : List (Location × FileEntry) :=
  (List.range location.length).map fun n => (location.take (n + 1), .directory)

/-- What is at an entry of a directory and below it. A file that is no text is left out. -/
partial def load (entry : IO.FS.DirEntry) : IO (List (Location × FileEntry)) := do
  let location := locationOf entry.path.toString
  if ← entry.path.isDir then
    let below ← (← entry.path.readDir).toList.mapM load
    return (location, .directory) :: below.flatten
  try
    return [(location, .file (← IO.FS.readFile entry.path))]
  catch _ => return []

/-- What is at a path and below it; nothing if it cannot be followed. -/
def loadAt (path : String) : IO (List (Location × FileEntry)) := do
  try
    let real ← IO.FS.realPath path
    let location := locationOf real.toString
    let parent := pathOf location.dropLast
    return directoriesTo location.dropLast ++
      (← load { root := parent, fileName := location.getLast?.getD "" })
  catch _ => return []

/-- The files that a run with these arguments can see. -/
def snapshot (arguments : List String) : IO FileTree := do
  let here ← IO.currentDir
  let entries ← ("." :: arguments).mapM loadAt
  return { entries := entries.flatten, workingDirectory := locationOf here.toString }

/-! ## Storing -/

/-- Writes an entry unless it was there before. -/
def store (before : FileTree) (location : Location) (entry : FileEntry) : IO Unit := do
  if before.find? location ≠ some entry then
    match entry with
    | .directory => IO.FS.createDirAll (pathOf location)
    | .file text => IO.FS.writeFile (pathOf location) text

/-- Writes what has changed, directories before what lies in them. -/
def storeAll (before after : FileTree) : IO Unit := do
  let sorted := after.entries.mergeSort fun a b => a.1.length ≤ b.1.length
  sorted.forM fun (location, entry) => store before location entry

end QueryBook.Program

/-- Runs the command line. -/
def main (arguments : List String) : IO UInt32 := do
  let files ← QueryBook.Program.snapshot arguments
  let (status, session) := QueryBook.Session.run arguments { files }
  QueryBook.Program.storeAll files session.files
  IO.print session.output
  session.reports.forM IO.eprintln
  return status.code.toUInt32
