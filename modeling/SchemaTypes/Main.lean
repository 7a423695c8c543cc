import SchemaTypes.CommandLine.Run

/-! # The program

The command line runs on a picture of the working directory: its files and directories are
read first, the run is computed from them, and then its output is printed, the directories
and files it made are written, and its exit code is returned.
-/

open SchemaTypes SchemaTypes.CommandLine SchemaTypes.Files

/-- The most levels below the working directory that are read. -/
def walkDepth : Nat := 16

/-- Reads the files and directories below a directory: the files with their text (those that
are not UTF-8 text are left out) and the directories, by their names from the top. -/
partial def gatherBelow (names : List String) (depth : Nat) :
    IO (List (List String × String) × List (List String)) := do
  if depth = 0 then return ([], [])
  let base ← IO.currentDir
  let here := names.foldl (fun p n => p / n) base
  let entries ← here.readDir
  let mut files : List (List String × String) := []
  let mut dirs : List (List String) := []
  for e in entries do
    let entryNames := names ++ [e.fileName]
    if ← e.path.isDir then
      dirs := dirs ++ [entryNames]
      let (fs, ds) ← gatherBelow entryNames (depth - 1)
      files := files ++ fs
      dirs := dirs ++ ds
    else
      match String.fromUTF8? (← IO.FS.readBinFile e.path) with
      | some text => files := files ++ [(entryNames, text)]
      | none => pure ()
  return (files, dirs)

/-- Writes what a run made: its new directories, then its new and changed files. -/
def applyChanges (before after : FileTree) : IO Unit := do
  for d in after.dirs do
    if !before.dirs.contains d then IO.FS.createDirAll ("/".intercalate d)
  for (names, text) in after.files do
    if before.fileAt? names != some text then IO.FS.writeFile ("/".intercalate names) text

/-- Runs the command line on the working directory. -/
def main (args : List String) : IO UInt32 := do
  let (files, dirs) ← gatherBelow [] walkDepth
  let tree : FileTree := { files, dirs }
  let outcome := execute args tree
  IO.print outcome.stdout
  IO.eprint outcome.stderr
  applyChanges tree outcome.files
  return outcome.exit.toUInt32
