import RenderFarm.Report

/-!
Command line. The settings are read from the file that the environment names, the template from the first
argument or from the environment, and a run over the files of the working directory is told on the standard
output. The program has no network of its own, so no backend is reached, and it leaves the files as they are.
-/

namespace RenderFarm.CommandLine

/-- How deep directories are read. -/
def maxDepth : Nat := 12

/-- The most steps of a run. -/
def maxSteps : Nat := 1000000

/-- The location of the working directory in the file system of a run. -/
def workingDirectory : Location := ["work"]

/-- Reads what is in a directory, up to a depth. -/
def readEntries (depth : Nat) (location : Location) (entries : Array IO.FS.DirEntry) (fs : FileSystem) :
    IO FileSystem := do
  match depth with
  | 0 => return fs
  | depth + 1 =>
    let mut fs := fs
    for e in entries do
      let here := location ++ [e.fileName]
      if ← e.path.isDir then
        fs ← readEntries depth here (← e.path.readDir) (fs.set here .directory)
      else
        fs := fs.set here (.file (← IO.FS.readBinFile e.path))
    return fs

/-- Reads the working directory. -/
def readFiles : IO FileSystem := do
  let here ← IO.currentDir
  let empty : FileSystem := { entries := [(workingDirectory, .directory)], workingDirectory }
  readEntries maxDepth workingDirectory (← here.readDir) empty

/-- The present moment: the time of a file that is made to tell it and then removed. -/
def now : IO Instant := do
  let (_, path) ← IO.FS.createTempFile
  let time := (← path.metadata).modified
  IO.FS.removeFile path
  return { seconds := time.sec, nanos := time.nsec.toNat }

/-- Prints the lines of events. -/
def tell (events : List LogEvent) : IO Unit :=
  for line in events.filterMap LogEvent.line? do
    IO.println line

/-- Runs a farm with its settings. -/
def runWith (fs : FileSystem) (c : Config) (problems : List ConfigError) : IO UInt32 := do
  tell (Report.opening c problems)
  let seed := UInt64.ofNat (← IO.monoNanosNow)
  let farm := Farm.complete c (fun _ => .unreachable) [] fs (← now) (⟨seed⟩ : SplitMix) ⟨seed + 1⟩ maxSteps
  tell farm.run.scheduler.log
  let outcome := farm.run.ended.getD (.error .closed)
  tell (Report.closing c outcome)
  return Report.exitCode outcome

end RenderFarm.CommandLine

open RenderFarm CommandLine in
/-- Reads the settings and runs the farm. -/
def main (args : List String) : IO UInt32 := do
  let fs ← readFiles
  let file ← IO.getEnv "DREAMFACTORY_CONFIG"
  let prompt ← IO.getEnv "DREAMFACTORY_PROMPT_FILE"
  match Config.ofEnvironment fs file prompt with
  | .error e =>
    IO.eprintln e.message
    return 1
  | .ok (c, problems) =>
    let c := match args.head? with
      | some arg => { c with promptFile := some ⟨arg⟩ }
      | none => c
    runWith fs c problems
