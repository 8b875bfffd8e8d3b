import Dis.Debugger.CommandLine
import Dis.Interpreter
/-!
# The programs

One executable holds both programs and runs the one it is named for: the debugger under the name
`dis-dbg`, and the interpreter under any other.

Everything is decided elsewhere. Here the files that a command line or a command names are read
into a tree before it runs, what is printed goes to the streams, and a history that has changed is
written back. Log records are stamped with a running count of milliseconds.
-/
namespace Dis.Main

/-- After how many steps an unlimited run is given up. -/
def patience : Nat := 1000000000000

/-- What the system holds at a path, if anything. -/
def probe (path : String) : IO (Option Node) := do
  if ← ((← IO.currentDir) / path).isDir then return some (.folder [])
  try
    return some (.document (← IO.FS.readBinFile path).toList)
  catch _ => return none

/-- Read what the system holds on the way along parts into the tree. -/
def fetchParts (files : Files) (loc : Location) : List String → IO Files
  | [] => return files
  | part :: parts => do
    if part = ".." then fetchParts files loc.dropLast parts
    else
      let loc := loc ++ [part]
      match ← probe ("/" ++ "/".intercalate loc) with
      | some (.folder _) => fetchParts (files.putFolder loc) loc parts
      | some node => return files.put loc node
      | none => return files

/-- Read what a path leads to into the tree. -/
def fetch (files : Files) (path : Path) : IO Files :=
  match files.expandHome path with
  | .ok path => fetchParts files (files.start path) path.parts
  | .error _ => return files

/-- Read what paths lead to into the tree. -/
def fetchAll (files : Files) (paths : List Path) : IO Files :=
  paths.foldlM fetch files

/-- The paths a command line may name. -/
def namedPaths (line : String) : List Path :=
  (Debugger.splitCommand line).map Path.ofText

/-- The paths a command among the arguments may name. -/
def commandPaths : Options.Given String → List Path
  | .value line => namedPaths line
  | .dropped => []

/-- The homes of the users the system knows. -/
def readHomes : IO (List (String × Path)) := do
  try
    let lines := (← IO.FS.readFile "/etc/passwd").splitOn "\n"
    return lines.filterMap fun line => match line.splitOn ":" with
      | name :: _ :: _ :: _ :: _ :: home :: _ => some (name, Path.ofText home)
      | _ => none
  catch _ => return []

/-- The tree to begin with: the working folder and the homes. -/
def startFiles : IO Files := do
  let here := Path.ofText (← IO.currentDir).toString
  let home := Path.ofText ((← IO.getEnv "HOME").getD "/")
  let files := { Files.fresh here.parts with home, homes := ← readHomes }
  return files.putFolder home.parts

/-- The settings of the environment. -/
def readSettings : IO Settings := do
  return { batch := ← IO.getEnv "DISVM_BATCH", log := ← IO.getEnv "DISVM_LOG" }

/-- Print events. -/
def print (threshold : Nat) (events : Array Event) : IO Unit := do
  let out ← IO.getStdout
  let err ← IO.getStderr
  for event in events do
    out.putStr event.outText
    err.putStr (event.errText (.stamped s!"{← IO.monoMsNow}" threshold))
  out.flush

/-- Write the file of a history back. -/
def saveHistory (d : Debugger.Desk) : IO Unit :=
  match d.history.bind (·.path) with
  | none => return
  | some path => match d.files.resolve path with
    | .ok (loc, .document bytes) => do
      IO.FS.createDirAll ("/" ++ "/".intercalate loc.dropLast)
      IO.FS.writeBinFile ("/" ++ "/".intercalate loc) ⟨bytes.toArray⟩
    | _ => return

/-- The exit status of a finish. -/
def exitStatus : Finish → UInt32
  | .status n => UInt32.ofNat (n.emod 256).toNat
  | .exit code => UInt32.ofNat (code.emod 256).toNat
  | _ => 1

/-- What is printed about a finish that is no status. -/
def finishEvents : Finish → Array Event
  | .broken e => #[.errLine e.message]
  | .unfinished => #[.errLine "gave up a run without limit"]
  | _ => #[]

/-- Print the end of a program and give its exit status. -/
def conclude (finish : Finish) (threshold : Nat) (events : Array Event) : IO UInt32 := do
  print threshold (events ++ finishEvents finish)
  return exitStatus finish

/-- Lines from a stream to its end. -/
partial def readAll (stream : IO.FS.Stream) (text : String) : IO String := do
  let line ← stream.getLine
  if line.isEmpty then return text else readAll stream (text ++ line)

/-- The interpreter. -/
def runInterpreter (args : List String) : IO UInt32 := do
  let settings ← readSettings
  match Interpreter.argumentSpec.parse {} args with
  | .parsed s =>
    let files ← fetchAll (← startFiles) (Path.ofText s.program :: s.inputFile.toList)
    let stdin ← if s.program = "-" then readAll (← IO.getStdin) "" else pure ""
    let r := Interpreter.interpret ⟨files, settings, patience, stdin⟩ s
    conclude r.finish r.threshold r.events
  | _ =>
    let r := Interpreter.run ⟨← startFiles, settings, patience, ""⟩ args
    conclude r.finish r.threshold r.events

/-- The interactive loop at a terminal. -/
partial def converse (threshold : Nat) (waiting : List String) (d : Debugger.Desk) :
    IO Debugger.LoopEnd := do
  let out ← IO.getStdout
  print threshold d.events
  out.putStr Debugger.prompt
  out.flush
  let d := { d with events := #[] }
  let line ← (← IO.getStdin).getLine
  if line.isEmpty then return ⟨none, { d with events := #[.outLine ""] }⟩
  let line := if line.endsWith "\n" then (line.dropEnd 1).toString else line
  match Debugger.readLine waiting line with
  | (waiting, none) => converse threshold waiting d
  | (_, some payload) =>
    let d := { d with files := ← fetchAll d.files (namedPaths payload) }
    match d.handle patience payload with
    | .ok d =>
      saveHistory d
      converse threshold [] d
    | .error (leaving, d) =>
      saveHistory d
      return ⟨some leaving, d⟩

/-- The debugger. -/
def runDebugger (args : List String) : IO UInt32 := do
  let settings ← readSettings
  let stdin ← IO.getStdin
  let files ← startFiles
  let files ← match Debugger.argumentSpec.parse {} args with
    | .parsed s =>
      fetchAll files (s.program.toList ++ [s.history.getD (Debugger.historyPath files)] ++
        s.commands.toList.flatMap commandPaths)
    | _ => pure files
  let start : Debugger.Start := ⟨files, settings, patience, none, .inl []⟩
  match Debugger.openWith start args with
  | .ended s => conclude s.finish s.threshold s.events
  | .loop threshold desk =>
    let stop ← if ← stdin.isTty then converse threshold [] desk
      else do
        let lines := Text.inputLines (← readAll stdin "")
        let files ← fetchAll desk.files (lines.flatMap namedPaths)
        pure (Debugger.plainLoop patience { desk with files } lines)
    let s := Debugger.finishLoop threshold stop
    conclude s.finish s.threshold s.events

end Dis.Main

/-- The debugger or the interpreter, by the name of the executable. -/
def main (args : List String) : IO UInt32 := do
  match (← IO.appPath).fileStem with
  | some "dis-dbg" => Dis.Main.runDebugger args
  | _ => Dis.Main.runInterpreter args
