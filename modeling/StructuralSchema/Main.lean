import StructuralSchema.Command.Run

namespace StructuralSchema.Program

def pathOf (location : Location) : String :=
  "/" ++ "/".intercalate location

def namesIn? (location : Location) : IO (Option (List String)) := do
  try
    let entries ← (← IO.FS.realPath (pathOf location)).readDir
    return some (entries.toList.map fun entry => entry.fileName)
  catch _ => return none

def contentOf? (location : Location) : IO (Option ByteArray) := do
  try return some (← IO.FS.readBinFile (pathOf location))
  catch _ => return none

def look (disk : Disk) (location : Location) : IO Disk := do
  if (← namesIn? location).isSome then return disk.put location .directory
  match ← contentOf? location with
  | some content => return disk.put location (.file content)
  | none => return disk

def lookAlong (disk : Disk) (location : Location) : List String → IO (Disk × Location)
  | [] => return (disk, location)
  | step :: rest => do
    let next :=
      if step = "." then location
      else if step = ".." then location.dropLast
      else location ++ [step]
    lookAlong (← look disk next) next rest

def lookAt (disk : Disk) (path : String) : IO Disk := do
  return (← lookAlong disk (disk.start path) (Disk.steps path)).1

/-- Looks for the names in a directory and tells which of them are directories again. The contents
of files that have not been looked at do not matter yet. -/
def lookInto (disk : Disk) (location : Location) : IO (Disk × List Location) := do
  let names := (← namesIn? location).getD []
  names.foldlM (fun (disk, inner) name => do
    let place := location ++ [name]
    if (← namesIn? place).isSome then return (disk.put place .directory, place :: inner)
    else if (disk.node? place).isSome then return (disk, inner)
    else return (disk.put place (.file ByteArray.empty), inner)) (disk, [])

/-- Looks so many levels deep, or as deep as directories go. -/
def lookBelow (disk : Disk) (location : Location) (levels : Option Nat) : IO Disk := do
  let mut seen := disk
  let mut left := levels
  let mut ahead := [location]
  while !ahead.isEmpty && left != some 0 do
    let mut found := []
    for place in ahead do
      let (disk, inner) ← lookInto seen place
      seen := disk
      found := found ++ inner
    ahead := found
    left := left.map (· - 1)
  return seen

def lookFor (disk : Disk) (pattern : String) : IO Disk := do
  if !Glob.hasWildcard pattern then lookAt disk pattern
  else
    let steps := Disk.steps pattern
    let fixed := steps.takeWhile fun step => !Glob.hasWildcard step
    let (seen, location) ← lookAlong disk (disk.start pattern) fixed
    let levels := if "**" ∈ steps then none else some (steps.length - fixed.length)
    let below ← lookBelow seen location levels
    match Glob.find below pattern with
    | .ok paths => paths.foldlM lookAt below
    | .error _ => return seen

def snapshot (command : Command) : IO Disk := do
  let here := Disk.steps (← IO.currentDir).toString
  let above := (List.range here.length).map fun n => (here.take (n + 1), Node.directory)
  let look (inputs : Inputs) (paths : List String) : IO Disk := do
    inputs.patterns.foldlM lookFor (← paths.foldlM lookAt ⟨above, here⟩)
  match command with
  | .schema inputs out => look inputs out.toList
  | .check path inputs settings => look inputs (path :: settings.config.toList)
  | .validate path inputs settings _ => look inputs (path :: settings.config.toList)

def store (before after : Disk) : IO Unit :=
  after.nodes.forM fun (location, node) => do
    if before.node? location ≠ some node then
      match node with
      | .directory => IO.FS.createDirAll (pathOf location)
      | .file content => IO.FS.writeBinFile (pathOf location) content

/-- Colours are for terminals, unless the environment asks for them or forbids them. -/
def wantsColours : IO Bool := do
  let isOn (value : Option String) (otherwise : Bool) : Bool :=
    (value.map (· != "0")).getD otherwise
  if isOn (← IO.getEnv "CLICOLOR_FORCE") false then return true
  if (← IO.getEnv "NO_COLOR").isSome then return false
  return isOn (← IO.getEnv "CLICOLOR") true && (← (← IO.getStdout).isTty)

def usage : String :=
  "infer structural schemas from example JSON and check instances against them\n\n" ++
  "schema -i INPUT [-o OUT] [--json-pointer POINTER]\n" ++
  "    infer a schema document from one example instance\n" ++
  "check -s SCHEMA -i INPUT... [--json-pointer POINTER] [--config FILE] [--max-size BYTES]\n" ++
  "    strict check: each instance must have exactly the shape of the schema\n" ++
  "validate -s SCHEMA -i INPUT... [--json-pointer POINTER] [--config FILE] [--max-size BYTES]\n" ++
  "        [--loosely-typed]\n" ++
  "    recursive validation with key reconciliation and predicates\n" ++
  "help [COMMAND]\n"

def run (command : Command) : IO UInt32 := do
  let disk ← snapshot command
  let ending := command.run (← wantsColours) disk
  store disk ending.disk
  IO.print ending.out
  IO.eprint ending.err
  return ending.exitCode.toUInt32

end StructuralSchema.Program

def main (arguments : List String) : IO UInt32 := do
  match StructuralSchema.Command.ofArguments arguments with
  | .ok command => StructuralSchema.Program.run command
  | .error problem =>
    if problem.exitCode = 0 then IO.print StructuralSchema.Program.usage
    else IO.eprint StructuralSchema.Program.usage
    return problem.exitCode.toUInt32
