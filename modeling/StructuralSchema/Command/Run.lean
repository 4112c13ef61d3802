import StructuralSchema.Command
import StructuralSchema.Glob
import StructuralSchema.Json.Pointer
import StructuralSchema.Options.Text
import StructuralSchema.Predicate.Builtin
import StructuralSchema.Schema.Document
import StructuralSchema.Validation

namespace StructuralSchema

inductive Failure where
  | badPattern (mistake : Glob.Mistake)
  | noMatch (pattern : String)
  | unreadInput (label : String) (trouble : Trouble)
  | malformedInput (label : String) (mistake : Json.Mistake)
  | nothingSelected (label pointer : String)
  | unreadSchema (path : String) (trouble : Trouble)
  | badSchema (path : String) (fault : Fault)
  | unreadOptions (path : String) (trouble : Trouble)
  | badOptions (path : String) (mistake : Options.Mistake)
  | notOneInstance (count : Nat)
  | notInferred (label : String) (fault : Fault)
  | notWritten (trouble : Trouble)

namespace Failure

/-- The message of a fault followed by what caused it, which for a malformed text is told twice. -/
def chain : Fault → String
  | .malformed mistake => s!"{(Fault.malformed mistake).message}: {mistake.message}"
  | fault => fault.message

def message : Failure → String
  | badPattern mistake => s!"failed to resolve input file paths: {mistake.message}"
  | noMatch pattern =>
    s!"failed to resolve input file paths: glob pattern matched no files: {pattern}"
  | unreadInput label trouble => s!"failed to read source file ({label}): {trouble.message}"
  | malformedInput label mistake =>
    s!"failed to parse JSON source file ({label}): {mistake.message}"
  | nothingSelected label pointer => s!"JSON pointer {pointer} selects nothing in {label}"
  | unreadSchema path trouble => s!"failed to read schema file ({path}): {trouble.message}"
  | badSchema path fault => s!"failed to load schema ({path}): {chain fault}"
  | unreadOptions path trouble => s!"failed to read options file {path}: {trouble.message}"
  | badOptions path mistake => s!"invalid options file {path}: {mistake.message}"
  | notOneInstance count => s!"schema inference takes exactly one instance, got {count}"
  | notInferred label fault => s!"failed to infer a schema from {label}: {chain fault}"
  | notWritten trouble => trouble.message

end Failure

structure Ending where
  exitCode : Nat
  out : String
  err : String
  disk : Disk

namespace Ending

def ofFailure (disk : Disk) (failure : Failure) : Ending :=
  ⟨1, "", s!"Error: {failure.message}\n", disk⟩

def ofSaving (saved : Disk.Aftermath) : Ending :=
  match saved.trouble with
  | none => ⟨0, "", "", saved.disk⟩
  | some trouble => ofFailure saved.disk (.notWritten trouble)

end Ending

structure Loaded where
  label : String
  given : Instance

namespace Inputs

def resolve (disk : Disk) (pattern : String) : Except Failure (List String) :=
  if Glob.hasWildcard pattern then
    match Glob.find disk pattern with
    | .ok [] => .error (.noMatch pattern)
    | .ok paths => .ok paths
    | .error mistake => .error (.badPattern mistake)
  else .ok [pattern]

def select (pointer : Option String) (label text : String) : Except Failure Instance :=
  match pointer with
  | none => .ok (.text text)
  | some pointer => do
    let value ← (Json.ofText text).mapError (.malformedInput label)
    match Json.Pointer.select? pointer value with
    | some part => .ok (.value part)
    | none => .error (.nothingSelected label pointer)

def loadOne (disk : Disk) (pointer : Option String) (path : String) : Except Failure Loaded := do
  let text ← (disk.read path).mapError (.unreadInput path)
  return ⟨path, ← select pointer path text⟩

def load (inputs : Inputs) (disk : Disk) : Except Failure (List Loaded) := do
  let paths ← inputs.patterns.mapM (resolve disk)
  paths.flatten.mapM (loadOne disk inputs.pointer)

end Inputs

namespace Settings

def load (settings : Settings) (disk : Disk) (looselyTyped : Bool) : Except Failure Options := do
  let base ← match settings.config with
    | none => .ok {}
    | some path => do
      let text ← (disk.read path).mapError (.unreadOptions path)
      (Options.ofText text).mapError (.badOptions path)
  return base.merged settings.maxSize looselyTyped

end Settings

def loadSchema (disk : Disk) (path : String) : Except Failure (Schema Builtin) := do
  let text ← (disk.read path).mapError (.unreadSchema path)
  (Schema.ofDocumentText (Registry.builtin id) text).mapError (.badSchema path)

namespace Report

inductive Colour where
  | green | red

def Colour.code : Colour → String
  | green => "\x1b[32m"
  | red => "\x1b[31m"

def reset : List Char := ['\x1b', '[', '0', 'm']

/-- Begins the colour again wherever the text itself ends it. -/
def renew (code : List Char) : List Char → List Char
  | '\x1b' :: '[' :: '0' :: 'm' :: rest => reset ++ code ++ renew code rest
  | c :: rest => c :: renew code rest
  | [] => []

def paint (colours : Bool) (colour : Colour) (text : String) : String :=
  if colours then
    colour.code ++ String.ofList (renew colour.code.toList text.toList) ++ String.ofList reset
  else text

def line (colours : Bool) (label : String) : Option String → String
  | none => paint colours .green "✅" ++ " " ++ label ++ "\n"
  | some reason =>
    paint colours .red "❌" ++ " " ++ label ++ ": " ++ paint colours .red reason ++ "\n"

def checkReason (options : Options) (schema : Schema Builtin) (given : Instance) : Option String :=
  match isValid options given schema with
  | .ok true => none
  | .ok false => some "shape differs from the schema"
  | .error fault => some fault.message

def validateReason (options : Options) (schema : Schema Builtin) (given : Instance) :
    Option String :=
  match validate options given schema with
  | .ok _ => none
  | .error fault => some fault.message

def ending (colours : Bool) (disk : Disk) (reason : Instance → Option String)
    (loaded : List Loaded) : Ending where
  exitCode := if loaded.all fun input => (reason input.given).isNone then 0 else 1
  out := String.join (loaded.map fun input => line colours input.label (reason input.given))
  err := ""
  disk := disk

end Report

namespace Command

def runSchema (inputs : Inputs) (out : Option String) (disk : Disk) : Except Failure Ending := do
  match ← inputs.load disk with
  | [input] =>
    let schema : Schema Builtin ←
      (Schema.ofInstance input.given).mapError (.notInferred input.label)
    let text := schema.toDocument.indented
    match out with
    | none => return ⟨0, text ++ "\n", "", disk⟩
    | some path => return .ofSaving (disk.save path text)
  | loaded => .error (.notOneInstance loaded.length)

/-- A check compares whole shapes, so that loose typing means nothing to it. -/
def runCheck (colours : Bool) (path : String) (inputs : Inputs) (settings : Settings)
    (disk : Disk) : Except Failure Ending := do
  let schema ← loadSchema disk path
  let options ← settings.load disk false
  let loaded ← inputs.load disk
  let options := { options with looselyTyped := false }
  return Report.ending colours disk (Report.checkReason options schema) loaded

def runValidate (colours : Bool) (path : String) (inputs : Inputs) (settings : Settings)
    (looselyTyped : Bool) (disk : Disk) : Except Failure Ending := do
  let schema ← loadSchema disk path
  let options ← settings.load disk looselyTyped
  let loaded ← inputs.load disk
  return Report.ending colours disk (Report.validateReason options schema) loaded

def attempt (colours : Bool) (disk : Disk) : Command → Except Failure Ending
  | .schema inputs out => runSchema inputs out disk
  | .check path inputs settings => runCheck colours path inputs settings disk
  | .validate path inputs settings looselyTyped =>
    runValidate colours path inputs settings looselyTyped disk

/-- Runs a command. One that fails before it comes to writing leaves the disk as it was. -/
def run (command : Command) (colours : Bool) (disk : Disk) : Ending :=
  match command.attempt colours disk with
  | .ok ending => ending
  | .error failure => .ofFailure disk failure

end Command

end StructuralSchema
