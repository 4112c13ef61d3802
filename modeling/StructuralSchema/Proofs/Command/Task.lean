import Mathlib.Data.List.Forall2
import StructuralSchema.Proofs.Command.Arguments
import StructuralSchema.Proofs.Command.Entries

namespace StructuralSchema

namespace Inputs

/-- A text without wildcards stands for itself, and one with wildcards for the paths that match it,
of which there has to be one. -/
def StandsFor (disk : Disk) (pattern : String) (paths : List String) : Prop :=
  if pattern.toList.any fun c => c = '*' || c = '?' || c = '[' then
    Glob.find disk pattern = .ok paths ∧ paths ≠ []
  else paths = [pattern]

/-- A text is taken as it is, unless a pointer selects a part of the value that it is read as. -/
def Holds (pointer : Option String) (text : String) (given : Instance) : Prop :=
  match pointer with
  | none => given = .text text
  | some pointer => ∃ root, Json.ofText text = .ok root ∧
      ∃ part, Json.Pointer.select? pointer root = some part ∧ given = .value part

def Finds (disk : Disk) (pointer : Option String) (path : String) (given : Instance) : Prop :=
  ∃ text, disk.read path = .ok text ∧ Holds pointer text given

end Inputs

def Settings.Base (settings : Settings) (disk : Disk) (base : Options) : Prop :=
  match settings.config with
  | none => base = {}
  | some path => ∃ text, disk.read path = .ok text ∧ Options.ofText text = .ok base

inductive Question where
  | shape
  | checks (looselyTyped : Bool)

namespace Question

def options (base : Options) (maxSize : Option UInt64) : Question → Options
  | shape => ⟨maxSize.or base.maxSize, false⟩
  | checks looselyTyped => ⟨maxSize.or base.maxSize, base.looselyTyped || looselyTyped⟩

def Passes (options : Options) (schema : Schema Builtin) (given : Instance) : Question → Prop
  | shape => isValid options given schema = .ok true
  | checks _ => validate options given schema = .ok ()

def FailsWith (options : Options) (schema : Schema Builtin) (given : Instance) (why : String) :
    Question → Prop
  | shape =>
    isValid options given schema = .ok false ∧ why = "shape differs from the schema" ∨
      ∃ fault, isValid options given schema = .error fault ∧ why = fault.message
  | checks _ => ∃ fault, validate options given schema = .error fault ∧ why = fault.message

end Question

structure Task where
  schema : String
  inputs : Inputs
  settings : Settings
  question : Question

namespace Task

def command (task : Task) : Command :=
  match task.question with
  | .shape => .check task.schema task.inputs task.settings
  | .checks looselyTyped => .validate task.schema task.inputs task.settings looselyTyped

structure AskedBy (task : Task) (name : String) (arguments : List String) : Prop where
  question : name = "check" ∧ task.question = .shape ∨
    name = "validate" ∧ task.question = .checks (Command.mentions .looselyTyped arguments)
  schema : (Command.valuesFor .schema false arguments).head? = some task.schema
  patterns : task.inputs.patterns = Command.valuesFor .input false arguments
  pointer : task.inputs.pointer = (Command.valuesFor .pointer false arguments).head?
  config : task.settings.config = (Command.valuesFor .config false arguments).head?
  maxSize : task.settings.maxSize =
    (Command.valuesFor .maxSize false arguments).head?.bind Switch.size?

def FindsSchema (task : Task) (disk : Disk) (schema : Schema Builtin) : Prop :=
  ∃ text, disk.read task.schema = .ok text ∧
    Schema.ofDocumentText (Registry.builtin id) text = .ok schema

inductive Lacks (task : Task) (disk : Disk) : Prop where
  | schema (h : ∀ schema, ¬task.FindsSchema disk schema)
  | options (h : ∀ base, ¬task.settings.Base disk base)
  | paths {pattern : String} (hp : pattern ∈ task.inputs.patterns)
      (h : ∀ paths, ¬Inputs.StandsFor disk pattern paths)
  | input {pattern path : String} {paths : List String} (hp : pattern ∈ task.inputs.patterns)
      (hs : Inputs.StandsFor disk pattern paths) (hm : path ∈ paths)
      (h : ∀ given, ¬Inputs.Finds disk task.inputs.pointer path given)

/-- All that the task needs is there. The inputs come in the order of the patterns, and those of one
pattern in the order of its matches. -/
structure Loads (task : Task) (disk : Disk) (schema : Schema Builtin) (options : Options)
    (loaded : List Loaded) : Prop where
  schema : task.FindsSchema disk schema
  options : ∃ base, task.settings.Base disk base ∧
    options = task.question.options base task.settings.maxSize
  inputs : ∃ found : List (List String),
    List.Forall₂ (Inputs.StandsFor disk) task.inputs.patterns found ∧
      List.Forall₂ (fun path input => input.label = path ∧
        Inputs.Finds disk task.inputs.pointer path input.given) found.flatten loaded

end Task

/-- How a run of the task ends: with nothing printed if it lacks anything, else with the texts of
an entry for each input. Neither way does it change the disk. -/
inductive Task.Ends (task : Task) (colours : Bool) (disk : Disk) (ending : Ending) : Prop where
  | silent (hl : task.Lacks disk) (out : ending.out = "") (exitCode : ending.exitCode = 1)
      (kept : ending.disk = disk)
  | told (hl : ¬task.Lacks disk) {schema : Schema Builtin} {options : Options}
      {loaded : List Loaded} (loads : task.Loads disk schema options loaded)
      {entries : List Report.Entry}
      (each : List.Forall₂ (fun input entry => entry.label = input.label ∧
        (entry.reason = none ↔ task.question.Passes options schema input.given) ∧
        ∀ why, entry.reason = some why ↔
          task.question.FailsWith options schema input.given why) loaded entries)
      {texts : List String} (shown : List.Forall₂ (Report.Entry.Shows colours) entries texts)
      (out : ending.out = String.join texts)
      (exitCode : ending.exitCode = if ∀ entry ∈ entries, entry.reason = none then 0 else 1)
      (kept : ending.disk = disk)

end StructuralSchema
