import StructuralSchema.Fields

namespace StructuralSchema

structure Inputs where
  patterns : List String
  pointer : Option String
  deriving DecidableEq

structure Settings where
  config : Option String
  maxSize : Option UInt64
  deriving DecidableEq

inductive Command where
  | schema (inputs : Inputs) (out : Option String)
  | check (schema : String) (inputs : Inputs) (settings : Settings)
  | validate (schema : String) (inputs : Inputs) (settings : Settings) (looselyTyped : Bool)
  deriving DecidableEq

inductive Usage where
  | help | noArguments | unknownCommand | unknownArgument | missingArgument | repeatedArgument
  | missingValue | invalidValue | needlessValue
  deriving DecidableEq

namespace Usage

def exitCode : Usage → Nat
  | help => 0
  | _ => 2

end Usage

inductive Takes where
  | help | nothing | text | texts | path | size
  deriving DecidableEq

/-- A switch is written with its name after two dashes, or with its letter after one. -/
structure Switch where
  name : String
  letter : Option Char
  takes : Takes
  deriving DecidableEq

namespace Switch

def help : Switch := ⟨"help", some 'h', .help⟩
def pointer : Switch := ⟨"json-pointer", none, .text⟩
def input : Switch := ⟨"input", some 'i', .texts⟩
def out : Switch := ⟨"out", some 'o', .path⟩
def schema : Switch := ⟨"schema", some 's', .path⟩
def config : Switch := ⟨"config", none, .path⟩
def maxSize : Switch := ⟨"max-size", none, .size⟩
def looselyTyped : Switch := ⟨"loosely-typed", none, .nothing⟩

def isBare (switch : Switch) : Bool :=
  switch.takes = .help || switch.takes = .nothing

/-- A number of bytes in digits, perhaps after a plus sign, below `2 ^ 64`. -/
def size? (text : String) : Option UInt64 :=
  let digits : List Char := match text.toList with
    | '+' :: rest => rest
    | all => all
  let value := digits.foldl (fun n c => n * 10 + (c.toNat - '0'.toNat)) 0
  if digits ≠ [] ∧ digits.all Char.isDigit ∧ value < UInt64.size then some value.toUInt64 else none

end Switch

namespace Command

abbrev Values := Fields (List String)

def refuse? (takes : Takes) (value : String) : Option Usage :=
  match takes with
  | .path => if value = "" then some .missingValue else none
  | .size => if (Switch.size? value).isNone then some .invalidValue else none
  | _ => none

/-- Adds the values of one use of a switch. Only a switch that takes several may be used again. -/
def record (values : Values) (switch : Switch) (given : List String) : Except Usage Values :=
  if switch.takes = .help then .error .help
  else if given.isEmpty ∧ !switch.isBare then .error .missingValue
  else
    match values.get? switch.name with
    | some before =>
      if switch.takes = .texts then .ok (values.put switch.name (before ++ given))
      else .error .repeatedArgument
    | none =>
      match given.findSome? (refuse? switch.takes) with
      | some usage => .error usage
      | none => .ok (values.put switch.name given)

abbrev Pending := Option (Switch × List String)

def settle (values : Values) : Pending → Except Usage Values
  | none => .ok values
  | some (switch, given) => record values switch given

inductive Argument where
  /-- Two dashes alone: whatever follows is a value. -/
  | divider
  | long (name : String) (attached : Option String)
  | short (letter : Char) (attached : Option String)
  | plain (text : String)

/-- A dash alone is a value. A value may be attached to a letter with or without `=`. -/
def Argument.ofText (text : String) : Argument :=
  match text.toList with
  | ['-', '-'] => .divider
  | '-' :: '-' :: rest =>
    let name := rest.takeWhile (· ≠ '=')
    let attached := match rest.drop name.length with
      | [] => none
      | _ :: text => some (String.ofList text)
    .long (String.ofList name) attached
  | '-' :: letter :: rest =>
    let attached := match rest with
      | [] => none
      | '=' :: text => some (String.ofList text)
      | text => some (String.ofList text)
    .short letter attached
  | _ => .plain text

def begin (values : Values) (pending : Pending) (switch : Switch) (attached : Option String) :
    Except Usage (Values × Pending) := do
  let values ← settle values pending
  match attached with
  | some value => return (← record values switch [value], none)
  | none =>
    if switch.isBare then return (← record values switch [], none)
    else return (values, some (switch, []))

/-- Reads the arguments of a command that has the given switches. An argument that does not belong
there is reported before a fault of the switch that is pending. -/
def readSwitches (switches : List Switch) (values : Values) (pending : Pending) :
    List String → Except Usage Values
  | [] => settle values pending
  | argument :: rest =>
    match Argument.ofText argument with
    | .divider => if rest.isEmpty then settle values pending else .error .unknownArgument
    | .long name attached =>
      match switches.find? (·.name = name) with
      | none => .error .unknownArgument
      | some switch =>
        if switch.isBare ∧ attached.isSome then .error .needlessValue
        else do
          let (values, pending) ← begin values pending switch attached
          readSwitches switches values pending rest
    | .short letter attached =>
      match switches.find? (·.letter = some letter) with
      | none => .error .unknownArgument
      | some switch => do
        let (values, pending) ←
          begin values pending switch (if switch.isBare then none else attached)
        readSwitches switches values pending rest
    | .plain text =>
      match pending with
      | some (switch, given) =>
        if switch.takes = .texts ∨ given.isEmpty then
          readSwitches switches values (some (switch, given ++ [text])) rest
        else .error .unknownArgument
      | none => .error .unknownArgument

def all (values : Values) (switch : Switch) : List String :=
  (values.get? switch.name).getD []

def one? (values : Values) (switch : Switch) : Option String :=
  (all values switch).head?

def isGiven (values : Values) (switch : Switch) : Bool :=
  (values.get? switch.name).isSome

def one (values : Values) (switch : Switch) : Except Usage String :=
  match one? values switch with
  | some value => .ok value
  | none => .error .missingArgument

def inputs (values : Values) : Except Usage Inputs :=
  match all values .input with
  | [] => .error .missingArgument
  | patterns => .ok ⟨patterns, one? values .pointer⟩

def settings (values : Values) : Settings :=
  ⟨one? values .config, (one? values .maxSize).bind Switch.size?⟩

def inputSwitches : List Switch := [.help, .pointer, .input]

def settingSwitches : List Switch := [.config, .maxSize]

def schemaOfArguments (arguments : List String) : Except Usage Command := do
  let values ← readSwitches (.out :: inputSwitches) [] none arguments
  return .schema (← inputs values) (one? values .out)

def checkOfArguments (arguments : List String) : Except Usage Command := do
  let values ← readSwitches (.schema :: inputSwitches ++ settingSwitches) [] none arguments
  return .check (← one values .schema) (← inputs values) (settings values)

def validateOfArguments (arguments : List String) : Except Usage Command := do
  let switches := .schema :: .looselyTyped :: inputSwitches ++ settingSwitches
  let values ← readSwitches switches [] none arguments
  return .validate (← one values .schema) (← inputs values) (settings values)
    (isGiven values .looselyTyped)

def names : List String := ["schema", "check", "validate", "help"]

def helpOn : List String → Usage
  | [] => .help
  | [name] => if name ∈ names then .help else .unknownCommand
  | _ => .unknownCommand

def withoutName (argument : String) (rest : List String) : Usage :=
  match Argument.ofText argument, rest with
  | .divider, [] => .noArguments
  | .divider, next :: _ => if next ∈ names then .unknownArgument else .unknownCommand
  | .long name attached, _ =>
    if name ≠ Switch.help.name then .unknownArgument
    else if attached.isSome then .needlessValue
    else .help
  | .short letter _, _ => if some letter = Switch.help.letter then .help else .unknownArgument
  | .plain _, _ => .unknownCommand

def ofArguments : List String → Except Usage Command
  | [] => .error .noArguments
  | argument :: rest =>
    if argument = "schema" then schemaOfArguments rest
    else if argument = "check" then checkOfArguments rest
    else if argument = "validate" then validateOfArguments rest
    else if argument = "help" then .error (helpOn rest)
    else .error (withoutName argument rest)

end Command

end StructuralSchema
