import StructuralSchema.Text.Split

namespace StructuralSchema

/-- The names on the way from the root to a file or directory. -/
abbrev Location := List String

-- Contents are compared by the core library's instance, whatever other instances are in scope.
local instance decidableEqContent : DecidableEq ByteArray :=
  ByteArray.instDecidableEq

inductive Node where
  | file (content : ByteArray)
  | directory
  deriving DecidableEq

structure Disk where
  nodes : List (Location × Node)
  /-- The working directory. -/
  here : Location

inductive Trouble where
  | missing | alreadyExists | notDirectory | isDirectory | notText
  deriving DecidableEq

namespace Trouble

def message : Trouble → String
  | missing => "No such file or directory (os error 2)"
  | alreadyExists => "File exists (os error 17)"
  | notDirectory => "Not a directory (os error 20)"
  | isDirectory => "Is a directory (os error 21)"
  | notText => "stream did not contain valid UTF-8"

end Trouble

namespace Disk

def node? (disk : Disk) (location : Location) : Option Node :=
  if location = [] then some .directory else disk.nodes.lookup location

def isDirectory (disk : Disk) (location : Location) : Bool :=
  disk.node? location = some .directory

def place (location : Location) (node : Node) : List (Location × Node) → List (Location × Node)
  | [] => [(location, node)]
  | entry :: rest =>
    if entry.1 = location then (location, node) :: rest else entry :: place location node rest

def put (disk : Disk) (location : Location) (node : Node) : Disk :=
  { disk with nodes := place location node disk.nodes }

theorem lookup_cons (entry : Location × Node) (rest : List (Location × Node)) (other : Location) :
    List.lookup other (entry :: rest) =
      if other = entry.1 then some entry.2 else rest.lookup other := by
  obtain ⟨location, node⟩ := entry
  by_cases h : other = location
  · simp [h]
  · simp [List.lookup_cons, h, beq_false_of_ne h]

theorem lookup_place (nodes : List (Location × Node)) (location other : Location) (node : Node) :
    (place location node nodes).lookup other =
      if other = location then some node else nodes.lookup other := by
  induction nodes with
  | nil => simp [place, lookup_cons]
  | cons entry rest ih =>
    by_cases h : entry.1 = location
    · by_cases ho : other = location <;> simp [place, h, lookup_cons, ho]
    · by_cases ho : other = entry.1
      · simp [place, h, lookup_cons, ho]
      · simp [place, h, lookup_cons, ho, ih]

theorem node?_put (disk : Disk) (location other : Location) (node : Node) :
    (disk.put location node).node? other =
      if other = [] then some .directory
      else if other = location then some node
      else disk.node? other := by
  by_cases h : other = [] <;> simp [node?, put, h, lookup_place]

def steps (path : String) : List String :=
  ((Text.split '/' path.toList).filter (· ≠ [])).map String.ofList

def isAbsolute (path : String) : Bool :=
  path.toList.head? = some '/'

def hasSlashAtEnd (path : String) : Bool :=
  path.toList.getLast? = some '/'

def start (disk : Disk) (path : String) : Location :=
  if isAbsolute path then [] else disk.here

def follow (disk : Disk) (location : Location) : List String → Except Trouble Location
  | [] => .ok location
  | step :: rest =>
    if !disk.isDirectory location then .error .notDirectory
    else if step = "." then follow disk location rest
    else if step = ".." then follow disk location.dropLast rest
    else if disk.node? (location ++ [step]) = none then .error .missing
    else follow disk (location ++ [step]) rest

def locate (disk : Disk) (path : String) : Except Trouble Location :=
  if path = "" then .error .missing
  else disk.follow (disk.start path) (steps path ++ (if hasSlashAtEnd path then ["."] else []))

def read (disk : Disk) (path : String) : Except Trouble String := do
  let location ← disk.locate path
  match disk.node? location with
  | some (.file content) =>
    match String.fromUTF8? content with
    | some text => .ok text
    | none => .error .notText
  | some .directory => .error .isDirectory
  | none => .error .missing

def leadsToDirectory (disk : Disk) (location : Location) (steps : List String) : Bool :=
  match disk.follow location steps with
  | .ok location => disk.isDirectory location
  | .error _ => false

def makeDirectory (disk : Disk) (location : Location) (steps : List String) (name : String) :
    Except Trouble Disk := do
  let parent ← disk.follow location steps
  if !disk.isDirectory parent then .error .notDirectory
  else if name = "." ∨ name = ".." then .error .alreadyExists
  else if disk.node? (parent ++ [name]) = none then .ok (disk.put (parent ++ [name]) .directory)
  else .error .alreadyExists

/-- What work on a disk leaves behind: the disk, and the trouble that the work ended in, if any. What
was done before the trouble stays done. -/
structure Aftermath where
  disk : Disk
  trouble : Option Trouble

namespace Aftermath

def ofStep (disk : Disk) : Except Trouble Disk → Aftermath
  | .ok changed => ⟨changed, none⟩
  | .error trouble => ⟨disk, some trouble⟩

def andThen (first : Aftermath) (next : Disk → Aftermath) : Aftermath :=
  match first.trouble with
  | none => next first.disk
  | some _ => first

end Aftermath

/-- Makes one directory. If that fails, a directory that is there already will do. -/
def makeOrFind (disk : Disk) (location : Location) (steps : List String) (name : String) :
    Aftermath :=
  match disk.makeDirectory location steps name with
  | .ok made => ⟨made, none⟩
  | .error trouble =>
    ⟨disk, if disk.leadsToDirectory location (steps ++ [name]) then none else some trouble⟩

/-- Makes a directory unless there is one; the steps to it are given from the last one backwards. If
the one above it is missing, that is made before. -/
def ensureDirectory (disk : Disk) (location : Location) : List String → Aftermath
  | [] => ⟨disk, none⟩
  | name :: above =>
    match disk.makeDirectory location above.reverse name with
    | .error .missing =>
      (ensureDirectory disk location above).andThen (·.makeOrFind location above.reverse name)
    | _ => disk.makeOrFind location above.reverse name

def write (disk : Disk) (path : String) (text : String) : Except Trouble Disk :=
  match (steps path).reverse with
  | [] => if path = "" then .error .missing else .error .isDirectory
  | name :: above => do
    let parent ← disk.follow (disk.start path) above.reverse
    let location := parent ++ [name]
    if !disk.isDirectory parent then .error .notDirectory
    else if hasSlashAtEnd path ∨ name = "." ∨ name = ".." then .error .isDirectory
    else if disk.isDirectory location then .error .isDirectory
    else .ok (disk.put location (.file text.toUTF8))

/-- Writes a file and makes the directories above it, which stay if the file cannot be written. -/
def save (disk : Disk) (path : String) (text : String) : Aftermath :=
  let above := ((steps path).filter (· ≠ ".")).reverse.drop 1
  (disk.ensureDirectory (disk.start path) above).andThen fun disk =>
    .ofStep disk (disk.write path text)

/-- The ways to all that is below a place, each directory followed by what it holds, names in
order. -/
def below (disk : Disk) (location : Location) : List Location :=
  let ways := disk.nodes.filterMap fun entry =>
    if location.isPrefixOf entry.1 ∧ entry.1 ≠ location then
      some (entry.1.drop location.length)
    else none
  ways.mergeSort fun a b => !b.lex a

end Disk

end StructuralSchema
