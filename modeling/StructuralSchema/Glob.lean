import StructuralSchema.Disk

namespace StructuralSchema.Glob

inductive Token where
  | char (c : Char)
  | anyChar
  | anyText
  | anyDirectories
  | oneOf (ranges : List (Char × Char))
  | noneOf (ranges : List (Char × Char))
  deriving DecidableEq

inductive Defect where
  | tooManyStars | starsWithinName | openSet
  deriving DecidableEq

namespace Defect

def message : Defect → String
  | tooManyStars => "wildcards are either regular `*` or recursive `**`"
  | starsWithinName => "recursive wildcards must form a single path component"
  | openSet => "invalid range pattern"

end Defect

structure Mistake where
  position : Nat
  defect : Defect
  deriving DecidableEq

namespace Mistake

def message (mistake : Mistake) : String :=
  s!"Pattern syntax error near position {mistake.position}: {mistake.defect.message}"

end Mistake

def hasWildcard (pattern : String) : Bool :=
  pattern.toList.any fun c => c = '*' || c = '?' || c = '['

def ranges : List Char → List (Char × Char)
  | first :: '-' :: last :: rest => (first, last) :: ranges rest
  | c :: rest => (c, c) :: ranges rest
  | [] => []

/-- Two stars have to be a part of their own, from slash to slash. -/
def readStars (position : Nat) (before : Option Char) (stars : Nat) (after : List Char) :
    Except Mistake (Token × Nat) :=
  if stars = 1 then .ok (.anyText, 1)
  else if 2 < stars then .error ⟨position + 2, .tooManyStars⟩
  else if before.any (· ≠ '/') then .error ⟨position - 1, .starsWithinName⟩
  else
    match after with
    | [] => .ok (.anyDirectories, 2)
    | c :: _ =>
      if c = '/' then .ok (.anyDirectories, 3) else .error ⟨position + 2, .starsWithinName⟩

/-- Reads what follows an opening bracket. The first character of a set may be any, even a closing
bracket. -/
def readSet (position : Nat) (text : List Char) : Except Mistake (Token × Nat) :=
  match text with
  | '!' :: first :: rest =>
    match rest.idxOf? ']' with
    | some size => .ok (.noneOf (ranges (first :: rest.take size)), size + 4)
    | none => .error ⟨position, .openSet⟩
  | ['!'] => .error ⟨position, .openSet⟩
  | first :: rest =>
    match rest.idxOf? ']' with
    | some size => .ok (.oneOf (ranges (first :: rest.take size)), size + 3)
    | none => .error ⟨position, .openSet⟩
  | [] => .error ⟨position, .openSet⟩

def readToken (position : Nat) (before : Option Char) (c : Char) (rest : List Char) :
    Except Mistake (Token × Nat) :=
  match c with
  | '?' => .ok (.anyChar, 1)
  | '*' =>
    let more := (rest.takeWhile (· = '*')).length
    readStars position before (more + 1) (rest.drop more)
  | '[' => readSet position rest
  | c => .ok (.char c, 1)

/-- Reads the tokens of a pattern from the given position on, after so many characters that belong
to the token before. -/
def readFrom (position : Nat) (before : Option Char) (skip : Nat) :
    List Char → Except Mistake (List Token)
  | [] => .ok []
  | c :: rest =>
    match skip with
    | skip + 1 => readFrom (position + 1) (some c) skip rest
    | 0 => do
      let (token, size) ← readToken position before c rest
      return token :: (← readFrom (position + 1) (some c) (size - 1) rest)

def read (pattern : List Char) : Except Mistake (List Token) :=
  readFrom 0 none 0 pattern

def inRanges (ranges : List (Char × Char)) (c : Char) : Bool :=
  ranges.any fun range => range.1 ≤ c && c ≤ range.2

def someEnd (p : List Char → Bool) : List Char → Bool
  | [] => p []
  | c :: rest => p (c :: rest) || someEnd p rest

def accepts : List Token → List Char → Bool
  | [], name => name.isEmpty
  | .anyText :: tokens, name => someEnd (accepts tokens) name
  | .anyDirectories :: tokens, name => someEnd (accepts tokens) name
  | _ :: _, [] => false
  | .char d :: tokens, c :: name => c = d && accepts tokens name
  | .anyChar :: tokens, _ :: name => accepts tokens name
  | .oneOf ranges :: tokens, c :: name => inRanges ranges c && accepts tokens name
  | .noneOf ranges :: tokens, c :: name => !inRanges ranges c && accepts tokens name

def Token.char? : Token → Option Char
  | char c => some c
  | _ => none

def literal? (tokens : List Token) : Option String :=
  (tokens.mapM Token.char?).map String.ofList

def isRecursive (tokens : List Token) : Bool :=
  tokens = [.anyDirectories]

def isHere (path : String) : Bool :=
  !Disk.isAbsolute path && !(Disk.steps path).isEmpty && (Disk.steps path).all (· = ".")

def join (path name : String) : String :=
  if Disk.hasSlashAtEnd path then path ++ name else path ++ "/" ++ name

/-- The path of something in a directory. The working directory is not named in it. -/
def within (path name : String) : String :=
  if isHere path then name else join path name

/-- The directory itself and the one above it match only patterns that begin with a dot. -/
def dots (tokens : List Token) : List String :=
  if tokens.head? = some (.char '.') then
    ["..", "."].filter fun name => accepts tokens name.toList
  else []

def isDirectory (disk : Disk) (path : String) : Bool :=
  match disk.locate path with
  | .ok location => disk.isDirectory location
  | .error _ => false

def below (disk : Disk) (path : String) : List Location :=
  match disk.locate path with
  | .ok location => if disk.isDirectory location then disk.below location else []
  | .error _ => []

def expand (disk : Disk) : List (List Token) → String → List String
  | [], path => [path]
  | part :: parts, path =>
    if isRecursive part then
      let ways := below disk path
      match parts with
      | [] => (ways.map (·.foldl within path)).filter (isDirectory disk)
      | next :: others =>
        if isRecursive next then expand disk (next :: others) path
        else ways.flatMap fun way =>
          if way.getLast?.any fun name => accepts next name.toList then
            expand disk others (way.foldl within path)
          else []
    else
      match literal? part with
      | some name =>
        let there :=
          if name = "." ∨ name = ".." then isDirectory disk path
          else (disk.locate (within path name)).isOk
        if there then expand disk parts (within path name) else []
      | none =>
        let names := (below disk path).filterMap fun
          | [name] => if accepts part name.toList then some name else none
          | _ => none
        let special := if isDirectory disk path then dots part else []
        special.flatMap (fun name => expand disk parts (join path name)) ++
          names.flatMap fun name => expand disk parts (within path name)

/-- The parts of a pattern; a slash at its end begins no further part. -/
def parts (pattern : List Char) : List (List Char) :=
  let all := Text.split '/' pattern
  if all.getLast? = some [] then all.dropLast else all

/-- The paths that a pattern matches. With a slash at its end it matches directories only. -/
def find (disk : Disk) (pattern : String) : Except Mistake (List String) := do
  let _ ← read pattern.toList
  let (scope, rest) :=
    if Disk.isAbsolute pattern then ("/", pattern.toList.drop 1) else (".", pattern.toList)
  let found := expand disk (← (parts rest).mapM read) scope
  return if Disk.hasSlashAtEnd pattern then found.filter (isDirectory disk) else found

end StructuralSchema.Glob
