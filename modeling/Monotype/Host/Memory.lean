import Monotype.Host

/-!
A host in memory: a single folder with its files, and the texts printed so far.
-/

namespace Monotype

/-- A folder of files. Files and folders go by the names on the way to them. -/
structure Memory where
  files : List (List String × List UInt8) := []
  folders : List (List String) := []
  /-- Files that may not be read or created. -/
  denied : List (List String) := []
  out : String := ""
  err : String := ""
  version : Option String := none
deriving Repr, DecidableEq, Inhabited

namespace Memory

/-- A place in the folder, or somewhere above it. -/
abbrev Location := Option (List String)

def start (p : Path) : Location := if p.anchor = .here then some [] else none

def parent : Location → Location
  | none | some [] => none
  | some parts => some parts.dropLast

def pathTo : Location → Path
  | none => { parts := [".."] }
  | some parts => { parts }

def isFile (m : Memory) (parts : List String) : Bool := m.files.any (·.1 == parts)

/-- The folder itself is one, and so is everything that something lies in. -/
def isFolderAt (m : Memory) (parts : List String) : Bool :=
  let lies := fun inner : List String => parts.isPrefixOf inner && parts.length < inner.length
  parts.isEmpty || parts ∈ m.folders || m.folders.any lies || m.files.any (lies ·.1)

def isThere (m : Memory) (parts : List String) : Bool := m.isFile parts || m.isFolderAt parts

/-- Follows a path. Everything on the way must be a folder, but nothing need be at its end. -/
def walk (m : Memory) (here : Location) : List String → Except FileError Location
  | [] => .ok here
  | part :: rest =>
    match here with
    | none => if part = ".." then m.walk none rest else .error (.problem .notFound)
    | some parts =>
      if m.isFile parts then .error .notAFolder
      else if m.isFolderAt parts then
        m.walk (if part = ".." then parent here else some (parts ++ [part])) rest
      else .error (.problem .notFound)

/-- Resolves a path. Every name in it must be there, but one that is left again by a double dot need
not be a folder. -/
def resolve (m : Memory) (here : Location) : List String → Except FileError Location
  | [] => .ok here
  | part :: rest =>
    if part = ".." then m.resolve (parent here) rest
    else
      match here with
      | none => .error (.problem .notFound)
      | some parts =>
        if m.isFile parts then .error .notAFolder
        else if m.isThere (parts ++ [part]) then m.resolve (some (parts ++ [part])) rest
        else .error (.problem .notFound)

def isFolder (m : Memory) (p : Path) : Bool :=
  match m.walk (start p) p.parts with
  | .ok (some parts) => m.isFolderAt parts
  | .ok none => true
  | .error _ => false

def read (m : Memory) (p : Path) : Except FileError (List UInt8) := do
  match ← m.resolve (start p) p.parts with
  | none => throw (.problem .isFolder)
  | some parts =>
    if parts ∈ m.denied then throw (.problem .denied)
    match m.files.lookup parts with
    | some bytes => return bytes
    | none => throw (.problem .isFolder)

def create (m : Memory) (p : Path) : Except FileError (Path × Memory) := do
  let location ← m.walk (start p) p.parts
  match location with
  | none => return (pathTo location, m)
  | some parts =>
    if parts ∈ m.denied then throw (.problem .denied)
    if m.isThere parts then return (pathTo location, m)
    else return (pathTo location, { m with files := m.files ++ [(parts, [])] })

def write (m : Memory) (p : Path) (text : String) : Except FileError Memory := do
  match ← m.walk (start p) p.parts with
  | none => throw (.problem .isFolder)
  | some parts =>
    if m.isFolderAt parts then throw (.problem .isFolder)
    return { m with
      files := m.files.filter (·.1 ≠ parts) ++ [(parts, text.toUTF8.toList)] }

end Memory

instance : Host (StateM Memory) where
  isFolder p := return (← get).isFolder p
  read p := return (← get).read p
  create p := do
    match (← get).create p with
    | .error e => return .error e
    | .ok (path, m) =>
      set m
      return .ok path
  write p text := do
    match (← get).write p text with
    | .error e => return .error e
    | .ok m =>
      set m
      return .ok ()
  printOut text := modify fun m => { m with out := m.out ++ text }
  printErr text := modify fun m => { m with err := m.err ++ text }
  version := return (← get).version

end Monotype
