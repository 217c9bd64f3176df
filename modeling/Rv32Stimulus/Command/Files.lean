/-
# Command.Files -- what a command needs from its surroundings

`Surroundings m` is what the command asks for: texts at paths, directories, files, the
time, and a seed nobody chose.  `Store` is a tree of files held in memory, with the
same operations as pure functions; a path is walked from the working directory one
step at a time, and every step but the last must be a directory.
-/

namespace Rv32Stimulus.Command

set_option autoImplicit false

/-- How far writing a file came. -/
inductive WriteOutcome where
  | written
  /-- The file could not be made. -/
  | notCreated
  /-- The file was made, but not all of its text was written. -/
  | notWritten
  deriving DecidableEq, Repr

structure Surroundings (m : Type → Type) where
  /-- The text at a path. -/
  readText : String → m (Option String)
  /-- Make a directory and those above it; whether it is there now. -/
  makeDirectories : String → m Bool
  writeText : String → String → m WriteOutcome
  /-- The local time as documents show it. -/
  now : m String
  freshSeed : m UInt64

/-! ## Paths -/

/-- `name` inside `directory`; a name that starts at the root stands for itself. -/
def joinPath (directory name : String) : String :=
  if name.startsWith "/" || directory.isEmpty then name
  else if directory.endsWith "/" then directory ++ name
  else directory ++ "/" ++ name

/-- The characters of a path between slashes. -/
def splitSlashes : List Char → List (List Char)
  | [] => [[]]
  | '/' :: rest => [] :: splitSlashes rest
  | char :: rest =>
      match splitSlashes rest with
      | [] => [[char]]
      | part :: parts => (char :: part) :: parts

/-- The names on the way from the root, outermost first. -/
abbrev Place := List String

/-! ## Files in memory -/

structure Store where
  /-- Where paths that do not start at the root start. -/
  working : Place
  directories : List Place
  files : List (Place × String)
  deriving DecidableEq, Repr

namespace Store

def isDirectory (store : Store) (place : Place) : Bool :=
  place.isEmpty || store.directories.contains place

def text? (store : Store) (place : Place) : Option String := store.files.lookup place

/-- Where a path starts, and the steps from there. -/
def route (store : Store) (path : String) : Place × List String :=
  let steps := (splitSlashes path.toList).map String.ofList
  if path.startsWith "/" then ([], steps) else (store.working, steps)

/-- The place one step away; an empty step and `.` stay. -/
def stepFrom (place : Place) (step : String) : Place :=
  if step == "" || step == "." then place
  else if step == ".." then place.dropLast
  else place ++ [step]

/-- The directory that the steps lead to, if all of them are there. -/
def walk? (store : Store) (place : Place) (steps : List String) : Option Place :=
  steps.foldlM (fun place step =>
    let next := stepFrom place step
    if store.isDirectory next then some next else none) place

/-- The place of the file that a path names, in a directory that is there. -/
def filePlace? (store : Store) (path : String) : Option Place :=
  let (start, steps) := store.route path
  match steps.getLast? with
  | none => none
  | some name =>
      if name == "" || name == "." || name == ".." then none
      else (store.walk? start steps.dropLast).map (· ++ [name])

def readText (path : String) (store : Store) : Option String :=
  (store.filePlace? path).bind store.text?

/-- Go one step, and make the directory there if nothing is there. -/
def enter (state : Place × Store) (step : String) : Option (Place × Store) :=
  let (place, store) := state
  let next := stepFrom place step
  if store.isDirectory next then some (next, store)
  else if (store.text? next).isSome then none
  else some (next, { store with directories := store.directories ++ [next] })

def makeDirectories (path : String) (store : Store) : Bool × Store :=
  let (start, steps) := store.route path
  match steps.foldlM enter (start, store) with
  | some (_, store) => (true, store)
  | none => (false, store)

/-- Put `content` at `place`, in place of what was there. -/
def put (store : Store) (place : Place) (content : String) : Store :=
  { store with files := store.files.filter (·.1 != place) ++ [(place, content)] }

def writeText (path content : String) (store : Store) : WriteOutcome × Store :=
  match store.filePlace? path with
  | some place =>
      if store.isDirectory place then (.notCreated, store)
      else (.written, store.put place content)
  | none => (.notCreated, store)

/-- A store as the surroundings of a command, at a given time and with a given seed. -/
def surroundings (time : String) (seed : UInt64) : Surroundings (StateM Store) where
  readText path := fun store => (store.readText path, store)
  makeDirectories path := fun store => store.makeDirectories path
  writeText path content := fun store => store.writeText path content
  now := pure time
  freshSeed := pure seed

end Store

example : joinPath "out/" "a.S" = "out/a.S" := by decide +kernel
example : Store.readText "a/../x" ⟨["d"], [["d"], ["d", "a"]], [(["d", "x"], "t")]⟩ = some "t" := by
  decide +kernel

end Rv32Stimulus.Command
