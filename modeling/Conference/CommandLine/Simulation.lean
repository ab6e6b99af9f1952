import Conference.CommandLine.Run

/-!
# Simulated calls

A call of the program without a machine: files lie in a working directory that is kept in memory,
and what is printed is kept beside them. Outside of the working directory there is nothing but the
null device.
-/

namespace Conference.CommandLine

/-- What a simulated machine keeps. Files and directories are known by the names that lead to them
from the working directory. -/
structure Simulation where
  files : List (List String × String)
  directories : List (List String)
  output : String
  /-- The lines of complaint, in their order. -/
  complaints : List String

namespace Simulation

/-- The longest name, in bytes. -/
def maxName : Nat := 255

/-- The longest path, in bytes. A longer one leads nowhere, whatever its names are. -/
def maxPath : Nat := 4095

/-- The names of a path, those between its slashes. A path with a slash at its end has an empty one
there. -/
def namesOf (path : String) : List String := (Text.partsAt '/' path.toList).map String.ofList

def isNullDevice (path : String) : Bool :=
  decide (path.utf8ByteSize ≤ maxPath) && path.toList.head? == some '/'
    && (namesOf path).getLast? == some "null"
    && (namesOf path).filter (fun name => !(["", "."].contains name)) == ["dev", "null"]

/-- The directory that a name leads to from another one. -/
def enter (s : Simulation) (names : List String) (name : String) : Option (List String) :=
  match name with
  | "" | "." => some names
  | ".." => if names.isEmpty then none else some names.dropLast
  | _ => if s.directories.contains (names ++ [name]) then some (names ++ [name]) else none

/-- The name can be that of a file. -/
def isFileName (name : String) : Bool :=
  !(["", ".", ".."].contains name) && decide (name.utf8ByteSize ≤ maxName)

/-- The names of the file, there or not, that a path leads to. -/
def locate? (s : Simulation) (path : String) : Option (List String) :=
  if maxPath < path.utf8ByteSize ∨ path.toList.head? = some '/' then none
  else do
    let names ← (namesOf path).dropLast.foldlM s.enter []
    let name ← (namesOf path).getLast?.filter isFileName
    if s.directories.contains (names ++ [name]) then none else some (names ++ [name])

def read? (s : Simulation) (path : String) : Option String := do
  s.files.lookup (← s.locate? path)

/-- Writes a file; tells whether that was possible. -/
def write (s : Simulation) (path text : String) : Bool × Simulation :=
  if isNullDevice path then (true, s)
  else match s.locate? path with
    | some names => (true, { s with files := (names, text) :: s.files.filter (·.1 != names) })
    | none => (false, s)

/-- Makes a directory in the working directory, unless it is there; tells whether it is there
now. -/
def makeDirectory (s : Simulation) (name : String) : Bool × Simulation :=
  if s.directories.contains [name] then (true, s)
  else if (s.files.lookup [name]).isSome then (false, s)
  else (true, { s with directories := [name] :: s.directories })

def openLog (s : Simulation) (directory name : String) : Bool × Simulation :=
  let (made, s) := s.makeDirectory directory
  let path := directory ++ "/" ++ name
  if !made then (false, s)
  else if (s.read? path).isSome then (true, s)
  else s.write path ""

/-- The simulated machine, on which every pass has the same name and no time goes by. -/
def host (color : Bool) (pass : String) : Host (StateM Simulation) where
  read path := do pure ((← get).read? path)
  write path text := modifyGet (·.write path text)
  openLog directory name := modifyGet (·.openLog directory name)
  print line := modify (fun s => { s with output := s.output ++ line ++ "\n" })
  complain line := modify (fun s => { s with complaints := s.complaints ++ [line] })
  newPass := pure pass
  clock := pure 0
  color := color

/-- Runs the program with arguments, on some files in the working directory: its exit code, and what
is left. -/
def run (color : Bool) (pass : String) (files : List (String × String)) (args : List String) :
    UInt32 × Simulation :=
  (CommandLine.run (host color pass) args).run ⟨files.map (fun f => ([f.1], f.2)), [], "", []⟩

end Simulation

end Conference.CommandLine
