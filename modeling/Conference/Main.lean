import Conference.CommandLine.Run

/-!
# The program

The command line on a machine: files, standard output and the clock.
-/

namespace Conference.CommandLine

def hexChar (n : Nat) : Char := (Nat.toDigits 16 (n % 16)).headD '0'

def randomDigits : Nat → IO String
  | 0 => pure ""
  | n + 1 => do
    let digit ← IO.rand 0 15
    pure ((← randomDigits n).push (hexChar digit))

/-- A random name in the form of a universally unique identifier of version four. -/
def randomPass : IO String := do
  let variant ← IO.rand 8 11
  pure ("-".intercalate
    [← randomDigits 8, ← randomDigits 4, "4" ++ (← randomDigits 3),
      String.singleton (hexChar variant) ++ (← randomDigits 3), ← randomDigits 12])

/-- Reads a file; nothing if that is not possible. -/
def readText (path : String) : IO (Option String) := do
  try
    pure (some (← IO.FS.readFile path))
  catch _ => pure none

/-- Writes a file; tells whether that was possible. -/
def writeText (path text : String) : IO Bool := do
  try
    IO.FS.writeFile path text
    pure true
  catch _ => pure false

/-- Opens a log; tells whether that was possible. -/
def openText (directory name : String) : IO Bool := do
  try
    IO.FS.createDirAll directory
    let _ ← IO.FS.Handle.mk (directory ++ "/" ++ name) .append
    pure true
  catch _ => pure false

def machine (color : Bool) : Host IO where
  read := readText
  write := writeText
  openLog := openText
  print := IO.println
  complain := IO.eprintln
  newPass := randomPass
  clock := do pure (((← IO.monoNanosNow) / 1000 : Nat) : Int)
  color := color

end Conference.CommandLine

def main (args : List String) : IO UInt32 := do
  let color ← (← IO.getStdout).isTty
  Conference.CommandLine.run (Conference.CommandLine.machine color) args
