import Conference.CommandLine.Options
import Conference.Pass
import Conference.Scenario

/-!
# Running from the command line

One call of the program: load a scenario, allocate its requests in one pass and print what became of
them. All that lies outside, from files to the clock, is asked of a *host*, so that the same program
runs on a machine and in a simulation.
-/

namespace Conference.CommandLine

/-- What a call needs from outside. -/
structure Host (m : Type → Type) where
  /-- The text of a file, if it can be read. -/
  read : String → m (Option String)
  /-- Writes a text to a file; tells whether that was possible. -/
  write : String → String → m Bool
  /-- Opens a log by its directory and its name there, and makes of both what is missing; tells
  whether that was possible. -/
  openLog : String → String → m Bool
  print : String → m Unit
  complain : String → m Unit
  newPass : m String
  /-- The time, in microseconds. -/
  clock : m Int
  /-- Output is to be coloured. -/
  color : Bool

def styleSequence (style : String) : String := "\x1b[" ++ style ++ "m"

def resetSequence : String := styleSequence "0"

/-- Text in a style. Where the text itself ends all styles, the style begins anew. -/
def styled (color : Bool) (style text : String) : String :=
  if color then
    let opening := styleSequence style
    opening ++ Text.substitute resetSequence (resetSequence ++ opening) text ++ resetSequence
  else text

def bold : String := "1"

def dimmed : String := "2"

def underlined : String := "4"

def red : String := "31"

def green : String := "32"

def boldRed : String := "1;31"

def boldGreen : String := "1;32"

def indented (line : String) : String := "      " ++ line

def outcomeLines (color verbose : Bool) (o : Pass.Outcome) : List String :=
  match o.result with
  | .ok tree =>
    let word := styled color boldGreen "ALLOCATED"
    s!"  {word} {o.request.id.text} ({tree.size} reservations)"
      :: (if verbose then (Text.lines tree.render).map indented else [])
  | .error refusal =>
    let word := styled color boldRed "FAILED"
    s!"  {word} {o.request.id.text} ({refusal.kind.render})"
      :: (Text.lines refusal.explanation).map (fun line => indented (styled color dimmed line))

def passLines (color verbose : Bool) (pass : String) (outcomes : List Pass.Outcome) : List String :=
  let events := Pass.statistics pass outcomes
  let head := styled color bold "Pass"
  let good := styled color green (toString (Statistics.allocatedCount events))
  let bad := styled color red (toString (Statistics.failedCount events))
  s!"{head} {pass}" :: outcomes.flatMap (outcomeLines color verbose)
    ++ [s!"{good} allocated, {bad} failed"]

def versionLine : String := "conference-scheduler 0.1.0"

def heading (color : Bool) (text : String) : String :=
  if color then styleSequence bold ++ styleSequence underlined ++ text ++ resetSequence else text

/-- The help. What is to be typed as it stands is in bold. -/
def helpLines (color : Bool) : List String :=
  let literal := styled color bold
  let option (name rest : String) := "      " ++ literal name ++ rest
  let letter (short long rest : String) := "  " ++ literal short ++ ", " ++ literal long ++ rest
  ["Allocates rooms, aliases, recording services and compartments from a resource inventory",
    "",
    heading color "Usage:" ++ " " ++ literal "conference-scheduler" ++ " [OPTIONS] <SCENARIO>",
    "",
    heading color "Arguments:",
    "  <SCENARIO>  Path of the JSON scenario file",
    "",
    heading color "Options:",
    option "--start" " <START>  Overrides the start of the working interval (unix seconds)",
    option "--end" " <END>      Overrides the end of the working interval (unix seconds)",
    option "--stats" " <STATS>  Writes per-request statistics as CSV to this path",
    option "--commit"
      ("         Persists successful allocations into the inventory and runs the requests"
      ++ " a second time against the updated inventory"),
    letter "-v" "--verbose" "        Prints the reservation tree of every allocated request",
    letter "-h" "--help" "           Print help",
    letter "-V" "--version" "        Print version"]

def logDirectory : String := "logs"

def logName : String := "scheduler.log"

/-- The exit codes of a call. -/
def success : UInt32 := 0

@[inherit_doc success]
def failure : UInt32 := 1

@[inherit_doc success]
def misuse : UInt32 := 2

@[inherit_doc success]
def breach : UInt32 := 101

section

variable {m : Type → Type} [Monad m]

def printAll (host : Host m) : List String → m Unit
  | [] => pure ()
  | line :: lines => do
    host.print line
    printAll host lines

/-- Ends the call with a complaint. -/
def complainAbout (host : Host m) (complaint : String) (cause : Option String) : m UInt32 := do
  host.complain ("Error: " ++ complaint)
  match cause with
  | some text =>
    host.complain ""
    host.complain "Caused by:"
    host.complain ("    " ++ text)
  | none => pure ()
  pure failure

def runPass (host : Host m) (verbose : Bool) (interval : Slot) (requests : List Request)
    (scheduler : Scheduler) : m (Except Fault (String × List Pass.Outcome × Scheduler)) := do
  let pass ← host.newPass
  let (ledger, scheduler) := scheduler.openPass pass interval
  match ← Pass.runWith host.clock ⟨ledger, scheduler⟩ requests with
  | .error fault => pure (.error fault)
  | .ok (outcomes, state) =>
    printAll host (passLines host.color verbose pass outcomes)
    pure (.ok (pass, outcomes, state.scheduler))

/-- Ends the call over a breach, with what there is to say of it. -/
def breakOff (host : Host m) (fault : Fault) : m UInt32 := do
  match fault.message? with
  | some text => host.complain text
  | none => pure ()
  pure breach

/-- Commits what a pass has allocated and runs the requests once more. -/
def commitAndReplay (host : Host m) (options : Options) (interval : Slot) (requests : List Request)
    (outcomes : List Pass.Outcome) (scheduler : Scheduler) : m UInt32 := do
  let (ids, inventory) := Pass.commitAll scheduler.inventory (Pass.trees outcomes)
  let head := styled host.color bold "Commit"
  host.print s!"{head} {ids.length} allocations committed"
  match ← runPass host options.verbose interval requests
    { scheduler with inventory := inventory } with
  | .error fault => breakOff host fault
  | .ok _ => pure success

/-- Allocates the requests of a scenario within a working interval. -/
def schedule (host : Host m) (options : Options) (scenario : Scenario) (interval : Slot) :
    m UInt32 := do
  match ← runPass host options.verbose interval scenario.requests
    (.ofInventory scenario.inventory) with
  | .error fault => breakOff host fault
  | .ok (pass, outcomes, scheduler) =>
    let written ← match options.stats with
      | none => pure none
      | some path => do
        let done ← host.write path (Statistics.csv (Pass.statistics pass outcomes))
        pure (if done then none else some path)
    match written with
    | some path => complainAbout host s!"Failed to write statistics to '{path}'" none
    | none =>
      if options.commit then
        commitAndReplay host options interval scenario.requests outcomes scheduler
      else pure success

/-- The scenario in a file, or why there is none. -/
def loadFile (host : Host m) (path : String) : m (Except String Scenario) := do
  match ← host.read path with
  | none => pure (.error "File not found or could not be read")
  | some text => match Scenario.load text with
    | .ok scenario => pure (.ok scenario)
    | .error (.shape _) => pure (.error "Failed to parse scenario JSON")
    | .error (.content fault) => pure (.error fault.message)

/-- Opens the log. A call goes on without one. -/
def openLog (host : Host m) : m Unit := do
  let opened ← host.openLog logDirectory logName
  if !opened then host.complain s!"Failed to open log file '{logDirectory}/{logName}'"

def runOptions (host : Host m) (options : Options) : m UInt32 := do
  openLog host
  match ← loadFile host options.scenario with
  | .error cause => complainAbout host s!"Failed to load scenario '{options.scenario}'" (some cause)
  | .ok scenario =>
    let start := options.start.getD scenario.workingInterval.start
    let stop := options.stop.getD scenario.workingInterval.stop
    match Slot.ofBounds? start stop with
    | some interval => schedule host options scenario interval
    | none => complainAbout host s!"Working interval start {start} is after its end {stop}" none

/-- Runs the program with the arguments of a command line; the result is the exit code. -/
def run (host : Host m) (args : List String) : m UInt32 :=
  match Options.parse args with
  | .run options => runOptions host options
  | .showVersion => do
    host.print versionLine
    pure success
  | .showHelp => do
    printAll host (helpLines host.color)
    pure success
  | .misuse => do
    host.complain "error: the arguments are not understood; try '--help'"
    pure misuse

end

end Conference.CommandLine
