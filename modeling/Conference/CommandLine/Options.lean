import Conference.Instant

/-!
# Options

The arguments of the command line. `Options.parse` goes through them once, from left to right; the
first argument that is out of place settles the outcome, and so does a call for help or for the
version.
-/

namespace Conference

structure Options where
  /-- The path of the scenario file. -/
  scenario : String
  /-- The start of the working interval, in place of the one of the scenario. -/
  start : Option Int
  /-- The end of the working interval, in place of the one of the scenario. -/
  stop : Option Int
  /-- Where to write statistics. -/
  stats : Option String
  /-- Commit what has been allocated and run the requests once more. -/
  commit : Bool
  /-- Print the reservations of each request. -/
  verbose : Bool
deriving DecidableEq

namespace Options

inductive Call where
  | run (options : Options)
  | showVersion
  | showHelp
  | misuse
deriving DecidableEq

/-- The options after a part of the arguments. -/
structure Draft where
  scenario : Option String
  start : Option Int
  stop : Option Int
  stats : Option String
  commit : Bool
  verbose : Bool

def Draft.none : Draft := ⟨.none, .none, .none, .none, false, false⟩

/-- The options, once the path of the scenario is there. -/
def Draft.finish (d : Draft) : Call :=
  match d.scenario with
  | some scenario => .run ⟨scenario, d.start, d.stop, d.stats, d.commit, d.verbose⟩
  | .none => .misuse

/-- An argument on its own is the path of the scenario. There is only one. -/
def Draft.addPlain (d : Draft) (argument : String) : Option Draft :=
  if d.scenario.isNone then some { d with scenario := some argument } else .none

/-- Sets an option that takes a value. It is set only once, and its value has to fit. -/
def Draft.addValue (d : Draft) (name value : String) : Option Draft :=
  match name with
  | "start" =>
    if d.start.isSome then .none
    else (Instant.read? value.toList).map (fun n => { d with start := some n })
  | "end" =>
    if d.stop.isSome then .none
    else (Instant.read? value.toList).map (fun n => { d with stop := some n })
  | "stats" =>
    if d.stats.isSome || value.isEmpty then .none else some { d with stats := some value }
  | _ => .none

def takesValue (name : String) : Bool := ["start", "end", "stats"].contains name

/-- What an option without a value comes to: the options with it, or the end of the matter. -/
def Draft.addFlag (d : Draft) (name : String) : Except Call Draft :=
  match name with
  | "commit" => if d.commit then .error .misuse else .ok { d with commit := true }
  | "verbose" => if d.verbose then .error .misuse else .ok { d with verbose := true }
  | "help" => .error .showHelp
  | "version" => .error .showVersion
  | _ => .error .misuse

def longName (letter : Char) : String :=
  match letter with
  | 'v' => "verbose"
  | 'h' => "help"
  | 'V' => "version"
  | _ => ""

def Draft.addLetters (d : Draft) : List Char → Except Call Draft
  | [] => .ok d
  | letter :: letters => do addLetters (← d.addFlag (longName letter)) letters

/-- An argument that starts with a dash and has more to it. -/
def isOption (argument : String) : Bool :=
  match argument.toList with
  | '-' :: _ :: _ => true
  | _ => false

/-- The ways in which an argument can be meant. -/
inductive Shape where
  /-- Two dashes: all that follow are plain. -/
  | endOfOptions
  | long (name : String)
  | assignment (name value : String)
  | letters (letters : List Char)
  | plain

def shape (argument : String) : Shape :=
  match argument.toList with
  | ['-', '-'] => .endOfOptions
  | '-' :: '-' :: rest =>
    match rest.span (· != '=') with
    | (name, _ :: value) => .assignment (String.ofList name) (String.ofList value)
    | (name, []) => .long (String.ofList name)
  | '-' :: c :: rest => .letters (c :: rest)
  | _ => .plain

def plainArguments (d : Draft) : List String → Call
  | [] => d.finish
  | argument :: rest => match d.addPlain argument with
    | some next => plainArguments next rest
    | .none => .misuse

def arguments (d : Draft) : List String → Call
  | [] => d.finish
  | argument :: rest => match shape argument with
    | .endOfOptions => plainArguments d rest
    | .assignment name value => match d.addValue name value with
      | some next => arguments next rest
      | .none => .misuse
    | .long name =>
      if takesValue name then match rest with
        | [] => .misuse
        | value :: others =>
          if isOption value then .misuse
          else match d.addValue name value with
            | some next => arguments next others
            | .none => .misuse
      else match d.addFlag name with
        | .ok next => arguments next rest
        | .error call => call
    | .letters letters => match d.addLetters letters with
      | .ok next => arguments next rest
      | .error call => call
    | .plain => match d.addPlain argument with
      | some next => arguments next rest
      | .none => .misuse

def parse (args : List String) : Call := arguments .none args

end Options

end Conference
