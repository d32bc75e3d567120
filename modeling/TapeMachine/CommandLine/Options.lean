import TapeMachine.Session.Basic

/-!
# Options

The arguments of the command line. An option may be written with its long name or, most of them,
with one letter; letters can be run together, and the value of an option follows it in the same
argument or in the next one. An argument that is not understood makes all of them refused.
-/

namespace TapeMachine.CommandLine

/-- What the arguments ask for. -/
structure Options where
  program : String
  inputs : List String
  speed : Speed
  /-- Failed cycles leave the stacks as they are. -/
  atomic : Bool
  debug : Bool
  /-- More is logged on standard error. The log is left out of `Outcome`, which holds the report; that
  stays the same. -/
  verbose : Bool
  deriving DecidableEq, Repr

inductive Switch where
  | program
  | input
  | speed
  | atomic
  | debug
  | verbose
  deriving DecidableEq, Repr

namespace Switch

def ofName? : String → Option Switch
  | "program" => some program
  | "input" => some input
  | "speed" => some speed
  | "atomic" => some atomic
  | "debug" => some debug
  | "verbose" => some verbose
  | _ => none

def ofLetter? : Char → Option Switch
  | 'p' => some program
  | 'i' => some input
  | 's' => some speed
  | 'd' => some debug
  | 'v' => some verbose
  | _ => none

/-- Tells whether an option has a value. -/
def takesValue : Switch → Bool
  | program | input | speed => true
  | _ => false

end Switch

/-- The greatest speed, a number of 32 bits. -/
def speedLimit : Nat := 0xFFFFFFFF

/-- The speed that a positive number up to the limit stands for. A plus sign may precede it. -/
def speedOf? (text : String) : Option Speed :=
  let digits := match text.toList with
    | '+' :: r => r
    | r => r
  if digits ≠ [] ∧ digits.all Char.isDigit then
    let n := digits.foldl (fun n c => n * 10 + (c.toNat - '0'.toNat)) 0
    if h : 0 < n ∧ n ≤ speedLimit then some (.perSecond n h.1) else none
  else none

/-- Tells whether an argument cannot be the value of the option before it. -/
def looksLikeOption (argument : String) : Bool :=
  match argument.toList with
  | '-' :: _ :: _ => true
  | _ => false

/-- The occurrences of options in one argument. An option at the end that has no value yet comes
with `none`. -/
def occurrences? (argument : String) : Option (List (Switch × Option String)) :=
  match argument.toList with
  | '-' :: '-' :: long =>
    let (name, value) := long.span (· != '=')
    match Switch.ofName? (String.ofList name), value with
    | some o, _ :: value => if o.takesValue then some [(o, some (String.ofList value))] else none
    | some o, [] => some [(o, none)]
    | none, _ => none
  | '-' :: letters => cluster letters
  | _ => none
where
  /-- The options that letters stand for; the first that has a value takes the remaining letters. -/
  cluster : List Char → Option (List (Switch × Option String))
    | [] => some []
    | c :: cs =>
      match Switch.ofLetter? c with
      | none => none
      | some o =>
        if o.takesValue then
          match cs with
          | [] => some [(o, none)]
          | '=' :: value => some [(o, some (String.ofList value))]
          | value => some [(o, some (String.ofList value))]
        else (cluster cs).map fun rest => (o, none) :: rest

/-- All occurrences of options with their values, in order. -/
def parse? : List String → Option (List (Switch × Option String))
  | [] => some []
  | argument :: rest =>
    if argument = "--" then if rest = [] then some [] else none
    else if !looksLikeOption argument then none
    else
      match occurrences? argument with
      | none => none
      | some found =>
        match found.getLast? with
        | some (o, none) =>
          if o.takesValue then
            match rest with
            | [] => none
            | value :: rest =>
              if looksLikeOption value then none
              else (parse? rest).map fun more => found.dropLast ++ (o, some value) :: more
          else (parse? rest).map (found ++ ·)
        | _ => (parse? rest).map (found ++ ·)

namespace Options

/-- The values of the occurrences of one option. -/
def valuesOf (found : List (Switch × Option String)) (o : Switch) : List String :=
  found.filterMap fun f => if f.1 = o then f.2 else none

/-- The options of a command line, if it is accepted: a program must be named, and only inputs may
be given more than once. -/
def ofArguments? (arguments : List String) : Option Options := do
  let found ← parse? arguments
  let once := [.program, .speed, .atomic, .debug, .verbose]
  guard (once.all fun o => found.countP (·.1 = o) ≤ 1)
  let program ← (valuesOf found .program).head?
  guard (program ≠ "")
  let speed ← match (valuesOf found .speed).head? with
    | none => some Speed.unlimited
    | some text => speedOf? text
  let has (o : Switch) : Bool := found.any (·.1 = o)
  return {
    program := program
    inputs := valuesOf found .input
    speed := speed
    atomic := has .atomic
    debug := has .debug
    verbose := has .verbose }

end Options

end TapeMachine.CommandLine
