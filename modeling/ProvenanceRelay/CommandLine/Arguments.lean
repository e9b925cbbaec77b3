import ProvenanceRelay.Text.Numeral

/-!
The arguments of the program.

A command is followed by options. A long option has its value after an equals sign or in the next
argument; a short one also right behind its letter, and letters without values can stand together.
No option is given twice.
-/

namespace ProvenanceRelay.CommandLine

structure StartArgs where
  config : String
  debug : Bool
  cpus : Option UInt64
  output : Option String
  query : Bool
  deriving DecidableEq, Repr

inductive Command where
  | start (args : StartArgs)
  | stop (config : String) (force : Bool)
  | status (config : String)
  | validate (config : String)
  | generate (output : String) (force : Bool)
  | help
  | version
  deriving DecidableEq, Repr

/-- What an option takes: nothing, a path or a number. -/
inductive Operand where
  | none
  | path
  | number
  deriving DecidableEq, Repr

structure OptionSpec where
  name : String
  letter : Option Char := none
  operand : Operand := .none
  deriving DecidableEq, Repr

/-- Why parsing has come to an end before the last argument. -/
inductive Stop where
  | usage
  | help
  | version
  deriving DecidableEq, Repr

/-- The options given, by name, with their values. -/
abbrev Given := List (String × String)

def maxNumber : Nat := UInt64.size - 1

def Operand.allows (value : String) : Operand → Bool
  | .none => false
  | .path => !value.isEmpty
  | .number => (Text.Numeral.read maxNumber value.toList).toBool

def give (o : OptionSpec) (value : String) (given : Given) : Except Stop Given :=
  if (given.lookup o.name).isSome then .error .usage
  else if o.operand = .none ∨ o.operand.allows value then .ok (given ++ [(o.name, value)])
  else .error .usage

/-- An argument that can be the value of the option before it. -/
def isOperand (s : String) : Bool :=
  match s.toList with
  | '-' :: _ :: _ => false
  | _ => true

/-- The letters of one argument, up to the first that takes a value. That option is left over if
its value is not in the argument. -/
def letters (specs : List OptionSpec) (given : Given) :
    List Char → Except Stop (Given × Option OptionSpec)
  | [] => .ok (given, none)
  | c :: cs =>
    match specs.find? (·.letter = some c) with
    | none => .error (if c = 'h' then .help else .usage)
    | some o =>
      if o.operand = .none then give o "" given >>= fun given => letters specs given cs
      else
        match cs with
        | [] => .ok (given, some o)
        | '=' :: value => (give o (String.ofList value) given).map fun g => (g, none)
        | value => (give o (String.ofList value) given).map fun g => (g, none)

/-- A long option; it is left over if its value is not in the argument. -/
def long (specs : List OptionSpec) (given : Given) (cs : List Char) :
    Except Stop (Given × Option OptionSpec) :=
  let name := String.ofList (cs.takeWhile (· ≠ '='))
  match specs.find? (·.name = name), cs.dropWhile (· ≠ '=') with
  | none, [] => .error (if name = "help" then .help else .usage)
  | none, _ => .error .usage
  | some o, [] =>
    if o.operand = .none then (give o "" given).map fun g => (g, none) else .ok (given, some o)
  | some o, _ :: value =>
    if o.operand = .none then .error .usage
    else (give o (String.ofList value) given).map fun g => (g, none)

/-- Reads options. One whose value is still to come is handed on. -/
def options (specs : List OptionSpec) : Given → Option OptionSpec → List String → Except Stop Given
  | given, none, [] => .ok given
  | _, some _, [] => .error .usage
  | given, some o, a :: as => do
    if isOperand a then options specs (← give o a given) none as else .error .usage
  | given, none, a :: as => do
    match a.toList with
    | ['-', '-'] => if as.isEmpty then return given else .error .usage
    | '-' :: '-' :: cs =>
      let (given, o) ← long specs given cs
      options specs given o as
    | '-' :: c :: cs =>
      let (given, o) ← letters specs given (c :: cs)
      options specs given o as
    | _ => .error .usage

namespace Given

def value? (g : Given) (name : String) : Option String := g.lookup name

def has (g : Given) (name : String) : Bool := (g.lookup name).isSome

end Given

def defaultConfig : String := "provrelayd.toml"

def configOption : OptionSpec := { name := "config", letter := some 'c', operand := .path }

def startOptions : List OptionSpec :=
  [configOption, { name := "debug", letter := some 'd' }, { name := "cpus", operand := .number },
    { name := "output", letter := some 'o', operand := .path },
    { name := "query", letter := some 'q' }]

def stopOptions : List OptionSpec := [configOption, { name := "force", letter := some 'f' }]

def generateOptions : List OptionSpec :=
  [{ name := "output", letter := some 'o', operand := .path }, { name := "force" }]

def startArgs (g : Given) : StartArgs where
  config := (g.value? "config").getD defaultConfig
  debug := g.has "debug"
  cpus := (g.value? "cpus").bind fun s =>
    (Text.Numeral.read maxNumber s.toList).toOption.map UInt64.ofNat
  output := g.value? "output"
  query := g.has "query"

def topics : List String := ["start", "stop", "status", "validate", "config", "help"]

def command : List String → Except Stop Command
  | [] => .error .usage
  | name :: args =>
    let read (specs : List OptionSpec) := options specs [] none args
    let config (g : Given) := (g.value? "config").getD defaultConfig
    match name with
    | "start" => (read startOptions).map fun g => .start (startArgs g)
    | "stop" => (read stopOptions).map fun g => .stop (config g) (g.has "force")
    | "status" => (read [configOption]).map fun g => .status (config g)
    | "validate" => (read [configOption]).map fun g => .validate (config g)
    | "config" =>
      (read generateOptions).map fun g =>
        .generate ((g.value? "output").getD defaultConfig) (g.has "force")
    | "help" =>
      match args with
      | [] => .ok .help
      | [topic] => if topic ∈ topics then .ok .help else .error .usage
      | _ => .error .usage
    | "--help" => .ok .help
    | "--version" => .ok .version
    | _ =>
      -- the first letter decides
      match name.toList with
      | '-' :: 'h' :: _ => .ok .help
      | '-' :: 'V' :: _ => .ok .version
      | _ => .error .usage

end ProvenanceRelay.CommandLine
