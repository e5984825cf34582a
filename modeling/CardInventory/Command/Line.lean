import CardInventory.Path

/-
# The command line

A line has one command with its own options, and a root directory that may be given before or
after the command, the later place winning; where a place has none, the environment gives it. An
option is given once at most in each place, its value in the next word or after an equals sign; a
value in the next word does not begin with a hyphen, unless it is a hyphen alone. A path is never
empty. After `--` no word is an option.
-/

namespace CardInventory
namespace Command

/-- What to do. -/
inductive Action where
  /-- Print the inventory. -/
  | scan (pretty : Bool)
  /-- Print the allocatable units. -/
  | resources (pretty : Bool)
  /-- Write a report under a base. -/
  | report (base : Path)
  /-- Print the instance number of an address. -/
  | number (address : String)
  deriving DecidableEq, Repr

/-- A command line. -/
structure Line where
  root : Option String
  action : Action
  deriving DecidableEq, Repr

/-- Why there is nothing to do. -/
inductive Usage where
  /-- The line asks for help. -/
  | help
  /-- The line is not well formed. -/
  | invalid
  deriving DecidableEq, Repr

/-- The names of the four commands. -/
inductive Name where
  | scan | resources | report | number
  deriving DecidableEq, Repr

namespace Name

/-- The word for a command. -/
def ofWord? : String → Option Name
  | "scan" => some scan
  | "resources" => some resources
  | "report" => some report
  | "instance" => some number
  | _ => none

end Name

/-- What a word of the line is. -/
inductive Word where
  /-- Two hyphens: what follows is no option. -/
  | divider
  /-- A name after two hyphens, perhaps with a value after an equals sign. -/
  | option (name : String) (value : Option String)
  /-- A hyphen and letters. -/
  | letters (first : Char)
  | plain (text : String)
  deriving DecidableEq, Repr

/-- Tells options from other words. -/
def Word.ofString (s : String) : Word :=
  match s.toList with
  | ['-', '-'] => .divider
  | '-' :: '-' :: rest =>
    let value := match rest.dropWhile (· ≠ '=') with
      | [] => none
      | _ :: value => some (String.ofList value)
    .option (String.ofList (rest.takeWhile (· ≠ '='))) value
  | '-' :: c :: _ => .letters c
  | _ => .plain s

/-- What has been read in one place of the line. -/
structure Options where
  root : Option String := none
  pretty : Bool := false
  base : Option String := none
  operand : Option String := none
  deriving DecidableEq, Repr

/-- A path option is given once and is not empty. -/
def setPath (old : Option String) (value : String) : Except Usage (Option String) :=
  if old.isSome || value.isEmpty then .error .invalid else .ok (some value)

/-- Puts the value of an option in its place. `command` is the command after which it stands. -/
def Options.put (o : Options) (command : Option Name) (name value : String) :
    Except Usage Options :=
  match command, name with
  | _, "sysfs-root" => (setPath o.root value).map fun root => { o with root }
  | some .report, "base" => (setPath o.base value).map fun base => { o with base }
  | _, _ => .error .invalid

/-- Turns a switch on. -/
def Options.switch (o : Options) (command : Option Name) (name : String) : Except Usage Options :=
  match command, name with
  | _, "help" => .error .help
  | some .scan, "pretty" => if o.pretty then .error .invalid else .ok { o with pretty := true }
  | some .resources, "pretty" =>
    if o.pretty then .error .invalid else .ok { o with pretty := true }
  | _, _ => .error .invalid

/-- Does an option take a value? -/
def takesValue (command : Option Name) (name : String) : Bool :=
  name == "sysfs-root" || (command == some .report && name == "base")

/-- Takes a word that is no option after a command. -/
def Options.operate (o : Options) (command : Name) (word : String) : Except Usage Options :=
  if command = .number ∧ o.operand.isNone then .ok { o with operand := some word }
  else .error .invalid

/-- Reads the words after a command. -/
def readOptions (command : Name) (o : Options) : List String → Except Usage Options
  | [] => .ok o
  | word :: rest =>
    match Word.ofString word with
    | .divider => rest.foldlM (fun o word => o.operate command word) o
    | .plain text => do readOptions command (← o.operate command text) rest
    | .letters c => .error (if c = 'h' then .help else .invalid)
    | .option name value =>
      if takesValue (some command) name then
        match value, rest with
        | some value, rest => do readOptions command (← o.put (some command) name value) rest
        | none, [] => .error .invalid
        | none, next :: rest =>
          match Word.ofString next with
          | .plain value => do readOptions command (← o.put (some command) name value) rest
          | _ => .error .invalid
      else if value.isSome then .error .invalid
      else do readOptions command (← o.switch (some command) name) rest

/-- Reads the words after `help`: the names of commands to be told about. -/
def readHelp : List String → Usage
  | [] => .help
  | [word] => if (Name.ofWord? word).isSome || word == "help" then .help else .invalid
  | _ => .invalid

/-- Reads the words before a command: its name, what was given before it, and the words after. -/
def readCommand (o : Options) : List String → Except Usage (Options × Name × List String)
  | [] => .error .invalid
  | word :: rest =>
    match Word.ofString word with
    | .divider => .error .invalid
    | .plain text =>
      match Name.ofWord? text with
      | some name => .ok (o, name, rest)
      | none => .error (if text = "help" then readHelp rest else .invalid)
    | .letters c => .error (if c = 'h' then .help else .invalid)
    | .option name value =>
      if takesValue none name then
        match value, rest with
        | some value, rest => do readCommand (← o.put none name value) rest
        | none, [] => .error .invalid
        | none, next :: rest =>
          match Word.ofString next with
          | .plain value => do readCommand (← o.put none name value) rest
          | _ => .error .invalid
      else if value.isSome then .error .invalid
      else do readCommand (← o.switch none name) rest

/-- The root directory: what is given after the command, or else before it, or else what the
environment gives. The environment is looked at for every place where nothing is given, and must
not be empty then. -/
def rootOf (before after environment : Option String) : Except Usage (Option String) :=
  if environment = some "" ∧ (before.isNone ∨ after.isNone) then .error .invalid
  else .ok (after.or (before.or environment))

/-- The action of a command with its options. -/
def actionOf (command : Name) (o : Options) : Except Usage Action :=
  match command with
  | .scan => .ok (.scan o.pretty)
  | .resources => .ok (.resources o.pretty)
  | .report => .ok (.report ⟨o.base.getD "."⟩)
  | .number =>
    match o.operand with
    | some address => .ok (.number address)
    | none => .error .invalid

/-- Reads a command line. `environment` is the root directory that the environment gives. -/
def Line.parse (environment : Option String) (words : List String) : Except Usage Line := do
  let (before, command, rest) ← readCommand {} words
  let after ← readOptions command {} rest
  let action ← actionOf command after
  let root ← rootOf before.root after.root environment
  return { root, action }

end Command
end CardInventory
