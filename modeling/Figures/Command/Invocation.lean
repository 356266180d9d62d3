import Figures.Command.Arguments

/-!
# Invocations

* `Form`              what is printed of an image
* `Task`              the commands with their operands
* `Invocation`        a task with the options that every command has
* `Invocation.read?`  the invocation of a command line, if it is well formed
* `Invocation.files`  the files that it reads
-/

namespace Figures.Command

/-- what is printed of an image: its markup, its address, or everything -/
inductive Form where
  | markup
  | address
  | document
  deriving Repr, DecidableEq

/-- the commands; without a file, input comes from standard input -/
inductive Task where
  | render (input : Option String) (form : Form)
  | validate (input : Option String)
  | templates (category : Option String)
  | types
  | batch (input : String)
  deriving Repr, DecidableEq

/-- a command with the options that every command has -/
structure Invocation where
  palette : Option String
  strict : Bool
  logLevel : Option String
  logFormat : Option String
  task : Task
  deriving Repr, DecidableEq

namespace Task

/-- at most one operand, which must not be empty -/
def input? : List String → Option (Option String)
  | [] => some none
  | [file] => if file.isEmpty then none else some (some file)
  | _ => none

/-- what is printed of an image, unless two forms are asked for -/
def form? (o : Options) : Option Form :=
  match o.has .dataUri, o.has .json with
  | true, true => none
  | true, false => some .address
  | false, true => some .document
  | false, false => some .markup

/-- the options that a command adds to the shared ones -/
def ownOptions (name : String) : Option (List Opt) :=
  if name = "render" then some [.dataUri, .json]
  else if name = "templates" then some [.category]
  else if name = "validate" ∨ name = "types" ∨ name = "batch" then some []
  else none

/-- the task of a command's name, options and operands -/
def of? (name : String) (o : Options) : Option Task :=
  if name = "render" then do
    let input ← input? o.operands
    let form ← form? o
    some (.render input form)
  else if name = "validate" then (input? o.operands).map .validate
  else if name = "templates" then
    if o.operands.isEmpty then some (.templates (o.value? .category)) else none
  else if name = "types" then if o.operands.isEmpty then some .types else none
  else if name = "batch" then do
    let input ← input? o.operands
    input.map .batch
  else none

def file? : Task → Option String
  | render input _ => input
  | validate input => input
  | batch input => some input
  | _ => none

def readsInput : Task → Bool
  | render none _ => true
  | validate none => true
  | _ => false

end Task

namespace Invocation

/-- a value given to the command, or else to the program -/
def inner (program command : Options) (opt : Opt) : Option String :=
  command.value? opt <|> program.value? opt

def read? (args : List String) : Option Invocation := do
  let (program, rest) ← Options.scan Opt.shared true {} args
  match rest with
  | [] => none
  | name :: rest => do
    let own ← Task.ownOptions name
    let (command, _) ← Options.scan (Opt.shared ++ own) false {} rest
    let task ← Task.of? name command
    some {
      palette := inner program command .palette
      strict := program.has .strict || command.has .strict
      logLevel := inner program command .logLevel
      logFormat := inner program command .logFormat
      task }

def files (i : Invocation) : List String := i.palette.toList ++ i.task.file?.toList

end Invocation

end Figures.Command
