/-!
# Arguments of a command line

* `Opt`          the options, with their spellings in `Opt.long` and `Opt.short?`
* `Options`      the options and operands of one level of a command line
* `Options.scan` reads one level

An option with a value takes it from behind `=`, from the rest of a short option, or from the next
argument; a value in the next argument does not start with a dash unless it is one. An option stands
at most once in a level. Behind `--` everything is an operand.
-/

namespace Figures.Command

inductive Opt where
  | palette
  | strict
  | logLevel
  | logFormat
  | dataUri
  | json
  | category
  deriving Repr, DecidableEq

namespace Opt

def long : Opt → String
  | palette => "palette"
  | strict => "strict"
  | logLevel => "log-level"
  | logFormat => "log-format"
  | dataUri => "data-uri"
  | json => "json"
  | category => "category"

def short? : Opt → Option Char
  | palette => some 'p'
  | category => some 'c'
  | _ => none

def takesValue : Opt → Bool
  | palette | logLevel | logFormat | category => true
  | _ => false

/-- a file must have a name -/
def admits (o : Opt) (value : String) : Bool := o != palette || !value.isEmpty

def shared : List Opt := [palette, strict, logLevel, logFormat]

end Opt

/-- the options and operands of one level; a switch has an empty value -/
structure Options where
  given : List (Opt × String) := []
  operands : List String := []

namespace Options

def value? (o : Options) (opt : Opt) : Option String := o.given.lookup opt

def has (o : Options) (opt : Opt) : Bool := (o.value? opt).isSome

/-- one more option, unless it is there already or has a value that it does not admit -/
def add? (o : Options) (opt : Opt) (value : String) : Option Options :=
  if o.has opt || !opt.admits value then none
  else some { o with given := o.given ++ [(opt, value)] }

def addOperand (o : Options) (operand : String) : Options :=
  { o with operands := o.operands ++ [operand] }

/-- an argument is an option, or several operands follow, or it is an operand -/
inductive Shape where
  | option (opt : Opt) (attached : Option String)
  | unknown
  | terminator
  | operand

/-- a text without an equals sign in front -/
def dropEquals : List Char → List Char
  | '=' :: cs => cs
  | cs => cs

/-- the part before the first equals sign, and the part behind it if there is one -/
def splitEquals (cs : List Char) : String × Option String :=
  let name := cs.takeWhile (· != '=')
  let rest := cs.dropWhile (· != '=')
  (String.ofList name, if rest.isEmpty then none else some (String.ofList (rest.drop 1)))

/-- what an argument is, where the options `known` are -/
def shapeOf (known : List Opt) (arg : String) : Shape :=
  match arg.toList with
  | ['-', '-'] => .terminator
  | '-' :: '-' :: cs =>
    let (name, attached) := splitEquals cs
    match known.find? fun o => o.long == name with
    | some opt => .option opt attached
    | none => .unknown
  | '-' :: c :: cs =>
    match known.find? fun o => o.short? == some c with
    | some opt => .option opt (if cs.isEmpty then none else some (String.ofList (dropEquals cs)))
    | none => .unknown
  | _ => .operand

/-- an argument that can be a value: it does not start with a dash, unless it is one -/
def isValue (arg : String) : Bool :=
  match arg.toList with
  | '-' :: _ :: _ => false
  | _ => true

/-- one level of a command line, and what is left of it. The level of the program ends at its first
operand, which names the command; the level of a command goes on to the end -/
def scan (known : List Opt) (ofProgram : Bool) (acc : Options) :
    List String → Option (Options × List String)
  | [] => some (acc, [])
  | arg :: rest =>
    match shapeOf known arg with
    | .unknown => none
    | .terminator =>
      if ofProgram then none else some ({ acc with operands := acc.operands ++ rest }, [])
    | .operand =>
      if ofProgram then some (acc, arg :: rest) else scan known ofProgram (acc.addOperand arg) rest
    | .option opt attached =>
      if opt.takesValue then
        match attached, rest with
        | some value, rest => do
          let next ← acc.add? opt value
          scan known ofProgram next rest
        | none, value :: rest =>
          if isValue value then do
            let next ← acc.add? opt value
            scan known ofProgram next rest
          else none
        | none, [] => none
      else if attached.isSome then none
      else do
        let next ← acc.add? opt ""
        scan known ofProgram next rest

end Options

end Figures.Command
