import Figures.Json.Document
import Figures.Text.Quoted

/-!
# Decoders: from documents to the values of the library

* `Mismatch`        why a document does not have the shape that a type asks for
* `DecodeError`     a mismatch, or the fault at which the text stopped
* `Decoder α`       reads an `α` from a document
* `record`          a record from an object (or from a list of its fields in order): unknown keys
                    are skipped, a repeated key is refused, and a missing field is reported after
                    all keys
* `variant`         one of several names

The first mismatch in the order of the document is the one reported. A document that comes from a
text, and not from a value, is read as far as the decoder goes, so a mismatch that stands before a
fault wins over it.
-/

namespace Figures

/-- why a document does not have the shape that a type asks for -/
inductive Mismatch where
  | wrongType (found expected : String)
  | wrongValue (found expected : String)
  | wrongLength (length : Nat) (expected : String)
  | missingField (key : String)
  | repeatedField (key : String)
  | unknownVariant (name : String) (known : List String)
  | noVariant (type : String)
  | rejected (reason : String)
  deriving Repr, DecidableEq

namespace Mismatch

def alternatives : List String → String
  | [a] => "expected `" ++ a ++ "`"
  | [a, b] => "expected `" ++ a ++ "` or `" ++ b ++ "`"
  | names => "expected one of " ++ Text.join ", " (names.map fun n => "`" ++ n ++ "`")

def message : Mismatch → String
  | wrongType found expected => s!"invalid type: {found}, expected {expected}"
  | wrongValue found expected => s!"invalid value: {found}, expected {expected}"
  | wrongLength length expected => s!"invalid length {length}, expected {expected}"
  | missingField key => "missing field `" ++ key ++ "`"
  | repeatedField key => "duplicate field `" ++ key ++ "`"
  | unknownVariant name known => "unknown variant `" ++ name ++ "`, " ++ alternatives known
  | noVariant type => s!"data did not match any variant of untagged enum {type}"
  | rejected reason => reason

end Mismatch

/-- why a document could not be decoded -/
inductive DecodeError where
  | mismatch (m : Mismatch)
  | fault (f : Fault)
  deriving Repr, DecidableEq

namespace DecodeError

def message : DecodeError → String
  | mismatch m => m.message
  | fault .malformed => "the text is not a JSON document"
  | fault .ended => "the document ends early"

end DecodeError

/-- whether a document was built from a value or is being read from a text -/
inductive Origin where
  | value
  | text
  deriving Repr, DecidableEq

abbrev Decoder (α : Type) := Origin → Document → Except DecodeError α

namespace Decoder

variable {α β : Type}

def found : Document → String
  | .null => "null"
  | .boolean b => if b then "boolean `true`" else "boolean `false`"
  | .integer n => "integer `" ++ toString n ++ "`"
  | .real x => "floating point `" ++ (precise? x).getD "null" ++ "`"
  | .text s => "string " ++ Text.quoted s
  | .list .. => "sequence"
  | .object .. => "map"
  | .unfit => "number"
  | .broken _ => "nothing"

/-- the document is not what was expected; where the text stopped there is nothing to compare -/
def unexpected (expected : String) : Document → DecodeError
  | .broken f => .fault f
  | .unfit => .fault .malformed
  | doc => .mismatch (.wrongType (found doc) expected)

/-- a fault where reading stopped, otherwise nothing -/
def complete : Option Fault → Except DecodeError Unit
  | none => .ok ()
  | some f => .error (.fault f)

def text : Decoder String
  | _, .text s => .ok s
  | _, doc => .error (unexpected "a string" doc)

def boolean : Decoder Bool
  | _, .boolean b => .ok b
  | _, doc => .error (unexpected "a boolean" doc)

def real : Decoder Float
  | _, .integer n => .ok (Json.ofInteger n)
  | _, .real x => .ok x
  | _, doc => .error (unexpected "f64" doc)

def natural (name : String) (limit : Nat) : Decoder Nat
  | _, .integer n =>
    if 0 ≤ n ∧ n < limit then .ok n.toNat
    else .error (.mismatch (.wrongValue (found (.integer n)) name))
  | _, doc => .error (unexpected name doc)

def word : Decoder Nat := natural "u32" 0x100000000

def count : Decoder Nat := natural "usize" (word64 + 1)

def json : Decoder Json := fun _ doc => doc.toJson.mapError .fault

/-- `null` is nothing -/
def optional (d : Decoder α) : Decoder (Option α)
  | _, .null => .ok none
  | origin, doc => (d origin doc).map some

def items (d : Decoder α) (origin : Origin) : List Document → Except DecodeError (List α)
  | [] => .ok []
  | doc :: rest => do
    let v ← d origin doc
    let vs ← items d origin rest
    .ok (v :: vs)

def list (d : Decoder α) : Decoder (List α)
  | origin, .list docs stop => do
    let vs ← items d origin docs
    complete stop
    .ok vs
  | _, doc => .error (unexpected "a sequence" doc)

def entries (d : Decoder α) (origin : Origin) (acc : Dict α) :
    List (String × Document) → Except DecodeError (Dict α)
  | [] => .ok acc
  | (key, doc) :: rest => do
    let v ← d origin doc
    entries d origin (acc.insert key v) rest

/-- an object with any keys; of a repeated key the last member counts -/
def dict (d : Decoder α) : Decoder (Dict α)
  | origin, .object members stop => do
    let result ← entries d origin Dict.empty members
    complete stop
    .ok result
  | _, doc => .error (unexpected "a map" doc)

def named (table : List (String × α)) (name : String) : Except DecodeError α :=
  match table.lookup name with
  | some v => .ok v
  | none => .error (.mismatch (.unknownVariant name (table.map Prod.fst)))

/-- an alternative that carries nothing -/
def unit : Decoder Unit
  | _, .null => .ok ()
  | _, doc => .error (unexpected "unit" doc)

/-- one of several names, or an object whose only key is such a name and whose value is `null` -/
def variant (table : List (String × α)) : Decoder α
  | _, .text s => named table s
  | .value, .object [(key, doc)] _ => do
    let v ← named table key
    unit .value doc
    .ok v
  | .value, .object .. => .error (.mismatch (.wrongValue "map" "map with a single key"))
  | .value, doc => .error (unexpected "string or map" doc)
  | .text, .object ((key, doc) :: rest) stop => do
    let v ← named table key
    unit .text doc
    complete (if rest.isEmpty then stop else some .malformed)
    .ok v
  | .text, .object [] stop => .error (.fault (stop.getD .malformed))
  | .text, .broken f => .error (.fault f)
  | .text, _ => .error (.fault .malformed)

/-! ### records -/

/-- a field of a record under construction -/
structure Slot (β : Type) where
  key : String
  fill : Origin → Document → β → Except DecodeError β

/-- the members of an object put into their slots; `seen` holds the keys before them -/
def fillMembers (slots : List (Slot β)) (origin : Origin) (seen : List String) :
    List (String × Document) → β → Except DecodeError β
  | [], b => .ok b
  | (key, doc) :: rest, b =>
    match slots.find? (fun s => s.key == key) with
    | none => do
      complete doc.fault?
      fillMembers slots origin seen rest b
    | some slot =>
      if seen.contains key then .error (.mismatch (.repeatedField key))
      else do
        let b ← slot.fill origin doc b
        fillMembers slots origin (key :: seen) rest b

/-- the items of a list put into the slots in their order, and what is left of the list -/
def fillItems (origin : Origin) :
    List (Slot β) → List Document → β → Except DecodeError (β × List Document)
  | slot :: slots, doc :: rest, b => do
    let b ← slot.fill origin doc b
    fillItems origin slots rest b
  | _, rest, b => .ok (b, rest)

def tooLong (origin : Origin) (length : Nat) : List Document → Option DecodeError
  | [] => none
  | .broken f :: _ => some (.fault f)
  | _ => match origin with
    | .value => some (.mismatch (.wrongLength length "fewer elements in array"))
    | .text => some (.fault .malformed)

/-- a record. `finish` makes it of the filled slots; it is given the error for a missing field, by
its place and key -/
def record (type : String) (slots : List (Slot β)) (blank : β)
    (finish : (Nat → String → DecodeError) → β → Except DecodeError α) : Decoder α
  | origin, .object members stop => do
    let b ← fillMembers slots origin [] members blank
    complete stop
    finish (fun _ key => .mismatch (.missingField key)) b
  | origin, .list docs stop => do
    let (b, rest) ← fillItems origin slots docs blank
    let short (n : Nat) (_ : String) : DecodeError :=
      .mismatch (.wrongLength n s!"struct {type} with {slots.length} elements")
    if docs.length < slots.length then complete stop
    let v ← finish short b
    match tooLong origin docs.length rest with
    | some e => .error e
    | none =>
      complete stop
      .ok v
  | _, doc => .error (unexpected ("struct " ++ type) doc)

def Slot.of (key : String) (d : Decoder α) (set : α → β → β) : Slot β :=
  ⟨key, fun origin doc b => (d origin doc).map fun v => set v b⟩

def require (missing : Nat → String → DecodeError) (place : Nat) (key : String) :
    Option α → Except DecodeError α
  | some v => .ok v
  | none => .error (missing place key)

/-! ### whole documents -/

/-- decodes a value -/
def ofJson (d : Decoder α) (v : Json) : Except DecodeError α :=
  d .value (Document.ofJson v)

/-- decodes a text that holds one document and nothing behind it -/
def ofText (d : Decoder α) (s : String) : Except DecodeError α := do
  let (doc, behind) := Document.ofText s
  let v ← d .text doc
  complete behind
  .ok v

end Decoder

end Figures
