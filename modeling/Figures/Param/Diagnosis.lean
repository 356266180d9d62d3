import Figures.Json.Basic

/-!
# What is wrong with a request

* `Diagnosis`      warnings, which leave a figure drawable, and errors, which do not
* `Diagnosis.ok`   there are no errors
* `++`             the warnings and the errors of two diagnoses one after the other
-/

namespace Figures

/-- warnings and errors, each in the order in which they were found -/
structure Diagnosis where
  warnings : List String := []
  errors : List String := []
  deriving Repr, DecidableEq

namespace Diagnosis

/-- nothing stands in the way of drawing -/
def ok (d : Diagnosis) : Bool := d.errors.isEmpty

def error (message : String) : Diagnosis := { errors := [message] }

def warning (message : String) : Diagnosis := { warnings := [message] }

instance : Append Diagnosis := ⟨fun a b => ⟨a.warnings ++ b.warnings, a.errors ++ b.errors⟩⟩

def concat (ds : List Diagnosis) : Diagnosis := ds.foldr (· ++ ·) {}

def toJson (d : Diagnosis) : Json :=
  .object
    [("ok", .boolean d.ok), ("warnings", .list (d.warnings.map .text)),
     ("errors", .list (d.errors.map .text))]

end Diagnosis

end Figures
