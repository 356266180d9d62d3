import Figures.Text.Blank

/-!
# Formats of the log

* `LogFormat`          one line an event, several lines, or a document an event
* `LogFormat.ofText?`  the format of a name in any case

Only the choice of a format is part of this library; nothing is logged.
-/

namespace Figures

inductive LogFormat where
  | compact
  | pretty
  | json
  deriving Repr, DecidableEq

namespace LogFormat

def all : List LogFormat := [compact, pretty, json]

def name : LogFormat → String
  | compact => "compact"
  | pretty => "pretty"
  | json => "json"

/-- the format of a name; the case of its letters does not count -/
def ofText? (s : String) : Option LogFormat :=
  let name := Text.lower s
  all.find? fun f => f.name == name

def unknownMessage (s : String) : String := "Unknown log format: " ++ s

end LogFormat

end Figures
