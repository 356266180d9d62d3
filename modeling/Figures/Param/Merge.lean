import Figures.Param.Schema

/-!
# Filling in presets

* `Params.merge`        the caller's parameters with the schema's presets for what is absent
* `Params.settleFlags`  malformed switches replaced by their presets, or by off

Neither changes a parameter that the caller has given well.
-/

namespace Figures

/-- presets put in at the keys that a dictionary lacks -/
def Dict.fill (given : Dict α) (specs : Dict β) (preset : β → Option α) : Dict α :=
  specs.entries.foldl
    (fun d e => match preset e.2 with
      | some v => d.insertIfNew e.1 v
      | none => d)
    given

namespace Params

/-- the parameters with the presets of a schema for what is absent -/
def merge (p : Params) (s : Schema) : Params where
  labels := p.labels.fill s.labels LabelSpec.preset
  values := p.values.fill s.values ValueSpec.preset
  visibility := p.visibility.fill s.visibility fun spec => spec.preset.map .known
  positions := p.positions.fill s.positions fun spec => spec.preset.map .known

/-- a malformed switch as its preset, or off -/
def settleFlag (s : Schema) (name : String) : Flag → Flag
  | .known b => .known b
  | .malformed _ => .known ((s.visibility.get? name >>= FlagSpec.preset).getD false)

def settleFlags (p : Params) (s : Schema) : Params :=
  { p with visibility := p.visibility.mapValues (settleFlag s) }

end Params

end Figures
