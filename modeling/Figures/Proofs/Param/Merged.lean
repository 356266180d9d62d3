import Figures.Proofs.Param.Prepared

/-!
# Filling up and settling, key by key

* `Params.FilledFrom s p q`     every key of `q` holds what `p` holds there, or else the preset of
                                the schema
* `Params.filledFrom_merge`     so it is after filling up
* `Params.merge_merge`, `settleFlags_settleFlags`   to fill up twice, or to settle twice, changes
  nothing more
* `Params.merge_settleFlags`    it does not matter which of the two is done first

Dictionaries with the same values are equal, so what holds at every key holds of the parameters.
-/

namespace Figures

namespace Dict

variable {α β : Type} {f : String → α → α}

theorem fill_fill (given : Dict α) (specs : Dict β) (preset : β → Option α) :
    (given.fill specs preset).fill specs preset = given.fill specs preset := by
  refine ext_get? fun k => ?_
  rw [get?_fill, get?_fill, Option.or_assoc, Option.or_self]

theorem mapValues_mapValues (hf : ∀ k v, f k (f k v) = f k v) (d : Dict α) :
    (d.mapValues f).mapValues f = d.mapValues f := by
  refine ext_get? fun k => ?_
  rw [get?_mapValues, get?_mapValues, Option.map_map]
  exact congrArg (Option.map · (d.get? k)) (funext (hf k))

/-- what leaves the presets as they are can be done before they are put in -/
theorem fill_mapValues {specs : Dict β} {preset : β → Option α}
    (hf : ∀ k spec v, preset spec = some v → f k v = v) (given : Dict α) :
    (given.mapValues f).fill specs preset = (given.fill specs preset).mapValues f := by
  refine ext_get? fun k => ?_
  have hpreset : (specs.get? k >>= preset).map (f k) = specs.get? k >>= preset := by
    cases hspec : specs.get? k with
    | none => rfl
    | some spec =>
      cases hv : preset spec with
      | none => simp only [Option.bind_eq_bind, Option.bind_some, hv, Option.map_none]
      | some v =>
        simp only [Option.bind_eq_bind, Option.bind_some, hv, Option.map_some, hf k spec v hv]
  rw [get?_fill, get?_mapValues, get?_mapValues, get?_fill, Option.map_or, hpreset]

end Dict

namespace Params

/-- every key of `q` holds what `p` holds there, or else the preset of the schema if there is one -/
structure FilledFrom (s : Schema) (p q : Params) : Prop where
  labels : ∀ name,
    q.labels.get? name = (p.labels.get? name).or (s.labels.get? name >>= LabelSpec.preset)
  values : ∀ name,
    q.values.get? name = (p.values.get? name).or (s.values.get? name >>= ValueSpec.preset)
  visibility : ∀ name, q.visibility.get? name
    = (p.visibility.get? name).or ((s.visibility.get? name >>= FlagSpec.preset).map .known)
  positions : ∀ name, q.positions.get? name
    = (p.positions.get? name).or ((s.positions.get? name >>= PositionSpec.preset).map .known)

theorem filledFrom_merge (p : Params) (s : Schema) : FilledFrom s p (p.merge s) where
  labels _ := Dict.get?_fill _ _ _ _
  values _ := Dict.get?_fill _ _ _ _
  visibility _ := by
    rw [merge, Dict.get?_fill, Option.bind_eq_bind, Option.bind_eq_bind, Option.map_bind]
    rfl
  positions _ := by
    rw [merge, Dict.get?_fill, Option.bind_eq_bind, Option.bind_eq_bind, Option.map_bind]
    rfl

theorem merge_merge (p : Params) (s : Schema) : (p.merge s).merge s = p.merge s := by
  simp only [merge, Dict.fill_fill]

theorem settleFlag_settleFlag (s : Schema) (name : String) (f : Flag) :
    settleFlag s name (settleFlag s name f) = settleFlag s name f := by
  cases f <;> rfl

theorem settleFlags_settleFlags (p : Params) (s : Schema) :
    (p.settleFlags s).settleFlags s = p.settleFlags s := by
  simp only [settleFlags, Dict.mapValues_mapValues (settleFlag_settleFlag s)]

/-- switches can be settled before they are filled up, as a preset is never malformed -/
theorem merge_settleFlags (p : Params) (s : Schema) :
    (p.settleFlags s).merge s = (p.merge s).settleFlags s := by
  have hsettled : ∀ name (spec : FlagSpec) f, spec.preset.map Flag.known = some f →
      settleFlag s name f = f := by
    intro name spec f hf
    obtain ⟨b, -, rfl⟩ := Option.map_eq_some_iff.mp hf
    rfl
  simp only [settleFlags, merge, Dict.fill_mapValues hsettled]

/-- the lenient policy does not look at switches -/
theorem check_settleFlags (p : Params) (s : Schema) :
    (p.settleFlags s).check s .lenient = p.check s .lenient := rfl

end Params

end Figures
