import Figures.Proofs.Figure.Scenes
import Figures.Proofs.Sheet.Ids
import Figures.Proofs.Text.Apart

/-!
# Figures whose ids are apart

* `Scene.ids`                 the ids of a scene, that of its root group first
* `Vocabulary`                the fixed ids of a figure: no two agree, and none begins like a
                              numbered one
* `Vocabulary.nodup_ids_iff`  in a scene with these ids, it depends on the others whether all are
                              apart
* `Circle.nodup_ids`, …       no id occurs twice in a circle, an angle, a rectangle, a cuboid, a
  cylinder
* `SeriesCircuit.nodup_ids`   nor in a circuit, with any number of resistors

What the first five draw has names that do not depend on the parameters, and no two of them agree.
-/

namespace Figures

open Drawing (Carries)
open Drawing.Carries

theorem Element.id_ne {e f : Element} (h : Apart (e.id "") (f.id "")) (a b : String) :
    e.id a ≠ f.id b := by
  rw [e.id_eq, f.id_eq]
  exact ne_of_apart h a b

def Scene.ids (s : Scene) : List String := (Pen.group s.root s.drawing).ids

section
variable {width height : Float} {root : String} {d : Drawing} {warnings keys loose : List String}

theorem Scene.nodup_iff (h : d.Carries keys loose) (hkeys : (Element.group.id root :: keys).Nodup)
    (hloose : ∀ s ∈ loose, s ∉ Element.group.id root :: keys) :
    (Scene.mk width height root d warnings).ids.Nodup ↔ loose.Nodup :=
  (h.group root).nodup_iff hkeys hloose

/-- the fixed ids of a figure. No two of them agree, and none begins like an id that has a number or
a name behind its beginning -/
structure Vocabulary where
  root : String
  keys : List String
  beginnings : List String
  nodup : (Element.group.id root :: keys).Nodup
  apart : ∀ p ∈ beginnings, ∀ q ∈ Element.group.id root :: keys, Apart p q

theorem Vocabulary.nodup_ids_iff (v : Vocabulary) (h : d.Carries keys loose) (hkeys : keys = v.keys)
    (hloose : Begins v.beginnings loose) :
    (Scene.mk width height v.root d warnings).ids.Nodup ↔ loose.Nodup := by
  subst hkeys
  exact Scene.nodup_iff h v.nodup (hloose.not_mem v.apart)

theorem Vocabulary.nodup_ids (v : Vocabulary) (h : d.Carries keys []) (hkeys : keys = v.keys) :
    (Scene.mk width height v.root d warnings).ids.Nodup :=
  (v.nodup_ids_iff h hkeys fun _ hs => absurd hs List.not_mem_nil).mpr List.nodup_nil

end

variable (params : Params) (pen : Pen)

namespace Circle

def vocabulary : Vocabulary where
  root := "circle"
  keys := [Element.path.id "circle", Element.line.id "diameter", Element.text.id "diameter",
    Element.line.id "radius", Element.text.id "radius", Element.point.id "O", Element.text.id "O"]
  beginnings := []
  nodup := by decide
  apart := by simp

theorem nodup_ids : Gives (fun s => s.ids.Nodup) (scene params pen) :=
  .bind fun _ _ => .pure (vocabulary.nodup_ids
    (.append (.append (.append (.fixed (ids_circle _ _ _ _ _ _))
      (.maybe (.append (pen.carries_segment _ _ _) (pen.carries_text _ _ _ _ _)) _))
      (.maybe (.append (pen.carries_segment _ _ _) (pen.carries_text _ _ _ _ _)) _))
      (.maybe (.append (pen.carries_dot _ _) (pen.carries_label _ _ _)) _))
    rfl)

end Circle

namespace Angle

def vocabulary : Vocabulary where
  root := "angle"
  keys := [Element.line.id "OA", Element.line.id "OB", Element.mark.id "right-O",
    Element.arc.id "O", Element.text.id "angle", Element.point.id "O", Element.text.id "O",
    Element.text.id "A", Element.text.id "B"]
  beginnings := []
  nodup := by decide
  apart := by simp

theorem nodup_ids : Gives (fun s => s.ids.Nodup) (scene params pen) :=
  .bind fun _ _ => .pure (vocabulary.nodup_ids
    (.append (.append (.append (.append
      (.append (pen.carries_segment _ _ _) (pen.carries_segment _ _ _))
      (.either _ (pen.carries_rightAngle _ _ _ _ _) (pen.carries_path _ _ _ _)))
      (.maybe (pen.carries_text _ _ _ _ _) _)) (pen.carries_dot _ _))
      (.maybe (.append (.append (pen.carries_label _ _ _) (pen.carries_label _ _ _))
        (pen.carries_label _ _ _)) _))
    rfl)

end Angle

namespace Cylinder

def vocabulary : Vocabulary where
  root := "cylinder"
  keys := [Element.face.id "top", Element.line.id "left", Element.line.id "right",
    Element.path.id "base-front", Element.path.id "base-back", Element.point.id "center",
    Element.line.id "radius", Element.text.id "radius", Element.text.id "height"]
  beginnings := []
  nodup := by decide
  apart := by simp

theorem nodup_ids : Gives (fun s => s.ids.Nodup) (scene params pen) :=
  .bind fun _ _ => .bind fun _ _ => .pure (vocabulary.nodup_ids
    (.append (.append (.append (.append (.append
      (.append (.fixed (ids_ellipse _ _ _ _ _ _ _)) (pen.carries_segment _ _ _))
      (pen.carries_segment _ _ _)) (pen.carries_path _ _ _ _))
      (.maybe (pen.carries_path _ _ _ _) _))
      (.maybe (.append (.append (pen.carries_dot _ _) (pen.carries_segment _ _ _))
        (pen.carries_text _ _ _ _ _)) _))
      (.maybe (pen.carries_text _ _ _ _ _) _))
    rfl)

end Cylinder

namespace Cuboid

def vocabulary : Vocabulary where
  root := "cuboid"
  keys := Element.group.id "faces" :: ["front", "top", "side"].map Element.face.id ++
    Element.group.id "hidden-edges" :: ["AE", "EF", "EH"].map Element.line.id ++
    Element.group.id "dimensions" :: ["length", "width", "height"].map Element.text.id ++
    Element.group.id "vertices" :: ["A", "B", "C", "D", "E", "F", "G", "H"].map Element.text.id
  beginnings := []
  nodup := by decide
  apart := by simp

/-- the parts of a cuboid in threes -/
theorem carries_three {a b c : Drawing} {j k l : List String} (ha : a.Carries j [])
    (hb : b.Carries k []) (hc : c.Carries l []) :
    Drawing.Carries (a ++ b ++ c) (j ++ k ++ l) [] := (ha.append hb).append hc

theorem nodup_ids : Gives (fun s => s.ids.Nodup) (scene params pen) :=
  .bind fun _ _ => .bind fun _ _ => .bind fun _ _ => .pure (vocabulary.nodup_ids
    (.append (.append (.append
      (.group (carries_three (pen.carries_polygon _ _ _ _) (pen.carries_polygon _ _ _ _)
        (pen.carries_polygon _ _ _ _)) _)
      (.maybe (.group (carries_three (pen.carries_hiddenSegment _ _ _)
        (pen.carries_hiddenSegment _ _ _) (pen.carries_hiddenSegment _ _ _)) _) _))
      (.maybe (.group (carries_three (pen.carries_text _ _ _ _ _) (pen.carries_text _ _ _ _ _)
        (pen.carries_text _ _ _ _ _)) _) _))
      (.maybe (.group (.append (.append (.append (.append (.append (.append (.append
        (pen.carries_label _ _ _) (pen.carries_label _ _ _)) (pen.carries_label _ _ _))
        (pen.carries_label _ _ _)) (pen.carries_label _ _ _)) (pen.carries_label _ _ _))
        (pen.carries_label _ _ _)) (pen.carries_label _ _ _)) _) _))
    rfl)

end Cuboid

namespace Rectangle

def vocabulary : Vocabulary where
  root := "rectangle"
  keys := Element.group.id "sides" :: ["AB", "BC", "CD", "DA"].map Element.line.id ++
    [Element.line.id "AC", Element.text.id "diagonal"] ++
    Element.group.id "right-angles" :: ["A", "B", "C", "D"].map (fun name =>
      Element.mark.id ("right-" ++ name)) ++
    Element.group.id "equal-marks" :: ["AB", "CD", "BC", "DA"].map Element.mark.id ++
    Element.group.id "dimensions" :: ["width", "height"].map Element.text.id ++
    Element.group.id "vertices" ::
      ["A", "B", "C", "D"].flatMap fun name => [Element.point.id name, Element.text.id name]
  beginnings := []
  nodup := by decide
  apart := by simp

/-- what is drawn at the corners of a rectangle, if its ids depend on the names of the corners
only -/
theorem carries_corners {f : Corner → Drawing} (g : String → List String)
    (hf : ∀ k, (f k).Carries (g k.name) []) (a b c d : Point) :
    Drawing.Carries ([⟨"A", a, b, d⟩, ⟨"B", b, c, a⟩, ⟨"C", c, d, b⟩, ⟨"D", d, a, c⟩].flatMap f)
      (["A", "B", "C", "D"].flatMap g) [] := by
  simp only [List.flatMap_cons, List.flatMap_nil]
  exact (hf _).append ((hf _).append ((hf _).append ((hf _).append (.free []))))

theorem carries_vertexMark (center : Point) (k : Corner) :
    (vertexMark params pen center k).Carries [Element.point.id k.name, Element.text.id k.name] [] :=
  (pen.carries_dot _ _).append ((pen.carries_label _ _ _).maybe _)

theorem nodup_ids : Gives (fun s => s.ids.Nodup) (scene params pen) :=
  .bind fun _ _ => .bind fun _ _ => .pure (vocabulary.nodup_ids
    (.append (.append (.append (.append (.append
      (.group (.append (.append (.append (pen.carries_segment _ _ _) (pen.carries_segment _ _ _))
        (pen.carries_segment _ _ _)) (pen.carries_segment _ _ _)) _)
      (.maybe (.append (pen.carries_hiddenSegment _ _ _) (pen.carries_sideLabel _ _ _ _ _)) _))
      (.maybe (.group (carries_corners (fun name => [Element.mark.id ("right-" ++ name)])
        (fun _ => pen.carries_rightAngle _ _ _ _ _) _ _ _ _) _) _))
      (.maybe (.group (.append (.append (.append (pen.carries_equalTicks _ _ _ _)
        (pen.carries_equalTicks _ _ _ _)) (pen.carries_equalTicks _ _ _ _))
        (pen.carries_equalTicks _ _ _ _)) _) _))
      (.maybe (.group (.append (pen.carries_sideLabel _ _ _ _ _)
        (pen.carries_sideLabel _ _ _ _ _)) _)
        _))
      (.group (carries_corners (fun name => [Element.point.id name, Element.text.id name])
        (fun k => carries_vertexMark params pen _ k) _ _ _ _) _))
    rfl)

end Rectangle

namespace SeriesCircuit

/-- the ids of a circuit, without those of its resistors -/
def vocabulary : Vocabulary where
  root := "circuit"
  keys := [Element.group.id "resistors", Element.line.id "wire-top-end",
    Element.line.id "wire-right", Element.group.id "cell", Element.line.id "wire-bottom-right",
    Element.line.id "cell-positive", Element.line.id "cell-negative",
    Element.line.id "wire-bottom-left", Element.text.id "cell",
    Element.line.id "wire-left", Element.mark.id "current", Element.text.id "current"]
  beginnings := []
  nodup := by decide
  apart := by simp

/-- the ids of a resistor end in its number, from zero or from one on -/
def kinds : List (Kind (Float × ℕ)) :=
  [⟨Element.line.id "wire-top", fun e => Nat.repr e.2⟩,
   ⟨Element.path.id "R", fun e => Nat.repr (e.2 + 1)⟩,
   ⟨Element.text.id "R", fun e => Nat.repr (e.2 + 1)⟩]

theorem apart_kinds : kinds.Pairwise fun p q => Apart p.beginning q.beginning := by decide

theorem rest_kinds : ∀ k ∈ kinds, ∀ e, ∃ n, k.rest e = Nat.repr n := by simp [kinds]

theorem names_resistor (slot : Float) :
    Kind.Names kinds fun e => (resistor params pen slot e.1 e.2).ids := by
  intro e
  refine Drawing.Carries.subperm ?_
  simp only [kinds, List.map_cons, List.map_nil, Kind.text, ← Element.id_append]
  exact ((pen.carries_segment _ _ _).append (pen.carries_path _ _ _ _)).append
    ((pen.carries_text _ _ _ _ _).maybe _)

theorem nodup_resistors (slot : Float) (rs : List Float) :
    (rs.zipIdx.flatMap fun e => (resistor params pen slot e.1 e.2).ids).Nodup := by
  refine Kind.nodup (g := Prod.snd) apart_kinds (names_resistor params pen slot) ?_ ?_
  · simp [kinds]
  · rw [List.zipIdx_map_snd]
    exact List.nodup_range'

theorem nodup_ids : Gives (fun s => s.ids.Nodup) (scene params pen) := by
  refine .bind fun voltage _ => .bind fun rs _ => .ite (fun _ => .bind nofun) fun _ => ?_
  exact .pure ((Scene.nodup_iff
    (.append (.append (.append (.append
      (.group (.append (.free _) (pen.carries_segment _ _ _)) _) (pen.carries_segment _ _ _))
      (.group (.append (.append (.append (.append (pen.carries_segment _ _ _)
        (pen.carries_segment _ _ _)) (pen.carries_segment _ _ _)) (pen.carries_segment _ _ _))
        (pen.carries_text _ _ _ _ _)) _))
      (pen.carries_segment _ _ _))
      (.maybe (.append (pen.carries_polygon _ _ _ _) (pen.carries_text _ _ _ _ _)) _))
    vocabulary.nodup
    (fun s hs => Kind.not_mem_of_numbered (names_resistor params pen _) rest_kinds (by decide) s
      (by simpa using hs))).mpr
    (by simpa using nodup_resistors params pen _ rs))

end SeriesCircuit

end Figures
