import Figures.Proofs.Blueprint.Interchange

/-!
# Shapes apart

* `Emitting.Emits.atomic`     an emitter that fails leaves the canvas as it was, whatever is on it
* `Canvas.shape_lines`        a shape adds the lines of its drawing and its warnings, and leaves the
                              level
* `Blueprint.Place`           a blueprint in which the place of one shape is left open
* `Blueprint.shapes_apart`    a shape that is skipped leaves nothing on the canvas; one in the place
                              of another changes its own part of the image only

A canvas is shared by all shapes: a group left open by one of them would move all that follows.
-/

namespace Figures

open Markup

/-! ### one shape on a canvas -/

/-- what an emitter notes, and whether it fails, does not depend on the canvas; if it fails, it
leaves the canvas as it was -/
theorem Emitting.Emits.atomic {x : Emitting Unit} {r : Reading Drawing} (h : Emits x r)
    (notes : List Note) :
    (∃ e noted, ∀ canvas, x.run.run ⟨canvas, notes⟩ = (.error e, ⟨canvas, noted⟩)) ∨
      ∃ d noted, ∀ canvas, x.run.run ⟨canvas, notes⟩ = (.ok (), ⟨canvas.draw d, noted⟩) := by
  rcases hr : r.run.run notes with ⟨e | d, noted⟩
  · refine .inl ⟨e, noted, fun canvas => ?_⟩
    rw [h ⟨canvas, notes⟩, hr]
  · refine .inr ⟨d, noted, fun canvas => ?_⟩
    rw [h ⟨canvas, notes⟩, hr]

section
variable (scope : Scope) (pen : Pen)

/-- a shape adds the lines of its drawing, one level all of them, and its warnings -/
theorem Canvas.shape_lines (canvas : Canvas) (name : String) (item : Shape) :
    canvas.shape scope pen name item =
      { canvas with
        lines := canvas.lines ++ levels canvas.depth (item.render scope pen name).1
        warnings := canvas.warnings ++ (item.render scope pen name).2 } := by
  have hdrawn : Drawn (fun _ => True) (fun _ => True) (item.render scope pen name).1 :=
    Shape.drawn_render scope pen trivial
  rw [shape_eq, draw_eq hdrawn.nested]
  rfl

theorem Shape.emit_error {canvas : Canvas} {name : String} {item : Shape} {e : ShapeError}
    {stage : Stage} (h : (item.emit scope pen name).run.run { canvas } = (.error e, stage)) :
    item.render scope pen name
        = ([], stage.notes.map (Note.message name) ++ [skipMessage name item.kind e]) ∧
      stage.canvas = canvas := by
  rw [item.emits_reading scope pen name { canvas }] at h
  rw [render]
  rcases hr : (item.reading scope pen name).run.run [] with ⟨e' | d, notes⟩
  · rw [hr] at h
    cases h
    exact ⟨rfl, rfl⟩
  · rw [hr] at h
    cases h

/-! ### the lines of several shapes -/

theorem Layer.nested_rendered (named : List (String × Shape)) :
    Nested ((named.flatMap fun e => (e.2.render scope pen e.1).1).flatMap pieceMarks) :=
  (Drawn.flatMap (S := fun _ => True) (L := fun _ => True) fun _ _ =>
    Shape.drawn_render scope pen trivial).nested

theorem Layer.levels_rendered (depth : Nat) (named : List (String × Shape)) :
    levels depth (named.flatMap fun e => (e.2.render scope pen e.1).1)
      = named.flatMap fun e => levels depth (e.2.render scope pen e.1).1 := by
  induction named with
  | nil => rfl
  | cons e named ih =>
    have hfirst := Layer.nested_rendered scope pen [e]
    rw [List.flatMap_singleton] at hfirst
    rw [List.flatMap_cons, List.flatMap_cons, levels_append hfirst, ih]

end

namespace Markup

/-- what stands behind the first lines of a document is woven behind their text -/
theorem toList_joinLines_append (layout : Layout) (width height : Float) (styles : List String)
    (lines : List (Nat × String)) :
    (joinLines layout.pretty (openingLines layout width height styles ++ lines)).toList
      = (joinLines layout.pretty (openingLines layout width height styles)).toList
        ++ woven layout.pretty lines := by
  obtain ⟨line, rest, hopening⟩ :
      ∃ line rest, openingLines layout width height styles = (0, line) :: rest := by
    unfold openingLines
    split
    · exact ⟨_, _, rfl⟩
    · exact ⟨_, _, rfl⟩
  rw [hopening, List.cons_append, toList_joinLines, toList_joinLines, woven_append,
    List.append_assoc]

end Markup

/-! ### one shape in the place of another -/

/-- a blueprint in which the place of one shape is left open -/
structure Blueprint.Place where
  version : Nat
  viewBox : ViewBox
  /-- the layers declared before and behind that of the place -/
  before : List Layer
  behind : List Layer
  id : String
  z : Float
  /-- the shapes declared in front of the place and behind it -/
  front : List Shape
  back : List Shape

/-- slots of which one is open, sorted -/
theorem exists_mergeSort_slot {α : Type} (lower : Option α → Option α → Bool) (l l' : List α) :
    ∃ before behind : List α,
      (l.map some ++ none :: l'.map some).mergeSort lower
        = before.map some ++ none :: behind.map some := by
  have hmem : none ∈ (l.map some ++ none :: l'.map some).mergeSort lower :=
    List.mem_mergeSort.mpr (List.mem_append_right _ List.mem_cons_self)
  obtain ⟨before, behind, hsorted⟩ := List.append_of_mem hmem
  have hperm : (before ++ behind).Perm ((l ++ l').map some) := by
    rw [List.map_append]
    refine List.Perm.cons_inv (a := none) ?_
    refine List.perm_middle.symm.trans (.trans ?_ List.perm_middle)
    rw [← hsorted]
    exact List.mergeSort_perm _ lower
  have hfilled : ∀ slots : List (Option α), slots ⊆ before ++ behind →
      slots = (slots.filterMap id).map some := by
    intro slots hslots
    induction slots with
    | nil => rfl
    | cons slot slots ih =>
      obtain ⟨x, _, rfl⟩ := List.mem_map.mp (hperm.mem_iff.mp (hslots List.mem_cons_self))
      exact congrArg (some x :: ·) (ih fun s hs => hslots (List.mem_cons_of_mem _ hs))
  refine ⟨before.filterMap id, behind.filterMap id, ?_⟩
  rw [← hfilled before (List.subset_append_left before behind),
    ← hfilled behind (List.subset_append_right before behind)]
  exact hsorted

namespace Blueprint.Place

variable (place : Place)

def layer (item : Shape) : Layer := ⟨place.id, place.z, place.front ++ item :: place.back⟩

def fill (item : Shape) : Blueprint :=
  ⟨place.version, place.viewBox, place.before ++ place.layer item :: place.behind⟩

def name (item : Shape) : String := (place.layer item).nameOf place.front.length item

theorem exists_fill {b : Blueprint} {layer : Layer} (hlayer : layer ∈ b.layers) {item : Shape}
    (hitem : item ∈ layer.items) : ∃ place : Place, place.fill item = b := by
  obtain ⟨before, behind, hlayers⟩ := List.append_of_mem hlayer
  obtain ⟨front, back, hitems⟩ := List.append_of_mem hitem
  refine ⟨⟨b.version, b.viewBox, before, behind, layer.id, layer.z, front, back⟩, ?_⟩
  simp only [fill, Place.layer, ← hitems, ← hlayers]

theorem exists_named : ∃ front back : List (String × Shape), ∀ item,
    (place.layer item).named = front ++ (place.name item, item) :: back := by
  let nameAt (e : Shape × Nat) : String × Shape :=
    ((⟨place.id, place.z, []⟩ : Layer).nameOf e.2 e.1, e.1)
  refine ⟨place.front.zipIdx.map nameAt, (place.back.zipIdx (place.front.length + 1)).map nameAt,
    fun item => ?_⟩
  simp [Layer.named, Place.layer, name, List.zipIdx_append, Layer.nameOf, nameAt]

def height (layer? : Option Layer) : Float := (layer?.map Layer.z).getD place.z

/-- the layers in the order in which they are drawn: that of the place stands between the same ones,
whatever is in it -/
theorem exists_ordered : ∃ before behind : List Layer, ∀ item,
    (place.fill item).ordered = before ++ place.layer item :: behind := by
  let lower (a b : Option Layer) : Bool := orderKey (place.height a) ≤ orderKey (place.height b)
  let put (item : Shape) (slot : Option Layer) : Layer := slot.getD (place.layer item)
  obtain ⟨before, behind, hsorted⟩ := exists_mergeSort_slot lower place.before place.behind
  refine ⟨before, behind, fun item => ?_⟩
  have hlayers : (place.fill item).layers
      = (place.before.map some ++ none :: place.behind.map some).map (put item) := by
    simp [put, fill, Function.comp_def]
  -- the order looks at the heights only
  have hlower : ∀ a b, lower a b = Layer.notAbove (put item a) (put item b) := by
    intro a b
    cases a <;> cases b <;> rfl
  rw [ordered, hlayers, ← List.map_mergeSort fun a _ b _ => hlower a b, hsorted]
  simp [put, Function.comp_def]

/-- a shape adds its lines and its warnings in one place each, between those of the others -/
theorem exists_scene (scope : Scope) (pen : Pen) :
    ∃ (above below : List (Nat × String)) (ahead behind : List String), ∀ item,
      levels 1 (Pen.group "blueprint" ((place.fill item).scene scope pen).drawing)
        = above ++ levels 3 (item.render scope pen (place.name item)).1 ++ below ∧
      ((place.fill item).scene scope pen).warnings
        = ahead ++ (item.render scope pen (place.name item)).2 ++ behind := by
  obtain ⟨before, behind, hordered⟩ := place.exists_ordered
  obtain ⟨front, back, hnamed⟩ := place.exists_named
  let drawn (layers : List Layer) : Drawing := layers.flatMap fun layer => layer.drawing scope pen
  let lines (named : List (String × Shape)) : List (Nat × String) :=
    named.flatMap fun e => levels 3 (e.2.render scope pen e.1).1
  let warned (named : List (String × Shape)) : List String :=
    named.flatMap fun e => (e.2.render scope pen e.1).2
  refine ⟨(1, pieceText (Pen.groupStart "blueprint")) ::
      (levels 2 (drawn before) ++ (2, pieceText (Pen.groupStart place.id)) :: lines front),
    lines back ++ (2, pieceText .groupEnd) ::
      (levels 2 (drawn behind) ++ [(1, pieceText .groupEnd)]),
    (before.flatMap fun layer => layer.warnings scope pen) ++ warned front,
    warned back ++ behind.flatMap fun layer => layer.warnings scope pen, fun item => ⟨?_, ?_⟩⟩
  · have hclosed := ((place.fill item).drawn_scene scope pen).nested
    have hbefore : Nested ((drawn before).flatMap pieceMarks) :=
      (Drawn.flatMap (S := fun _ => True) fun layer _ =>
        layer.drawn_drawing scope pen fun _ => trivial).nested
    have hlayer : Nested (((place.layer item).drawing scope pen).flatMap pieceMarks) :=
      ((place.layer item).drawn_drawing (S := fun _ => True) scope pen fun _ => trivial).nested
    have hscene : ((place.fill item).scene scope pen).drawing
        = drawn before ++ ((place.layer item).drawing scope pen ++ drawn behind) := by
      rw [scene, hordered, List.flatMap_append, List.flatMap_cons]
    have hlines : levels 2 ((place.layer item).drawing scope pen)
        = (2, pieceText (Pen.groupStart place.id)) ::
            (lines front ++ levels 3 (item.render scope pen (place.name item)).1 ++ lines back
              ++ [(2, pieceText .groupEnd)]) := by
      rw [Layer.drawing_eq, levels_group (Layer.nested_rendered scope pen _),
        Layer.levels_rendered, hnamed, List.flatMap_append, List.flatMap_cons]
      simp [lines, Place.layer]
    rw [levels_group hclosed, hscene, levels_append hbefore, levels_append hlayer, hlines]
    simp
  · have hscene : ((place.fill item).scene scope pen).warnings
        = (before ++ place.layer item :: behind).flatMap fun layer => layer.warnings scope pen :=
      congrArg (fun layers => layers.flatMap fun layer => layer.warnings scope pen) (hordered item)
    rw [hscene, List.flatMap_append, List.flatMap_cons,
      Layer.warnings_eq scope pen (place.layer item), hnamed, List.flatMap_append,
      List.flatMap_cons]
    simp [warned]

end Blueprint.Place

/-! ### shapes apart -/

theorem Note.message_ne_skipMessage (name : String) (note : Note) (kind : String) (e : ShapeError) :
    note.message name ≠ Shape.skipMessage name kind e := by
  have hskip : Shape.skipMessage name kind e
      = "Shape \"" ++ name ++ "\" (" ++ kind ++ ") skipped: " ++ e.message := rfl
  intro h
  rw [hskip] at h
  have hchars := congrArg String.toList h
  cases note with
  | unresolved field u =>
    have hnote : message name (.unresolved field u)
        = "Shape \"" ++ name ++ "\" field \"" ++ field ++ "\": " ++ u.message := rfl
    simp [hnote] at hchars
  | dropped key reason =>
    have hnote : message name (.dropped key reason)
        = "Shape \"" ++ name ++ "\" style \"" ++ key ++ "\" dropped: " ++ reason := rfl
    simp [hnote] at hchars

namespace Blueprint

/-- Shapes are written on one canvas, one after the other. Whatever is on the canvas, an emitter
notes the same and fails alike, and one that fails leaves the canvas as it was. So a shape that is
skipped leaves the lines and their level; it adds the warnings of its fields and then the one of
being skipped, which none of the others is. Any shape leaves the level as it was. Every shape of a
blueprint stands in a place of it, and whatever shape stands in a place, its lines and its warnings
stand in one piece each between the same others. -/
theorem shapes_apart (scope : Scope) (ctx : Context) :
    (∀ (s : Subject) (kind : ShapeKind) (notes : List Note),
      (∃ e noted, ∀ canvas, (s.emit (Pen.of ctx) kind).run.run ⟨canvas, notes⟩
        = (.error e, ⟨canvas, noted⟩)) ∨
      ∃ d noted, ∀ canvas, (s.emit (Pen.of ctx) kind).run.run ⟨canvas, notes⟩
        = (.ok (), ⟨canvas.draw d, noted⟩)) ∧
    (∀ (canvas : Canvas) (name : String) (item : Shape) (e : ShapeError) (stage : Stage),
      (item.emit scope (Pen.of ctx) name).run.run { canvas } = (.error e, stage) →
      canvas.shape scope (Pen.of ctx) name item = { canvas with
        warnings := canvas.warnings ++
          (stage.notes.map (Note.message name) ++ [Shape.skipMessage name item.kind e]) } ∧
      ∀ note ∈ stage.notes, ∀ kind e', note.message name ≠ Shape.skipMessage name kind e') ∧
    (∀ (canvas : Canvas) (name : String) (item : Shape),
      (canvas.shape scope (Pen.of ctx) name item).depth = canvas.depth) ∧
    (∀ b : Blueprint, ∀ layer ∈ b.layers, ∀ item ∈ layer.items,
      ∃ place : Place, place.fill item = b) ∧
    ∀ place : Place, ∃ (above below : List Char) (ahead behind : List String), ∀ item : Shape,
      ((place.fill item).image scope ctx).svg.toList
        = above ++ woven ctx.layout.pretty
            (levels 3 (item.render scope (Pen.of ctx) (place.name item)).1) ++ below ∧
      ((place.fill item).image scope ctx).warnings
        = ahead ++ (item.render scope (Pen.of ctx) (place.name item)).2 ++ behind := by
  refine ⟨fun s kind => (s.emits_draw _ kind).atomic, fun canvas name item e stage hrun => ⟨?_, ?_⟩,
    fun canvas name item => ?_, fun b layer hlayer item hitem => Place.exists_fill hlayer hitem,
    fun place => ?_⟩
  · rw [Canvas.shape_lines, (Shape.emit_error scope (Pen.of ctx) hrun).1]
    simp only [levels, List.append_nil]
  · exact fun note _ => note.message_ne_skipMessage name
  · rw [Canvas.shape_lines]
  · obtain ⟨above, below, ahead, behind, hscene⟩ := place.exists_scene scope (Pen.of ctx)
    let opening := openingLines ctx.layout place.viewBox.width place.viewBox.height
      [ctx.palette.styleBlock]
    refine ⟨(joinLines ctx.layout.pretty opening).toList ++ woven ctx.layout.pretty above,
      woven ctx.layout.pretty (below ++ [(0, "</svg>")]), ahead, behind, fun item => ?_⟩
    obtain ⟨hlines, hwarnings⟩ := hscene item
    rw [image_eq]
    refine ⟨?_, hwarnings⟩
    have hsvg : (((place.fill item).scene scope (Pen.of ctx)).image ctx).svg =
        joinLines ctx.layout.pretty
        (opening ++ (above ++ levels 3 (item.render scope (Pen.of ctx) (place.name item)).1 ++ below
          ++ [(0, "</svg>")])) := by
      rw [Scene.image, document, documentLines, ← hlines, List.append_assoc]
      rfl
    rw [hsvg, toList_joinLines_append]
    simp [woven_append, opening]

/-- a line whose start is no point, and which has no end -/
def endless : Shape := ⟨"a", "line", Dict.ofList [("from", .text "here")]⟩

/-- the start is noted, then the end is missed, and nothing is written -/
theorem shapes_apart_endless : ∃ note,
    (endless.emit ⟨.null⟩ (Pen.of {}) "a").run.run { canvas := .empty }
      = (.error (.missingField "to"), ⟨.empty, [note]⟩) ∧
    Canvas.empty.shape ⟨.null⟩ (Pen.of {}) "a" endless = { Canvas.empty with
      warnings := [note.message "a", Shape.skipMessage "a" "line" (.missingField "to")] } :=
  ⟨_, rfl, ((shapes_apart ⟨.null⟩ {}).2.1 Canvas.empty "a" endless _ _ rfl).1⟩

end Blueprint

end Figures
