import Figures.Proofs.Blueprint.Words
import Figures.Proofs.Engine.Dispatch
import Figures.Proofs.Engine.Picture
import Figures.Proofs.Figure.Words
import Figures.Proofs.Param.Merged

/-!
# The characters of pictures

* `Scene.words`                the words of a scene
* `Scene.mem_image_iff`        a picture holds a character that XML does not allow if a word does
* `Request.strings`            the keys and texts of a request that can get into its picture
* `Engine.worded_settled`      filling up with the presets of a figure brings in no other characters
* `Engine.render_characters`   a picture has allowed characters and those of the request only
* `Engine.not_render_allowed`  it has those of the request, allowed or not
-/

namespace Figures

open Markup

def Scene.words (s : Scene) : List String := (Pen.group s.root s.drawing).flatMap Piece.words

/-- under a legal palette, a picture holds a character that XML does not allow if one of the words
of its scene does -/
theorem Scene.mem_image_iff (s : Scene) {ctx : Context} (hlegal : ctx.palette.Legal) {c : Char}
    (hc : xmlChar c = false) : c ∈ (s.image ctx).svg.toList ↔ ∃ w ∈ s.words, c ∈ w.toList := by
  have hstyles : ∀ rules ∈ [ctx.palette.styleBlock], Allowed rules :=
    List.forall_mem_singleton.mpr (Palette.allowed_styleBlock hlegal)
  rw [words, Scene.image, mem_document_iff hc _ _ _ hstyles]
  simp only [List.mem_flatMap]
  constructor
  · rintro ⟨p, hp, w, hw, hcw⟩
    exact ⟨w, ⟨p, hp, hw⟩, hcw⟩
  · rintro ⟨w, ⟨p, hp, hw⟩, hcw⟩
    exact ⟨p, hp, w, hw, hcw⟩

theorem Scene.Worded.spelled_image {given : List Char} {s : Scene} (h : s.Worded given)
    {ctx : Context} (hlegal : ctx.palette.Legal) : Spelled given (s.image ctx).svg := by
  intro c hc
  by_cases hallowed : xmlChar c = true
  · exact .inl hallowed
  · obtain ⟨w, hw, hcw⟩ := (s.mem_image_iff hlegal (Bool.eq_false_of_not_eq_true hallowed)).mp hc
    obtain ⟨p, hp, hw⟩ := List.mem_flatMap.mp hw
    exact h p hp w hw c hcw

/-- the keys and texts of a request that can get into its picture: those of its parameters and of
its blueprint -/
def Request.strings (r : Request) : List String :=
  r.params.scope.strings ++ (r.custom.map fun b => b.toJson.strings).getD []

/-- the label of a shown centre is a word of the scene of a circle -/
theorem Circle.exists_word {p : Params} (pen : Pen) {x : Float} {s : String}
    (hradius : p.positive "radius" = .ok x) (hvisible : p.visible "showCenter" = true)
    (hlabel : p.label "O" = s) (hs : s.isEmpty = false) :
    ∃ scene, Circle.scene p pen = .ok scene ∧ s ∈ scene.words := by
  refine ⟨_, by simp only [scene, hradius]; rfl, ?_⟩
  have hword := pen.mem_words_text "O" hs ⟨center.x - 16.0, center.y + 18.0⟩ .middle Cls.text
  simp [Scene.words, Pen.group, Drawing.when, hvisible, hlabel, Pen.label, hword]

/-! ### presets -/

def Setting.isAllowed : Setting → Bool
  | .number _ => true
  | .text s => s.toList.all xmlChar

/-- the presets and the names of positions of a schema have allowed characters only -/
def Schema.isAllowed (s : Schema) : Bool :=
  (s.labels.entries.all fun e => e.2.preset.all fun t => t.toList.all xmlChar) &&
    (s.values.entries.all fun e => e.2.preset.all Setting.isAllowed) &&
    s.positions.entries.all fun e => e.1.toList.all xmlChar

theorem FigureKind.isAllowed_schema (k : FigureKind) : k.template.schema.isAllowed = true := by
  cases k <;> decide

/-- what stands at the labels, values and positions of an object has the words of the object -/
theorem Params.worded_of_scope {given : List Char} {p : Params} (h : p.scope.Worded given) :
    p.Worded given := by
  have hmembers := Json.worded_object_iff.mp h
  have hlabels : (Json.ofDict .text p.labels).Worded given :=
    (hmembers ("labels", Json.ofDict .text p.labels) (by simp)).2
  have hvalues : (Json.ofDict Setting.toJson p.values).Worded given :=
    (hmembers ("values", Json.ofDict Setting.toJson p.values) (by simp)).2
  have hpositions : (Json.ofDict Position.toJson p.positions).Worded given :=
    (hmembers ("positions", Json.ofDict Position.toJson p.positions) (by simp)).2
  have hentry : ∀ {α : Type} {f : α → Json} {d : Dict α}, (Json.ofDict f d).Worded given →
      ∀ e ∈ d.entries, Spelled given e.1 ∧ (f e.2).Worded given :=
    fun hd => List.forall_mem_map.mp (Json.worded_object_iff.mp hd)
  refine ⟨fun name s hs => ?_, fun name s hs => ?_, fun e he => (hentry hpositions e he).1⟩
  · exact Json.worded_text_iff.mp (hentry hlabels _ (Dict.mem_of_get? hs)).2
  · exact Json.worded_text_iff.mp (hentry hvalues _ (Dict.mem_of_get? hs)).2

namespace Engine

variable {e : Engine}

/-- to fill up parameters with the presets of a figure and to settle switches brings in no other
characters -/
theorem worded_settled {given : List Char} (k : FigureKind) {p : Params} (h : p.Worded given) :
    (e.settled k.template p).Worded given := by
  have hschema := k.isAllowed_schema
  simp only [Schema.isAllowed, Bool.and_eq_true, List.all_eq_true] at hschema
  obtain ⟨⟨hlabels, hvalues⟩, hpositions⟩ := hschema
  have hmerge : (p.merge k.template.schema).Worded given := by
    have hfilled := Params.filledFrom_merge p k.template.schema
    refine ⟨fun name s hs => ?_, fun name s hs => ?_, fun entry hentry => ?_⟩
    · rw [hfilled.labels] at hs
      rcases Option.or_eq_some_iff.mp hs with hs | ⟨-, hs⟩
      · exact h.label name s hs
      · obtain ⟨spec, hspec, hpreset⟩ := Option.bind_eq_some_iff.mp hs
        have hallowed := hlabels _ (Dict.mem_of_get? hspec)
        rw [hpreset] at hallowed
        exact spelled_of_allowed hallowed
    · rw [hfilled.values] at hs
      rcases Option.or_eq_some_iff.mp hs with hs | ⟨-, hs⟩
      · exact h.value name s hs
      · obtain ⟨spec, hspec, hpreset⟩ := Option.bind_eq_some_iff.mp hs
        have hallowed := hvalues _ (Dict.mem_of_get? hspec)
        rw [hpreset] at hallowed
        exact spelled_of_allowed hallowed
    · have hget := Dict.get?_eq_some_iff.mpr hentry
      rw [hfilled.positions] at hget
      rcases Option.or_eq_some_iff.mp hget with hget | ⟨-, hget⟩
      · exact h.position _ (Dict.mem_of_get? hget)
      · obtain ⟨point, hpoint, -⟩ := Option.map_eq_some_iff.mp hget
        obtain ⟨spec, hspec, -⟩ := Option.bind_eq_some_iff.mp hpoint
        exact spelled_of_allowed (List.all_eq_true.mpr (hpositions _ (Dict.mem_of_get? hspec)))
  rw [settled, settle]
  cases e.policy with
  | strict => exact hmerge
  | lenient => exact ⟨hmerge.label, hmerge.value, hmerge.position⟩

theorem worded_scene? (r : Request) {s : Scene} (h : e.scene? r = some s) :
    s.Worded (r.strings.flatMap String.toList) := by
  have hgiven : ∀ s ∈ r.strings, Spelled (r.strings.flatMap String.toList) s := fun s hs =>
    spelled_of_subset fun c hc => List.mem_flatMap.mpr ⟨s, hs, hc⟩
  have hscope : r.params.scope.Worded (r.strings.flatMap String.toList) := fun s hs =>
    hgiven s (List.mem_append_left _ hs)
  unfold scene? at h
  split at h
  · obtain ⟨b, hb, rfl⟩ := Option.map_eq_some_iff.mp h
    have hblueprint : b.toJson.Worded (r.strings.flatMap String.toList) := fun s hs =>
      hgiven s (List.mem_append_right _ (by rwa [hb]))
    exact Blueprint.worded_scene hscope hblueprint _
  · split at h
    · obtain ⟨k, -, hk⟩ := Option.bind_eq_some_iff.mp h
      have hsettled := worded_settled (e := e) k (Params.worded_of_scope hscope)
      exact k.worded_scene _ _ hsettled s (ok_of_toOption hk)
    · cases h

/-- Over the kinds of figures, and with a palette whose tokens XML allows, a picture has characters
that XML allows and characters of the request. It is the picture of the scene of the request, and
has every other character that a word of that scene has: nothing is filtered. -/
theorem render_characters (e : Engine) (hgallery : e.gallery = .standard)
    (hlegal : e.context.palette.Legal) (r : Request) :
    (∀ c ∈ (e.render r).svg.toList, xmlChar c = true ∨ ∃ s ∈ r.strings, c ∈ s.toList) ∧
    ((e.render r).svg ≠ "" → ∃ s, e.scene? r = some s ∧ (e.render r).svg = (s.image e.context).svg ∧
      ∀ c, xmlChar c = false → (c ∈ (e.render r).svg.toList ↔ ∃ w ∈ s.words, c ∈ w.toList)) := by
  rw [svg_render hgallery]
  cases hs : e.scene? r with
  | none => exact ⟨fun c hc => absurd hc List.not_mem_nil, fun hne => absurd rfl hne⟩
  | some s =>
    refine ⟨fun c hc => ?_, fun _ => ⟨s, rfl, rfl, fun c hc => s.mem_image_iff hlegal hc⟩⟩
    exact ((worded_scene? r hs).spelled_image hlegal c hc).imp_right List.mem_flatMap.mp

/-- a circle whose centre is labelled with a control character -/
def controlled : Request :=
  { Request.ofTemplate "math.geometry.circle.v1" with
    params := ({} : Params).withLabel "O" "\x01" }

theorem render_characters_controlled :
    (({} : Engine).gallery = .standard ∧ ({} : Engine).context.palette.Legal) ∧
      ∀ c ∈ (({} : Engine).render controlled).svg.toList,
        xmlChar c = true ∨ ∃ s ∈ controlled.strings, c ∈ s.toList :=
  ⟨⟨rfl, Palette.legal_standard⟩, (render_characters {} rfl Palette.legal_standard controlled).1⟩

/-- the control character stands in the picture, which XML does not allow -/
theorem not_render_allowed : ¬ ∀ (e : Engine) (r : Request), e.gallery = .standard →
    e.context.palette.Legal → ∀ c ∈ (e.render r).svg.toList, xmlChar c = true := by
  intro hall
  have hresolve : resolve {} controlled = .ok FigureKind.circle.template := by rfl
  have hvalid : (validate {} controlled).ok = true := by decide
  have hradius : (settled {} FigureKind.circle.template controlled.params).positive "radius"
    = .ok 5.0 := by rfl
  have hvisible : (settled {} FigureKind.circle.template controlled.params).visible "showCenter"
    = true := by rfl
  have hlabel : (settled {} FigureKind.circle.template controlled.params).label "O" = "\x01" := by
    rfl
  obtain ⟨s, hs, hword⟩ := Circle.exists_word (Pen.of ({} : Engine).context) hradius hvisible
    hlabel (by decide)
  have hscene : ({} : Engine).scene? controlled = some s :=
    (scene?_of_validate rfl hresolve hvalid).trans (congrArg Except.toOption hs)
  have hlegal := hall {} controlled rfl Palette.legal_standard
  rw [svg_render rfl, hscene, Option.map_some, Option.getD_some] at hlegal
  have hmem : '\x01' ∈ (s.image ({} : Engine).context).svg.toList :=
    (s.mem_image_iff Palette.legal_standard (by decide)).mpr ⟨_, hword, by decide⟩
  exact absurd (hlegal _ hmem) (by decide)

end Engine

end Figures
