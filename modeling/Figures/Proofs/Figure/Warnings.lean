import Figures.Proofs.Except
import Figures.Proofs.Figure.Scenes

/-!
# The warnings of the figures

* `Finding.opening_mem`       the letters that the message of a finding begins with
* `Scene.Unlike`              no warning of a scene is worded like a finding
* `FigureKind.unlike_of_draw` so it is with what the figures draw
-/

namespace Figures

/-- the first three letters of a text -/
def opening (s : String) : List Char := s.toList.take 3

theorem opening_append {s : String} (h : 3 ≤ s.toList.length) (t : String) :
    opening (s ++ t) = opening s := by
  rw [opening, String.toList_append, List.take_append_of_le_length h, opening]

/-- the letters that the messages of findings begin with -/
def Finding.openings : List (List Char) :=
  [opening "Label", opening "Value", opening "Position", opening "Visibility"]

theorem Finding.opening_mem (f : Finding) : opening f.message ∈ openings := by
  cases f
  all_goals
    unfold Finding.message
    simp only [String.append_assoc]
    rw [opening_append (by decide)]
    decide

/-- a text that is not worded like a finding -/
def Unlike (w : String) : Prop := ∀ f : Finding, w ≠ f.message

theorem unlike_of_opening {w : String} (h : opening w ∉ Finding.openings) : Unlike w := by
  rintro f rfl
  exact h f.opening_mem

theorem unlike_append {s : String} (h : 3 ≤ s.toList.length) (hs : opening s ∉ Finding.openings)
    (t : String) : Unlike (s ++ t) :=
  unlike_of_opening (opening_append h t ▸ hs)

/-- no warning of the scene is worded like a finding -/
def Scene.Unlike (s : Scene) : Prop := ∀ w ∈ s.warnings, Figures.Unlike w

theorem Scene.unlike_of_none {s : Scene} (h : s.warnings = []) : s.Unlike := by
  intro w hw
  rw [h] at hw
  exact absurd hw List.not_mem_nil

variable (params : Params) (pen : Pen)

theorem NumberLine.unlike_scene : Gives Scene.Unlike (scene params pen) := by
  refine .bind fun lo _ => .bind fun hi _ => .bind fun step _ => .bind fun shade _ => ?_
  refine .ite (fun _ => .bind nofun) fun _ => ?_
  dsimp only
  split
  · refine .ite (fun _ => .bind fun v _ => .ite (fun _ => .pure fun w hw => ?_) fun _ =>
      ?_) fun _ => ?_
    · obtain rfl := List.mem_singleton.mp hw
      simp only [String.append_assoc]
      exact unlike_append (by decide) (by decide) _
    · exact .pure (Scene.unlike_of_none rfl)
    · exact .pure (Scene.unlike_of_none rfl)
  · exact .error _

theorem BoxPlot.unlike_scene : Gives Scene.Unlike (scene params pen) := by
  refine .bind fun s _ => .bind fun lo _ => .bind fun hi _ => .bind fun step _ => ?_
  refine .ite (fun _ => .bind nofun) fun _ => ?_
  dsimp only
  split
  · refine .pure fun w hw => ?_
    dsimp only at hw
    split at hw
    · obtain rfl := List.mem_singleton.mp hw
      exact unlike_of_opening (by decide)
    · exact absurd hw List.not_mem_nil
  · exact .error _

theorem BarChart.unlike_scene : Gives Scene.Unlike (scene params pen) := by
  unfold scene
  refine .ite (fun _ => .bind nofun) fun _ => .bind fun values _ => .pure fun w hw => ?_
  dsimp only at hw
  split at hw
  · obtain rfl := List.mem_singleton.mp hw
    simp only [String.append_assoc]
    exact unlike_append (by decide) (by decide) _
  · exact absurd hw List.not_mem_nil

theorem CoordinateGrid.unlike_plot (f : Frame) (name : String) (given : Position) :
    ∀ w ∈ (plot params pen f name given).2, Unlike w := by
  intro w hw
  rw [plot] at hw
  split at hw
  · obtain rfl := List.mem_singleton.mp hw
    simp only [String.append_assoc]
    exact unlike_append (by decide) (by decide) _
  · split at hw
    · obtain rfl := List.mem_singleton.mp hw
      simp only [String.append_assoc]
      exact unlike_append (by decide) (by decide) _
    · exact absurd hw List.not_mem_nil

theorem CoordinateGrid.unlike_scene : Gives Scene.Unlike (scene params pen) := by
  refine .bind fun xMin _ => .bind fun xMax _ => .bind fun yMin _ => .bind fun yMax _ =>
    .bind fun step _ => ?_
  refine .ite (fun _ => .bind nofun) fun _ => .ite (fun _ => .bind nofun) fun _ => ?_
  dsimp only
  split
  · split
    · refine .pure fun w hw => ?_
      obtain ⟨plotted, hplotted, hw⟩ := List.mem_flatMap.mp hw
      obtain ⟨e, -, rfl⟩ := List.mem_map.mp hplotted
      exact unlike_plot params pen _ e.1 e.2 w hw
    · exact .error _
  · exact .error _

namespace FigureKind

/-- no figure has a warning that is worded like a finding -/
theorem unlike_scene (k : FigureKind) : Gives Scene.Unlike (k.scene params pen) := by
  cases k with
  | coordinateGrid => exact CoordinateGrid.unlike_scene params pen
  | numberLine => exact NumberLine.unlike_scene params pen
  | barChart => exact BarChart.unlike_scene params pen
  | boxPlot => exact BoxPlot.unlike_scene params pen
  | triangle =>
    refine .bind fun a _ => .bind fun b _ => .bind fun c _ => .bind fun corners _ => ?_
    exact .pure (Scene.unlike_of_none rfl)
  | rectangle => exact .bind fun w _ => .bind fun h _ => .pure (Scene.unlike_of_none rfl)
  | circle => exact .bind fun radius _ => .pure (Scene.unlike_of_none rfl)
  | angle => exact .bind fun x _ => .pure (Scene.unlike_of_none rfl)
  | cuboid =>
    refine .bind fun length _ => .bind fun depth _ => .bind fun rise _ => ?_
    exact .pure (Scene.unlike_of_none rfl)
  | cylinder => exact .bind fun radius _ => .bind fun rise _ => .pure (Scene.unlike_of_none rfl)
  | seriesCircuit =>
    refine .bind fun voltage _ => .bind fun rs _ => .ite (fun _ => .bind nofun) fun _ => ?_
    exact .pure (Scene.unlike_of_none rfl)

theorem unlike_of_draw {k : FigureKind} {ctx : Context} {image : Image}
    (h : k.template.draw params ctx = .drawn image) : ∀ w ∈ image.warnings, Unlike w := by
  rw [draw_template] at h
  split at h
  · rename_i s hs
    cases h
    exact unlike_scene params _ k s hs
  · cases h

end FigureKind

end Figures
