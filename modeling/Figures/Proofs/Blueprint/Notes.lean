import Figures.Proofs.Blueprint.Drawing
import Figures.Proofs.Except

/-!
# What is noted while the fields of a shape are read

* `Adds P x`              reading keeps the notes so far, and all it adds satisfies `P`
* `Adds.bind`, …          so do several readings in a row
* `Subject.Noted P`       whatever is wrong with the fields of a shape satisfies `P`
* `Subject.adds_draw`     then so does all that is noted while the shape is drawn

The notes of a value that is resolved in stages, a list of points, come of each stage.
-/

namespace Figures

/-- the notes so far are kept, and those that are added satisfy `P` -/
def Adds {α : Type} (P : Note → Prop) (x : Reading α) : Prop :=
  ∀ notes, ∃ more, (x.run.run notes).2 = notes ++ more ∧ ∀ note ∈ more, P note

namespace Adds

variable {α β : Type} {P : Note → Prop}

theorem nothing {x : Reading α} (h : ∀ notes, (x.run.run notes).2 = notes) : Adds P x :=
  fun notes => ⟨[], by rw [h, List.append_nil], fun _ h => absurd h List.not_mem_nil⟩

theorem pure (a : α) : Adds P (Pure.pure a) := nothing fun _ => rfl

theorem throw (e : ShapeError) : Adds P (MonadExcept.throw e : Reading α) := nothing fun _ => rfl

theorem bind {x : Reading α} {f : α → Reading β} (hx : Adds P x) (hf : ∀ a, Adds P (f a)) :
    Adds P (x >>= f) := by
  intro notes
  rw [Reading.run_bind]
  obtain ⟨more, hmid, hmore⟩ := hx notes
  rcases hrun : x.run.run notes with ⟨e | a, mid⟩
  · rw [hrun] at hmid
    exact ⟨more, hmid, hmore⟩
  · rw [hrun] at hmid
    obtain ⟨rest, hlast, hrest⟩ := hf a mid
    refine ⟨more ++ rest, hlast.trans ?_, fun note hnote => ?_⟩
    · rw [show mid = notes ++ more from hmid, List.append_assoc]
    · exact (List.mem_append.mp hnote).elim (hmore note) (hrest note)

theorem ite {c : Prop} [Decidable c] {x y : Reading α} (hx : Adds P x) (hy : Adds P y) :
    Adds P (if c then x else y) := by
  split
  · exact hx
  · exact hy

theorem mapM {γ : Type} {f : γ → Reading α} {l : List γ} (h : ∀ c ∈ l, Adds P (f c)) :
    Adds P (l.mapM f) := by
  induction l with
  | nil => exact .pure _
  | cons c l ih =>
    rw [List.mapM_cons]
    exact (h c List.mem_cons_self).bind fun a =>
      (ih fun d hd => h d (List.mem_cons_of_mem c hd)).bind fun as => .pure _

theorem mem_bind {x : Reading α} {f : α → Reading β} {notes : List Note} {note : Note}
    (h : note ∈ (x.run.run notes).2) (hf : ∀ a, Adds P (f a)) :
    note ∈ ((x >>= f).run.run notes).2 := by
  rw [Reading.run_bind]
  rcases hrun : x.run.run notes with ⟨e | a, mid⟩
  · rw [hrun] at h
    exact h
  · rw [hrun] at h
    obtain ⟨more, hlast, -⟩ := hf a mid
    have hkept : note ∈ ((f a).run.run mid).2 := by
      rw [hlast]
      exact List.mem_append_left more h
    exact hkept

end Adds

/-! ### fields -/

namespace Subject

/-- whatever is wrong with the fields of a shape satisfies `P` -/
structure Noted (s : Subject) (P : Note → Prop) : Prop where
  resolve : ∀ field v u, s.fields.get? field = some v → s.scope.resolve v = .error u →
    P (.unresolved field u)
  number : ∀ field v u, s.fields.get? field = some v → s.scope.number v = .error u →
    P (.unresolved field u)
  point : ∀ field v u, s.fields.get? field = some v → s.scope.point v = .error u →
    P (.unresolved field u)
  items : ∀ field v items, s.fields.get? field = some v → s.scope.resolve v = .ok (.list items) →
    ∀ item ∈ items, ∀ u, s.scope.point item = .error u → P (.unresolved field u)
  style : ∀ u ∈ (s.scope.style ((s.fields.get? "style").getD .null)).2, P (.unresolved "style" u)
  dropped : ∀ key reason, P (.dropped key reason)

theorem noted_true (s : Subject) : s.Noted fun _ => True :=
  ⟨fun _ _ _ _ _ => trivial, fun _ _ _ _ _ => trivial, fun _ _ _ _ _ => trivial,
    fun _ _ _ _ _ _ _ _ _ => trivial, fun _ _ => trivial, fun _ _ => trivial⟩

variable {s : Subject} {P : Note → Prop}

/-- a value that is settled, and what is made of it or of its replacement -/
theorem adds_settle_bind {α β : Type} {field : String} {replacement : α}
    {outcome : Except Unresolved α} {f : α → Reading β}
    (h : ∀ u, outcome = .error u → P (.unresolved field u))
    (hf : ∀ a, outcome = .ok a ∨ a = replacement → Adds P (f a)) :
    Adds P (settle field replacement outcome >>= f) := by
  cases outcome with
  | ok a => exact hf a (.inl rfl)
  | error u =>
    intro notes
    obtain ⟨more, hlast, hmore⟩ := hf replacement (.inr rfl) (notes ++ [.unresolved field u])
    refine ⟨.unresolved field u :: more, ?_, List.forall_mem_cons.mpr ⟨h u rfl, hmore⟩⟩
    rw [List.append_assoc] at hlast
    exact hlast

/-- a reading goes on behind a value that is settled, whether there is one or not -/
theorem exists_run_settle {α β : Type} (field : String) (replacement : α)
    (outcome : Except Unresolved α) (f : α → Reading β) (notes : List Note) :
    ∃ a mid, (settle field replacement outcome >>= f).run.run notes = (f a).run.run mid := by
  cases outcome with
  | ok a => exact ⟨a, notes, rfl⟩
  | error u => exact ⟨replacement, notes ++ [.unresolved field u], rfl⟩

theorem points_eq {field : String} {v : Json} {items : List Json}
    (hv : s.fields.get? field = some v) (hresolve : s.scope.resolve v = .ok (.list items)) :
    s.points field = items.mapM fun item => settle field Point.origin (s.scope.point item) := by
  rw [points, given, hv]
  show settle field (Json.list []) (s.scope.resolve v) >>= _ = _
  rw [hresolve]
  rfl

theorem adds_settle {α : Type} {field : String} {replacement : α} {outcome : Except Unresolved α}
    (h : ∀ u, outcome = .error u → P (.unresolved field u)) :
    Adds P (settle field replacement outcome) := by
  have hbind : Adds P (settle field replacement outcome >>= Pure.pure) :=
    adds_settle_bind h fun a _ => Adds.pure a
  rwa [bind_pure] at hbind

/-- a field that is there, or the end of the shape -/
theorem adds_given {α : Type} {field : String} {f : Json → Reading α}
    (h : ∀ v, s.fields.get? field = some v → Adds P (f v)) : Adds P (s.given field >>= f) := by
  unfold given
  cases hfield : s.fields.get? field with
  | some v => exact h v hfield
  | none => exact .nothing fun _ => rfl

section
variable (h : s.Noted P) (field : String)
include h

theorem Noted.adds_number : Adds P (s.number field) :=
  adds_given fun v hv => adds_settle (h.number field v · hv)

theorem Noted.adds_numberOr (fallback : Float) : Adds P (s.numberOr field fallback) := by
  unfold numberOr
  split
  · rename_i v hv
    exact adds_settle (h.number field v · hv)
  · exact .pure _

theorem Noted.adds_positive : Adds P (s.positive field) :=
  (h.adds_number field).bind fun _ => .ite (.pure _) (.throw _)

theorem Noted.adds_point : Adds P (s.point field) :=
  adds_given fun v hv => adds_settle (h.point field v · hv)

theorem Noted.adds_points : Adds P (s.points field) := by
  refine adds_given fun v hv => adds_settle_bind (h.resolve field v · hv)
    fun resolved hresolved => ?_
  cases resolved with
  | list items =>
    refine .mapM fun item hitem => adds_settle fun u hu => ?_
    rcases hresolved with hresolve | hempty
    · exact h.items field v items hv hresolve item hitem u hu
    · rw [Json.list.inj hempty] at hitem
      exact absurd hitem List.not_mem_nil
  | null | boolean | integer | real | text | object => exact .throw _

theorem Noted.adds_text? : Adds P (s.text? field) := by
  unfold text?
  split
  · rename_i v hv
    refine (adds_settle fun u hu => h.resolve field v u hv ?_).bind fun t => .pure _
    rw [Scope.text] at hu
    exact error_of_map hu
  · exact .pure _

theorem Noted.adds_flag (fallback : Bool) : Adds P (s.flag field fallback) := by
  unfold flag
  split
  · rename_i v hv
    refine (adds_settle (h.resolve field v · hv)).bind fun resolved => ?_
    cases resolved <;> exact .pure _
  · exact .pure _

end

section
variable (h : s.Noted P)
include h

theorem Noted.adds_cls (fallback : String) : Adds P (s.cls fallback) :=
  (h.adds_text? "class").bind fun _ => .pure _

theorem Noted.adds_style : Adds P s.style := by
  intro notes
  refine ⟨_, List.append_assoc _ _ _, fun note hnote => ?_⟩
  rcases List.mem_append.mp hnote with hproblem | hdrop
  · obtain ⟨u, hu, rfl⟩ := List.mem_map.mp hproblem
    exact h.style u hu
  · obtain ⟨m, -, hm⟩ := List.mem_filterMap.mp hdrop
    obtain ⟨reason, -, rfl⟩ := Option.map_eq_some_iff.mp hm
    exact h.dropped m.1 reason

theorem Noted.adds_chain : Adds P s.chain :=
  (h.adds_points "points").bind fun _ => .ite ((Adds.throw _).bind fun _ => .pure _) (.pure _)

theorem Noted.adds_anchor : Adds P s.anchor := by
  refine (h.adds_text? "anchor").bind fun name => ?_
  cases name with
  | none => exact .pure _
  | some name =>
    dsimp only
    cases Anchor.ofName? name with
    | none => exact .throw _
    | some a => exact .pure _

/-- the class and the style are read last -/
theorem Noted.adds_looks {fallback : String} {draw : String → List Attr → Drawing} :
    Adds P (s.cls fallback >>= fun cls => s.style >>= fun style => pure (draw cls style)) :=
  (h.adds_cls fallback).bind fun _ => h.adds_style.bind fun _ => .pure _

/-- whatever is noted while a shape is drawn is about one of its fields -/
theorem Noted.adds_draw (pen : Pen) (kind : ShapeKind) : Adds P (s.draw pen kind) := by
  cases kind with
  | line => exact (h.adds_point _).bind fun _ => (h.adds_point _).bind fun _ => h.adds_looks
  | polyline | polygon =>
    exact h.adds_chain.bind fun _ => h.adds_style.bind fun _ => (h.adds_cls _).bind fun _ => .pure _
  | rect =>
    exact (h.adds_number _).bind fun _ => (h.adds_number _).bind fun _ =>
      (h.adds_positive _).bind fun _ => (h.adds_positive _).bind fun _ => h.adds_looks
  | circle => exact (h.adds_point _).bind fun _ => (h.adds_positive _).bind fun _ => h.adds_looks
  | ellipse =>
    exact (h.adds_point _).bind fun _ => (h.adds_positive _).bind fun _ =>
      (h.adds_positive _).bind fun _ => h.adds_looks
  | text =>
    refine (h.adds_point _).bind fun _ => (h.adds_text? _).bind fun content => ?_
    cases content with
    | none => exact .throw _
    | some content => exact h.adds_anchor.bind fun _ => h.adds_looks
  | arrow =>
    exact (h.adds_point _).bind fun _ => (h.adds_point _).bind fun _ =>
      (h.adds_numberOr _ _).bind fun _ => h.adds_looks
  | arc =>
    exact (h.adds_point _).bind fun _ => (h.adds_positive _).bind fun _ =>
      (h.adds_number _).bind fun _ => (h.adds_number _).bind fun _ => h.adds_looks
  | angleMarker =>
    exact (h.adds_point _).bind fun _ => (h.adds_point _).bind fun _ =>
      (h.adds_point _).bind fun _ =>
      (h.adds_numberOr _ _).bind fun _ => (h.adds_flag _ _).bind fun _ =>
      (h.adds_text? _).bind fun _ => h.adds_looks
  | tickMark =>
    exact (h.adds_point _).bind fun _ => (h.adds_point _).bind fun _ =>
      (h.adds_numberOr _ _).bind fun _ => (h.adds_numberOr _ _).bind fun _ =>
      (h.adds_numberOr _ _).bind fun _ => h.adds_looks
  | grid =>
    exact (h.adds_number _).bind fun _ => (h.adds_number _).bind fun _ =>
      (h.adds_positive _).bind fun _ => (h.adds_positive _).bind fun _ =>
      (h.adds_positive _).bind fun _ =>
      .ite ((Adds.throw _).bind fun _ => h.adds_looks) h.adds_looks
  | axes =>
    exact (h.adds_point _).bind fun _ => (h.adds_positive _).bind fun _ =>
      (h.adds_positive _).bind fun _ => (h.adds_text? _).bind fun _ =>
      (h.adds_text? _).bind fun _ => h.adds_looks

end

end Subject

end Figures
