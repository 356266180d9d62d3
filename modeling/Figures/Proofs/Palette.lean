import Figures.Palette
import Figures.Proofs.Dict
import Figures.Proofs.Text.Spelled

/-!
# The characters of style rules

* `TextOf q s`                 all characters of a text satisfy `q`
* `neutralChar`                the characters that every document may hold and that mean nothing in
                               markup
* `Palette.textOf_styleBlock`  the style rules are written with neutral characters and those of the
                               tokens
* `Palette.Plain`              no token of a palette has a character that means something in markup
* `Palette.plain_styleBlock`   nor have the style rules then
* `Palette.Legal`              the tokens of a palette have only characters that a document may hold
* `Palette.allowed_styleBlock` so have the style rules then
-/

namespace Figures

/-- a character that neither starts nor ends a tag, nor starts an entity -/
def plainChar (c : Char) : Bool := c != '<' && c != '>' && c != '&'

def PlainText (s : String) : Prop := s.toList.all plainChar = true

instance (s : String) : Decidable (PlainText s) :=
  inferInstanceAs (Decidable (s.toList.all plainChar = true))

theorem PlainText.not_mem {s : String} (h : PlainText s) {c : Char} (hc : plainChar c = false) :
    c ∉ s.toList := by
  intro hmem
  have hplain := List.all_eq_true.mp h c hmem
  rw [hc] at hplain
  cases hplain

/-- all characters of a text satisfy `q` -/
def TextOf (q : Char → Bool) (s : String) : Prop := s.toList.all q = true

instance (q : Char → Bool) (s : String) : Decidable (TextOf q s) :=
  inferInstanceAs (Decidable (s.toList.all q = true))

/-- a character that every document may hold and that means nothing in markup -/
def neutralChar (c : Char) : Bool := xmlChar c && plainChar c

theorem plainChar_of_neutralChar {c : Char} (h : neutralChar c = true) : plainChar c = true :=
  (Bool.and_eq_true_iff.mp h).2

theorem xmlChar_of_neutralChar {c : Char} (h : neutralChar c = true) : xmlChar c = true :=
  (Bool.and_eq_true_iff.mp h).1

namespace TextOf

variable {q : Char → Bool} {a b : String}

theorem append (ha : TextOf q a) (hb : TextOf q b) : TextOf q (a ++ b) := by
  rw [TextOf, String.toList_append, List.all_append, ha, hb]
  rfl

theorem intercalate {sep : String} {parts : List String} (hsep : TextOf q sep)
    (hparts : ∀ s ∈ parts, TextOf q s) : TextOf q (sep.intercalate parts) := by
  induction parts with
  | nil => rfl
  | cons s parts ih =>
    have hs := hparts s List.mem_cons_self
    have hrest := ih fun t ht => hparts t (List.mem_cons_of_mem s ht)
    cases parts with
    | nil => exact String.intercalate_singleton ▸ hs
    | cons t parts =>
      rw [String.intercalate_cons_cons]
      exact (hs.append hsep).append hrest

end TextOf

namespace Palette

theorem neutral_standard : ∀ e ∈ standard.tokens.entries, TextOf neutralChar e.2 := by
  intro e he
  exact (by decide : ∀ e ∈ _, TextOf neutralChar e.2) e (Dict.mem_of_mem_ofList he)

theorem neutral_lastResort (name : String) : TextOf neutralChar (lastResort name) := by
  unfold lastResort
  dsimp only
  split
  · decide
  · split <;> decide

section
variable {q : Char → Bool} (hq : ∀ c, neutralChar c = true → q c = true)
include hq

theorem textOf_neutral {s : String} (h : TextOf neutralChar s) : TextOf q s :=
  List.all_eq_true.mpr fun c hc => hq c (List.all_eq_true.mp h c hc)

theorem textOf_rule {cls body : String} (hcls : TextOf neutralChar cls) (hbody : TextOf q body) :
    TextOf q (rule cls body) :=
  ((((textOf_neutral hq (by decide : TextOf neutralChar ".")).append
    (textOf_neutral hq hcls)).append
    (textOf_neutral hq (by decide))).append hbody).append (textOf_neutral hq (by decide))

theorem textOf_strokeOnly {colour width : String} (hcolour : TextOf q colour)
    (hwidth : TextOf q width) : TextOf q (strokeOnly colour width) :=
  ((((textOf_neutral hq (by decide : TextOf neutralChar "stroke: ")).append hcolour).append
    (textOf_neutral hq (by decide : TextOf neutralChar "; stroke-width: "))).append hwidth).append
    (textOf_neutral hq (by decide : TextOf neutralChar "; fill: none;"))

theorem textOf_font {family size colour : String} (hfamily : TextOf q family)
    (hsize : TextOf q size) (hcolour : TextOf q colour) : TextOf q (font family size colour) :=
  ((((((textOf_neutral hq (by decide : TextOf neutralChar "font-family: ")).append hfamily).append
    (textOf_neutral hq (by decide : TextOf neutralChar "; font-size: "))).append hsize).append
    (textOf_neutral hq (by decide : TextOf neutralChar "px; fill: "))).append hcolour).append
    (textOf_neutral hq (by decide : TextOf neutralChar ";"))

variable {p : Palette} (h : ∀ e ∈ p.tokens.entries, TextOf q e.2)
include h

theorem textOf_token (name : String) : TextOf q (p.token name) := by
  unfold token
  split
  · rename_i value hvalue
    cases hown : p.tokens.get? name with
    | some own =>
      rw [hown] at hvalue
      cases hvalue
      exact h _ (Dict.mem_of_get? hown)
    | none =>
      rw [hown] at hvalue
      exact textOf_neutral hq (neutral_standard _ (Dict.mem_of_get? hvalue))
  · exact textOf_neutral hq (neutral_lastResort name)

/-- the style rules of a palette are written with neutral characters and those of its tokens -/
theorem textOf_styleBlock : TextOf q p.styleBlock := by
  have hlit := fun s => textOf_neutral (s := s) hq
  have htoken := textOf_token hq h
  have hstroke := fun colour width => textOf_strokeOnly hq (htoken colour) (htoken width)
  have hfont := fun size colour =>
    textOf_font hq (htoken "font-family") (htoken size) (htoken colour)
  unfold styleBlock
  refine TextOf.intercalate (hlit _ (by decide)) fun s hs => ?_
  simp only [List.mem_cons, List.not_mem_nil, or_false] at hs
  rcases hs with rfl | rfl | rfl | rfl | rfl | rfl | rfl | rfl | rfl | rfl | rfl | rfl | rfl
  all_goals refine textOf_rule hq (by decide) ?_
  · exact (hstroke _ _).append (hlit _ (by decide))
  · exact ((hlit _ (by decide : TextOf neutralChar "stroke: ")).append (htoken _)).append
      (hlit _ (by decide))
  · exact ((hlit _ (by decide : TextOf neutralChar "fill: ")).append (htoken _)).append
      (hlit _ (by decide))
  · exact (hfont _ _).append (hlit _ (by decide))
  · exact hfont _ _
  · exact hfont _ _
  · exact hstroke _ _
  · exact hstroke _ _
  · exact hstroke _ _
  · exact ((((((hlit _ (by decide : TextOf neutralChar "fill: ")).append (htoken _)).append
      (hlit _ (by decide))).append (htoken _)).append (hlit _ (by decide))).append
        (htoken _)).append (hlit _ (by decide))
  · exact ((((hlit _ (by decide : TextOf neutralChar "fill: ")).append (htoken _)).append
      (hlit _ (by decide))).append (htoken _)).append (hlit _ (by decide))
  · exact textOf_strokeOnly hq (htoken _) (hlit _ (by decide))
  · exact textOf_strokeOnly hq (htoken _) (hlit _ (by decide))

end

/-! ### plain palettes -/

/-- no token of a palette has a character that means something in markup -/
def Plain (p : Palette) : Prop := ∀ e ∈ p.tokens.entries, PlainText e.2

theorem plain_standard : standard.Plain := fun e he =>
  textOf_neutral (fun _ => plainChar_of_neutralChar) (neutral_standard e he)

theorem plain_styleBlock {p : Palette} (h : p.Plain) : PlainText p.styleBlock :=
  textOf_styleBlock (fun _ => plainChar_of_neutralChar) h

/-! ### legal palettes -/

/-- the tokens of a palette have only characters that a document may hold -/
def Legal (p : Palette) : Prop := ∀ e ∈ p.tokens.entries, Allowed e.2

theorem legal_standard : standard.Legal := fun e he =>
  textOf_neutral (fun _ => xmlChar_of_neutralChar) (neutral_standard e he)

theorem allowed_styleBlock {p : Palette} (h : p.Legal) : Allowed p.styleBlock :=
  textOf_styleBlock (fun _ => xmlChar_of_neutralChar) h

end Palette

end Figures
