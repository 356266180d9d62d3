import Figures.Proofs.Markup.Escape
import Mathlib.Tactic.SplitIfs

/-!
# Reading markup

* `Mark`           what markup consists of: a declaration, tags with their fields, and the content
                   between tags, values and content as they stand
* `Scan.step`      reads one character
* `read?`          the marks of a text, if the text is markup
* `text_of_read`   the marks of a text, written one after the other, are the text
* `run_start`      a start tag is read up to its end
* `run_piece`      the piece of a drawing is read as its marks

The reader knows nothing of drawings: it sees characters, and names, values and content are what
stands between the characters that delimit them.
-/

namespace Figures.Markup

/-- an attribute as it stands: its name and the characters between its quotes -/
abbrev Field := List Char × List Char

inductive Mark where
  | declaration (text : List Char)
  | opening (name : List Char) (fields : List Field)
  | single (name : List Char) (fields : List Field)
  | closing (name : List Char)
  | content (raw : List Char)
  deriving Repr, DecidableEq

/-- a character of a name behind its first one -/
def nameChar (c : Char) : Bool := c.isAlphanum || c = '-' || c = '_' || c = ':' || c = '.'

/-- a name: a letter, and name characters behind it -/
def isName : List Char → Bool
  | [] => false
  | c :: cs => c.isAlpha && cs.all nameChar

/-- where the reader stands, with what it has seen of the mark it is in -/
inductive Place where
  | outside (raw : List Char)
  | bracket
  | declaring (text : List Char)
  | leaving (name : List Char)
  | naming (name : List Char)
  | gap (name : List Char) (fields : List Field)
  | key (name : List Char) (fields : List Field) (key : List Char)
  | equals (name : List Char) (fields : List Field) (key : List Char)
  | value (name : List Char) (fields : List Field) (key value : List Char)
  | behind (name : List Char) (fields : List Field)
  | slash (name : List Char) (fields : List Field)
  deriving Repr, DecidableEq

/-- the marks that are read, and the place of the reader -/
structure Scan where
  done : List Mark
  place : Place
  deriving Repr, DecidableEq

def contentMark (raw : List Char) : List Mark := if raw = [] then [] else [.content raw]

namespace Scan

/-- how a start tag goes on behind its name or a value -/
def goOn (done : List Mark) (name : List Char) (fields : List Field) (c : Char) : Option Scan :=
  if c = ' ' then some ⟨done, .gap name fields⟩
  else if c = '>' then some ⟨done ++ [.opening name fields], .outside []⟩
  else if c = '/' then some ⟨done, .slash name fields⟩
  else none

/-- reads one character; nothing if markup has no such character there -/
def step : Scan → Char → Option Scan
  | ⟨done, .outside raw⟩, c =>
    if c = '<' then some ⟨done ++ contentMark raw, .bracket⟩
    else some ⟨done, .outside (raw ++ [c])⟩
  | ⟨done, .bracket⟩, c =>
    if c = '/' then some ⟨done, .leaving []⟩
    else if c = '?' then some ⟨done, .declaring []⟩
    else if c.isAlpha then some ⟨done, .naming [c]⟩
    else none
  | ⟨done, .declaring text⟩, c =>
    if c = '>' then
      if text.getLast? = some '?' then some ⟨done ++ [.declaration text.dropLast], .outside []⟩
      else none
    else some ⟨done, .declaring (text ++ [c])⟩
  | ⟨done, .leaving name⟩, c =>
    if c = '>' then some ⟨done ++ [.closing name], .outside []⟩
    else if nameChar c then some ⟨done, .leaving (name ++ [c])⟩
    else none
  | ⟨done, .naming name⟩, c =>
    if nameChar c then some ⟨done, .naming (name ++ [c])⟩ else goOn done name [] c
  | ⟨done, .gap name fields⟩, c =>
    if c.isAlpha then some ⟨done, .key name fields [c]⟩ else none
  | ⟨done, .key name fields key⟩, c =>
    if nameChar c then some ⟨done, .key name fields (key ++ [c])⟩
    else if c = '=' then some ⟨done, .equals name fields key⟩
    else none
  | ⟨done, .equals name fields key⟩, c =>
    if c = '\x22' then some ⟨done, .value name fields key []⟩ else none
  | ⟨done, .value name fields key value⟩, c =>
    if c = '\x22' then some ⟨done, .behind name (fields ++ [(key, value)])⟩
    else some ⟨done, .value name fields key (value ++ [c])⟩
  | ⟨done, .behind name fields⟩, c => goOn done name fields c
  | ⟨done, .slash name fields⟩, c =>
    if c = '>' then some ⟨done ++ [.single name fields], .outside []⟩ else none

def run (s : Scan) (cs : List Char) : Option Scan := cs.foldlM step s

/-- the marks at the end of a text; a text does not end inside a tag -/
def close? : Scan → Option (List Mark)
  | ⟨done, .outside raw⟩ => some (done ++ contentMark raw)
  | _ => none

end Scan

def read? (s : String) : Option (List Mark) := Scan.run ⟨[], .outside []⟩ s.toList >>= Scan.close?

/-! ### marks as text -/

def fieldText (f : Field) : List Char := ' ' :: f.1 ++ '=' :: '\x22' :: f.2 ++ ['\x22']

def Mark.text : Mark → List Char
  | .declaration text => '<' :: '?' :: text ++ ['?', '>']
  | .opening name fields => '<' :: name ++ fields.flatMap fieldText ++ ['>']
  | .single name fields => '<' :: name ++ fields.flatMap fieldText ++ ['/', '>']
  | .closing name => '<' :: '/' :: name ++ ['>']
  | .content raw => raw

/-- what has been read of the mark at a place -/
def Place.text : Place → List Char
  | .outside raw => raw
  | .bracket => ['<']
  | .declaring text => '<' :: '?' :: text
  | .leaving name => '<' :: '/' :: name
  | .naming name => '<' :: name
  | .gap name fields => '<' :: name ++ fields.flatMap fieldText ++ [' ']
  | .key name fields k => '<' :: name ++ fields.flatMap fieldText ++ ' ' :: k
  | .equals name fields k => '<' :: name ++ fields.flatMap fieldText ++ ' ' :: k ++ ['=']
  | .value name fields k v =>
    '<' :: name ++ fields.flatMap fieldText ++ ' ' :: k ++ '=' :: '\x22' :: v
  | .behind name fields => '<' :: name ++ fields.flatMap fieldText
  | .slash name fields => '<' :: name ++ fields.flatMap fieldText ++ ['/']

def Scan.text (s : Scan) : List Char := s.done.flatMap Mark.text ++ s.place.text

theorem text_contentMark (raw : List Char) : (contentMark raw).flatMap Mark.text = raw := by
  by_cases h : raw = []
  · rw [contentMark, if_pos h, h]
    rfl
  · rw [contentMark, if_neg h]
    exact List.append_nil raw

namespace Scan

theorem text_goOn {done : List Mark} {name : List Char} {fields : List Field} {c : Char} {s : Scan}
    (h : goOn done name fields c = some s) :
    s.text = done.flatMap Mark.text ++ ('<' :: name ++ fields.flatMap fieldText) ++ [c] := by
  unfold goOn at h
  split_ifs at h <;> cases h <;> subst_vars <;> simp [Scan.text, Place.text, Mark.text]

/-- a step reads its character and forgets nothing -/
theorem text_step {s s' : Scan} {c : Char} (h : s.step c = some s') : s'.text = s.text ++ [c] := by
  obtain ⟨done, place⟩ := s
  cases place with
  | outside raw =>
    simp only [step] at h
    split_ifs at h with hc <;> cases h
    · subst hc
      simp [Scan.text, Place.text, text_contentMark]
    · simp [Scan.text, Place.text]
  | declaring text =>
    simp only [step] at h
    split_ifs at h with hc hlast <;> cases h
    · obtain ⟨front, rfl⟩ := List.getLast?_eq_some_iff.mp hlast
      subst hc
      simp [Scan.text, Place.text, Mark.text]
    · simp [Scan.text, Place.text]
  | naming name =>
    simp only [step] at h
    split_ifs at h
    · cases h
      simp [Scan.text, Place.text]
    · simpa [Scan.text, Place.text] using text_goOn h
  | behind name fields => simpa [Scan.text, Place.text] using text_goOn h
  | bracket | leaving | gap | key | equals | value | slash =>
    simp only [step] at h
    split_ifs at h <;> cases h <;> subst_vars <;> simp [Scan.text, Place.text, Mark.text, fieldText]

theorem run_nil (s : Scan) : s.run [] = some s := rfl

theorem run_cons (s : Scan) (c : Char) (cs : List Char) :
    s.run (c :: cs) = (s.step c).bind fun t => t.run cs := rfl

theorem run_append (s : Scan) (a b : List Char) :
    s.run (a ++ b) = (s.run a).bind fun t => t.run b := List.foldlM_append

theorem text_run {s s' : Scan} {cs : List Char} (h : s.run cs = some s') :
    s'.text = s.text ++ cs := by
  induction cs generalizing s with
  | nil =>
    cases h
    exact (List.append_nil _).symm
  | cons c cs ih =>
    rw [run_cons] at h
    obtain ⟨t, hstep, hrun⟩ := Option.bind_eq_some_iff.mp h
    rw [ih hrun, text_step hstep, List.append_assoc]
    rfl

end Scan

/-- the marks of a text, written one after the other, are the text -/
theorem text_of_read {s : String} {marks : List Mark} (h : read? s = some marks) :
    marks.flatMap Mark.text = s.toList := by
  obtain ⟨⟨done, place⟩, hrun, hclose⟩ := Option.bind_eq_some_iff.mp h
  have htext := Scan.text_run hrun
  cases place <;> cases hclose
  case outside raw =>
    rw [List.flatMap_append, text_contentMark]
    exact htext

/-! ### what is read from the markup of attributes and pieces -/

def fieldOf (a : Attr) : Field := (a.name.toList, (escape a.value).toList)

theorem fieldOf_value (a : Attr) : (fieldOf a).2 = (escape a.value).toList := by
  rw [fieldOf]

namespace Scan

variable {done : List Mark} {name : List Char} {fields : List Field}

/-- a place that takes up every character of some kind takes up a word of them -/
theorem run_collect (place : List Char → Place) {P : Char → Prop}
    (h : ∀ acc c, P c → step ⟨done, place acc⟩ c = some ⟨done, place (acc ++ [c])⟩)
    (acc cs : List Char) (hcs : ∀ c ∈ cs, P c) :
    run ⟨done, place acc⟩ cs = some ⟨done, place (acc ++ cs)⟩ := by
  induction cs generalizing acc with
  | nil => rw [run_nil, List.append_nil]
  | cons c cs ih =>
    rw [run_cons, h acc c (hcs c List.mem_cons_self), Option.bind_some,
      ih (acc ++ [c]) fun d hd => hcs d (List.mem_cons_of_mem c hd), List.append_assoc]
    rfl

theorem run_content (raw cs : List Char) (h : '<' ∉ cs) :
    run ⟨done, .outside raw⟩ cs = some ⟨done, .outside (raw ++ cs)⟩ :=
  run_collect .outside (P := (· ≠ '<')) (fun acc c hc => by simp only [step, if_neg hc])
    raw cs fun c hc heq => h (heq ▸ hc)

theorem run_value (k cs : List Char) (h : '\x22' ∉ cs) :
    run ⟨done, .value name fields k []⟩ cs = some ⟨done, .value name fields k cs⟩ :=
  run_collect (.value name fields k) (P := (· ≠ '\x22'))
    (fun acc c hc => by simp only [step, if_neg hc]) [] cs fun c hc heq => h (heq ▸ hc)

end Scan

theorem nameChar_of_isAlpha {c : Char} (h : c.isAlpha = true) : nameChar c = true := by
  simp [nameChar, Char.isAlphanum, h]

theorem nameChar_of_isName {cs : List Char} (h : isName cs = true) :
    ∀ c ∈ cs, nameChar c = true := by
  cases cs with
  | nil => exact fun c hc => absurd hc List.not_mem_nil
  | cons d cs =>
    obtain ⟨hd, hcs⟩ : d.isAlpha = true ∧ ∀ c ∈ cs, nameChar c = true := by simpa [isName] using h
    intro c hc
    rcases List.mem_cons.mp hc with rfl | hc
    · exact nameChar_of_isAlpha hd
    · exact hcs c hc

/-- a field that can be read back: a name, and no quote among the characters of its value -/
def Readable (f : Field) : Prop := isName f.1 = true ∧ '\x22' ∉ f.2

theorem toList_attrText (a : Attr) : (attrText a).toList = fieldText (fieldOf a) := by
  simp [attrText, fieldText, fieldOf]

theorem readable_fieldOf {a : Attr} (h : isName a.name.toList = true) :
    Readable (fieldOf a) := by
  refine ⟨h, ?_⟩
  rw [fieldOf_value]
  exact quote_not_mem_escape a.value

namespace Scan

variable {done : List Mark} {name : List Char}

theorem run_name (h : isName name = true) :
    run ⟨done, .bracket⟩ name = some ⟨done, .naming name⟩ := by
  cases name with
  | nil => exact absurd h (by decide)
  | cons c cs =>
    obtain ⟨hc, hcs⟩ : c.isAlpha = true ∧ ∀ d ∈ cs, nameChar d = true := by simpa [isName] using h
    have hslash : c ≠ '/' := fun heq => absurd (heq ▸ hc) (by decide)
    have hask : c ≠ '?' := fun heq => absurd (heq ▸ hc) (by decide)
    rw [run_cons]
    simp only [step, if_neg hslash, if_neg hask, if_pos hc, Option.bind_some]
    exact run_collect .naming (fun acc d hd => by simp only [step, if_pos hd]) [c] cs hcs

/-- behind the blank before a field, the field is read up to its closing quote -/
theorem run_field {fields : List Field} {f : Field} (h : Readable f) :
    run ⟨done, .gap name fields⟩ (f.1 ++ '=' :: '\x22' :: f.2 ++ ['\x22'])
      = some ⟨done, .behind name (fields ++ [f])⟩ := by
  obtain ⟨k, v⟩ := f
  obtain ⟨hk, hv⟩ := h
  cases k with
  | nil => cases hk
  | cons c cs =>
    obtain ⟨hc, hcs⟩ : c.isAlpha = true ∧ ∀ d ∈ cs, nameChar d = true := by
      simpa [isName] using hk
    have hkey : run ⟨done, .key name fields [c]⟩ cs = some ⟨done, .key name fields (c :: cs)⟩ :=
      run_collect (.key name fields) (fun acc d hd => by simp only [step, if_pos hd])
        [c] cs hcs
    have heq : nameChar '=' = false := by decide
    simp only [List.cons_append, List.append_assoc, run_cons, run_append, step,
      if_pos hc, hkey, heq, Option.bind_some, Bool.false_eq_true, if_false, if_true,
      run_value (k := c :: cs) v hv, run_nil]

/-- from a place where a start tag may go on, the fields behind it are read -/
theorem run_fields {place : Place} (fields : List Field) {c : Char} (hc : nameChar c = false)
    (hplace : ∀ d, nameChar d = false → step ⟨done, place⟩ d = goOn done name fields d)
    {fs : List Field} (hfs : ∀ f ∈ fs, Readable f) :
    run ⟨done, place⟩ (fs.flatMap fieldText ++ [c]) = goOn done name (fields ++ fs) c := by
  induction fs generalizing place fields with
  | nil =>
    rw [List.flatMap_nil, List.nil_append, List.append_nil, run_cons, hplace c hc]
    exact Option.bind_fun_some (goOn done name fields c)
  | cons f fs ih =>
    have hgap : step ⟨done, place⟩ ' ' = some ⟨done, .gap name fields⟩ := hplace ' ' (by decide)
    have htext : (f :: fs).flatMap fieldText ++ [c]
        = ' ' :: ((f.1 ++ '=' :: '\x22' :: f.2 ++ ['\x22']) ++ (fs.flatMap fieldText ++ [c])) := by
      simp [fieldText]
    rw [htext, run_cons, hgap, Option.bind_some, run_append,
      run_field (hfs f List.mem_cons_self), Option.bind_some,
      ih (fields ++ [f]) (fun d _ => rfl) fun g hg => hfs g (List.mem_cons_of_mem f hg),
      List.append_assoc]
    rfl

theorem run_start {raw : List Char} (fs : List Field) {c : Char} (hname : isName name = true)
    (hfs : ∀ f ∈ fs, Readable f) (hc : nameChar c = false) :
    run ⟨done, .outside raw⟩ ('<' :: name ++ fs.flatMap fieldText ++ [c])
      = goOn (done ++ contentMark raw) name fs c := by
  have hbracket : step ⟨done, .outside raw⟩ '<' = some ⟨done ++ contentMark raw, .bracket⟩ := rfl
  rw [List.cons_append, List.cons_append, List.append_assoc, run_cons, hbracket, Option.bind_some,
    run_append, run_name hname, Option.bind_some,
    run_fields [] hc (fun d hd => by simp [step, hd]; rfl) hfs,
    List.nil_append]

theorem run_end (name : List Char) {raw : List Char} (hname : isName name = true) :
    run ⟨done, .outside raw⟩ ('<' :: '/' :: name ++ ['>'])
      = some ⟨done ++ contentMark raw ++ [.closing name], .outside []⟩ := by
  have hword : run ⟨done ++ contentMark raw, .leaving []⟩ name
      = some ⟨done ++ contentMark raw, .leaving name⟩ := by
    refine run_collect .leaving (P := fun c => nameChar c = true ∧ c ≠ '>')
      (fun acc c hc => by simp only [step, if_neg hc.2, if_pos hc.1]) [] name fun c hc => ?_
    have hchar := nameChar_of_isName hname c hc
    exact ⟨hchar, fun heq => absurd (heq ▸ hchar) (by decide)⟩
  simp only [List.cons_append, run_cons, run_append, step, if_true, Option.bind_some,
    hword, run_nil]

end Scan

/-! ### pieces -/

def pieceMarks : Piece → List Mark
  | .group attrs => [.opening ['g'] (attrs.map fieldOf)]
  | .groupEnd => [.closing ['g']]
  | .leaf name attrs _ => [.single name.toList (attrs.map fieldOf)]
  | .text attrs _ content =>
    .opening "text".toList (attrs.map fieldOf) ::
      (contentMark (escape content).toList ++ [.closing "text".toList])

def Named (attrs : List Attr) : Prop := ∀ a ∈ attrs, isName a.name.toList = true

instance (attrs : List Attr) : Decidable (Named attrs) :=
  inferInstanceAs (Decidable (∀ a ∈ attrs, isName a.name.toList = true))

/-- the tags of a piece have names, and nothing else stands in them but attributes -/
def WellNamed : Piece → Prop
  | .group attrs => Named attrs
  | .groupEnd => True
  | .leaf name attrs tail => isName name.toList = true ∧ Named attrs ∧ tail = ""
  | .text attrs tail _ => Named attrs ∧ tail = ""

theorem toList_attrsText (attrs : List Attr) :
    (attrsText attrs).toList = (attrs.map fieldOf).flatMap fieldText := by
  simp only [attrsText, String.toList_join, List.map_map, List.flatMap_def]
  congr 2
  funext a
  exact toList_attrText a

theorem readable_map_fieldOf {attrs : List Attr} (h : Named attrs) :
    ∀ f ∈ attrs.map fieldOf, Readable f := by
  intro f hf
  obtain ⟨a, ha, rfl⟩ := List.mem_map.mp hf
  exact readable_fieldOf (h a ha)

theorem run_piece {p : Piece} (h : WellNamed p) (done : List Mark) (raw : List Char) :
    Scan.run ⟨done, .outside raw⟩ (pieceText p).toList
      = some ⟨done ++ contentMark raw ++ pieceMarks p, .outside []⟩ := by
  cases p with
  | group attrs =>
    have htext : (pieceText (.group attrs)).toList
        = '<' :: ['g'] ++ (attrs.map fieldOf).flatMap fieldText ++ ['>'] := by
      simp [pieceText, toList_attrsText]
    rw [htext, Scan.run_start _ (by decide) (readable_map_fieldOf h) (by decide)]
    rfl
  | groupEnd => exact Scan.run_end ['g'] (by decide)
  | leaf name attrs tail =>
    obtain ⟨hname, hattrs, rfl⟩ := h
    have htext : (pieceText (.leaf name attrs "")).toList
        = ('<' :: name.toList ++ (attrs.map fieldOf).flatMap fieldText ++ ['/']) ++ ['>'] := by
      simp [pieceText, toList_attrsText]
    rw [htext, Scan.run_append, Scan.run_start _ hname (readable_map_fieldOf hattrs) (by decide)]
    rfl
  | text attrs tail content =>
    obtain ⟨hattrs, rfl⟩ := h
    have htext : (pieceText (.text attrs "" content)).toList
        = ('<' :: "text".toList ++ (attrs.map fieldOf).flatMap fieldText ++ ['>']) ++
            ((escape content).toList ++ ('<' :: '/' :: "text".toList ++ ['>'])) := by
      simp [pieceText, toList_attrsText]
    have hstart : Scan.goOn (done ++ contentMark raw) "text".toList (attrs.map fieldOf) '>'
        = some ⟨done ++ contentMark raw ++ [.opening "text".toList (attrs.map fieldOf)],
            .outside []⟩ := rfl
    rw [htext, Scan.run_append, Scan.run_start _ (by decide) (readable_map_fieldOf hattrs)
      (by decide), hstart, Option.bind_some, Scan.run_append,
      Scan.run_content [] _ (lt_not_mem_escape content), Option.bind_some, List.nil_append,
      Scan.run_end _ (by decide)]
    simp [pieceMarks]

end Figures.Markup
