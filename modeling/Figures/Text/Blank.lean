/-!
# Blanks, trimming and splitting

* `isBlank`           the characters with the property White_Space
* `Text.trim`         a text without the blanks at either end
* `Text.isBlank`      nothing but blanks
* `Text.splitAt`      the pieces between the characters that satisfy a test
* `Text.lines`        the lines of a text; a line ends at `\n` or `\r\n`
* `Text.entries`      the trimmed pieces of a `;`-separated list that are not blank
* `Text.replace`      a text with a character replaced wherever it stands
-/

namespace Figures

def isBlank (c : Char) : Bool :=
  let n := c.toNat
  (9 ≤ n && n ≤ 13) || n == 0x20 || n == 0x85 || n == 0xA0 || n == 0x1680 ||
    (0x2000 ≤ n && n ≤ 0x200A) || n == 0x2028 || n == 0x2029 || n == 0x202F || n == 0x205F ||
    n == 0x3000

namespace Text

/-- the blanks at the end of a list of characters dropped -/
def trimEnd (cs : List Char) : List Char :=
  (cs.reverse.dropWhile Figures.isBlank).reverse

/-- a text without the blanks at either end -/
def trim (s : String) : String :=
  String.ofList (trimEnd (s.toList.dropWhile Figures.isBlank))

def isBlank (s : String) : Bool := s.toList.all Figures.isBlank

/-- the pieces between the characters that satisfy `cut`; `piece` is the current one, reversed -/
def splitAux (cut : Char → Bool) (piece : List Char) : List Char → List String
  | [] => [String.ofList piece.reverse]
  | c :: cs =>
    if cut c then String.ofList piece.reverse :: splitAux cut [] cs
    else splitAux cut (c :: piece) cs

/-- the pieces between the characters that satisfy `cut`, empty ones included -/
def splitAt (cut : Char → Bool) (s : String) : List String := splitAux cut [] s.toList

/-- one line without the `\r` before its line end -/
def dropReturn : List Char → String
  | '\r' :: piece => String.ofList piece.reverse
  | piece => String.ofList piece.reverse

/-- the lines of a text; `piece` is the current one, reversed -/
def linesAux (piece : List Char) : List Char → List String
  | [] => if piece.isEmpty then [] else [String.ofList piece.reverse]
  | '\n' :: cs => dropReturn piece :: linesAux [] cs
  | c :: cs => linesAux (c :: piece) cs

/-- the lines of a text; no line follows the last line end -/
def lines (s : String) : List String := linesAux [] s.toList

/-- the trimmed pieces of a `;`-separated list that are not blank -/
def entries (s : String) : List String :=
  ((splitAt (· == ';') s).map trim).filter (fun piece => !piece.isEmpty)

/-- the text, unless it is blank -/
def nonBlank? (s : Option String) : Option String :=
  (s.map trim).filter (fun t => !t.isEmpty)

/-- a character behind the replacement of `old` by `new` -/
def swap (old : Char) (new : String) (c : Char) : List Char := if c = old then new.toList else [c]

/-- a text with every `old` replaced by `new` -/
def replace (old : Char) (new : String) (s : String) : String :=
  String.ofList (s.toList.flatMap (swap old new))

/-- ASCII letters in lower case -/
def lower (s : String) : String := String.ofList (s.toList.map Char.toLower)

/-- `s` filled up with blanks to `width` characters -/
def padRight (width : Nat) (s : String) : String :=
  s ++ String.ofList (List.replicate (width - s.toList.length) ' ')

/-- `s` without `head` in front, if it starts so -/
def dropHead? (head s : String) : Option String :=
  if head.toList.isPrefixOf s.toList then some (String.ofList (s.toList.drop head.toList.length))
  else none

/-- `s` without `tail` at the end, if it ends so -/
def dropTail? (tail s : String) : Option String :=
  if tail.toList.isSuffixOf s.toList then
    some (String.ofList (s.toList.take (s.toList.length - tail.toList.length)))
  else none

def join (sep : String) (items : List String) : String := sep.intercalate items

end Text

end Figures
