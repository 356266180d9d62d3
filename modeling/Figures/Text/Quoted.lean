import Figures.Text.Blank

/-!
# Quoted text in messages

* `Text.isHidden`    characters that are not shown as themselves inside quotes
* `Text.quoted`      a text in double quotes, its hidden characters as `\u` with a code point in
                     braces
-/

namespace Figures.Text

/-- controls, blanks other than the space, format characters, the diacritical marks that combine
with a neighbour, and characters for private use -/
def isHidden (c : Char) : Bool :=
  let n := c.toNat
  n < 0x20 || (0x7F ≤ n && n ≤ 0xA0) || n == 0xAD || (0x300 ≤ n && n ≤ 0x36F) ||
    (0x600 ≤ n && n ≤ 0x605) || n == 0x61C || n == 0x1680 || (0x2000 ≤ n && n ≤ 0x200F) ||
    (0x2028 ≤ n && n ≤ 0x202F) || (0x205F ≤ n && n ≤ 0x206F) || n == 0x3000 ||
    (0xE000 ≤ n && n ≤ 0xF8FF) || (0xFE00 ≤ n && n ≤ 0xFE0F) || n == 0xFEFF ||
    (0xFFF0 ≤ n && n ≤ 0xFFFB) || n == 0xFFFE || n == 0xFFFF || 0xE0000 ≤ n

def quotedChar (c : Char) : String :=
  if c = '\x22' then "\\\""
  else if c = '\\' then "\\\\"
  else if c = '\n' then "\\n"
  else if c = '\r' then "\\r"
  else if c = '\t' then "\\t"
  else if c.toNat = 0 then "\\0"
  else if isHidden c then "\\u\x7b" ++ String.ofList (Nat.toDigits 16 c.toNat) ++ "\x7d"
  else String.ofList [c]

def quoted (s : String) : String :=
  "\"" ++ String.join (s.toList.map quotedChar) ++ "\""

end Figures.Text
