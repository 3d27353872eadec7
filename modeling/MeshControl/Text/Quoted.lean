import MeshControl.Text.Hexadecimal

/-!
Quoted text: a text between double quotes in which quotes, backslashes and characters that do not
show are escaped. Lists of such texts stand in square brackets.
-/

namespace MeshControl.Text

/-- Characters that print nothing of their own: controls, fillers, marks of direction. -/
def isHidden (c : Char) : Bool :=
  let code := c.toNat
  code < 0x20 || (0x7f ≤ code && code ≤ 0xa0) || code == 0xad
    || (0x0300 ≤ code && code ≤ 0x036f) || (0x2000 ≤ code && code ≤ 0x200f)
    || (0x2028 ≤ code && code ≤ 0x202f) || (0x205f ≤ code && code ≤ 0x206f)
    || code == 0x3000 || (0xe000 ≤ code && code ≤ 0xf8ff) || (0xfe00 ≤ code && code ≤ 0xfe0f)
    || code == 0xfeff || (0xfff0 ≤ code && code ≤ 0xfffb) || 0xe0000 ≤ code
    || code % 0x10000 ≥ 0xfffe

/-- How a character is written between quotes. -/
def escape (c : Char) : List Char :=
  if c = '"' then ['\\', '"']
  else if c = '\\' then ['\\', '\\']
  else if c = '\n' then ['\\', 'n']
  else if c = '\r' then ['\\', 'r']
  else if c = '\t' then ['\\', 't']
  else if c = '\x00' then ['\\', '0']
  else if isHidden c then
    ['\\', 'u', '\x7b'] ++ (hexadecimal 1 c.toNat).toList ++ ['\x7d']
  else [c]

/-- A text between double quotes. -/
def quoted (text : String) : String :=
  String.ofList ('"' :: text.toList.flatMap escape ++ ['"'])

/-- Items between square brackets, with a comma and a blank between them. -/
def bracketed (items : List String) : String :=
  "[" ++ ", ".intercalate items ++ "]"

end MeshControl.Text
