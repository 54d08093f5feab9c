/-! Texts in quotes, as messages show them. -/

namespace Muster.Text

/-- The characters that cannot be seen: controls, separators of lines, marks of direction, and characters
for private use. -/
def isUnseen (c : Char) : Bool :=
  let n := c.toNat
  n < 0x20 || (0x7f ≤ n && n ≤ 0xa0) || n == 0xad || n == 0x61c || n == 0x1680 ||
    (0x2000 ≤ n && n ≤ 0x200f) || (0x2028 ≤ n && n ≤ 0x202f) || (0x205f ≤ n && n ≤ 0x206f) ||
    n == 0x3000 || (0xe000 ≤ n && n ≤ 0xf8ff) || n == 0xfeff || (0xfff0 ≤ n && n ≤ 0xfffb) ||
    0xe0000 ≤ n

def quoteChar (c : Char) : List Char :=
  match c with
  | '"' => ['\\', '"']
  | '\\' => ['\\', '\\']
  | '\n' => ['\\', 'n']
  | '\r' => ['\\', 'r']
  | '\t' => ['\\', 't']
  | '\x00' => ['\\', '0']
  | c =>
    if isUnseen c then
      '\\' :: 'u' :: '\x7b' :: (Nat.toDigits 16 c.toNat ++ ['\x7d'])
    else [c]

def quote (s : String) : String := String.ofList ('"' :: s.toList.flatMap quoteChar ++ ['"'])

end Muster.Text
