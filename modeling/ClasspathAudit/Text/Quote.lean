import ClasspathAudit.Text.Hex
import ClasspathAudit.Text.Printable

/-!
Quoted text in messages: a name is set between quotes, with an escape for the quote, the backslash
and every character that does not show.
-/

namespace ClasspathAudit.Text

def escapeChar (mark c : Char) : List Char :=
  if c = mark ∨ c = '\\' then ['\\', c]
  else if isPrintable c then [c]
  else match c.toNat with
    | 7 => ['\\', 'a']
    | 8 => ['\\', 'b']
    | 12 => ['\\', 'f']
    | 10 => ['\\', 'n']
    | 13 => ['\\', 'r']
    | 9 => ['\\', 't']
    | 11 => ['\\', 'v']
    | n =>
      if n < 0x20 ∨ n = 0x7F then '\\' :: 'x' :: hexFixed 2 n
      else if n < 0x10000 then '\\' :: 'u' :: hexFixed 4 n
      else '\\' :: 'U' :: hexFixed 8 n

def quote (s : String) : String :=
  String.ofList ('\x22' :: s.toList.flatMap (escapeChar '\x22') ++ ['\x22'])

def quoteChar (c : Char) : String :=
  String.ofList ('\x27' :: escapeChar '\x27' c ++ ['\x27'])

def quoteByte (b : UInt8) : String :=
  quoteChar (Char.ofNat b.toNat)

end ClasspathAudit.Text
