import ObjectFlow.Text.Printable
/-!
# Quoted text

`quoted` writes a text between double quotes. The quote, the backslash and the common controls have
short escapes; what is not printable, or joins the character before it, is written by code point.
-/

namespace ObjectFlow.Text

/-- Writes one character as it stands between double quotes. -/
def escapeChar (c : Char) : List Char :=
  match c with
  | '\x00' => ['\\', '0']
  | '\t' => ['\\', 't']
  | '\r' => ['\\', 'r']
  | '\n' => ['\\', 'n']
  | '"' => ['\\', '"']
  | '\\' => ['\\', '\\']
  | c =>
    if extendsGrapheme c || !isPrintable c then
      ['\\', 'u', '\x7b'] ++ Nat.toDigits 16 c.toNat ++ ['\x7d']
    else [c]

/-- The text between double quotes, with escapes. -/
def quoted (s : String) : String :=
  String.ofList ('"' :: s.toList.flatMap escapeChar ++ ['"'])

end ObjectFlow.Text
