import HubRelay.Text.Hex
import HubRelay.Text.Unprintable

/-!
Text between quotation marks, with the characters that would not show written as escapes.
-/

namespace HubRelay.Text

/-- How one character stands inside the quotation marks. -/
def quotedChar (c : Char) : String :=
  match c with
  | '\x00' => "\\0"
  | '\t' => "\\t"
  | '\n' => "\\n"
  | '\r' => "\\r"
  | '"' => "\\\""
  | '\\' => "\\\\"
  | c => if isUnprintable c then "\\u\x7b" ++ Hex.shortest c.toNat ++ "\x7d" else c.toString

def quoted (text : String) : String :=
  "\"" ++ String.join (text.toList.map quotedChar) ++ "\""

/-- A quotation mark inside is escaped, an apostrophe is not. -/
example : quoted "a\"b'" = "\"a\\\"b'\"" := by decide +kernel

end HubRelay.Text
