import ContractAbi.Text.Printable

/-!
# Quoted text

Texts and characters are quoted so that they can be told apart in a message: the delimiter, the
backslash and every unprintable character are written as escapes, all else stands for itself.
-/

namespace ContractAbi.Text.Quoted

/-- The escape of a character by its code point in lowercase hexadecimal. -/
def codePoint (char : Char) : String :=
  "\\u\x7b" ++ String.ofList (Nat.toDigits 16 char.toNat) ++ "\x7d"

/-- A character as it is written between two `delimiter`s. -/
def escape (delimiter char : Char) : String :=
  match char with
  | '\t' => "\\t"
  | '\r' => "\\r"
  | '\n' => "\\n"
  | '\x00' => "\\0"
  | '\\' => "\\\\"
  | char =>
    if char = delimiter then String.ofList ['\\', char]
    else if isPrintable char then String.singleton char
    else codePoint char

/-- A text in double quotes. -/
def text (content : String) : String :=
  "\"" ++ String.join (content.toList.map (escape '"')) ++ "\""

/-- A character in single quotes. -/
def char (content : Char) : String :=
  "'" ++ escape '\'' content ++ "'"

end ContractAbi.Text.Quoted
