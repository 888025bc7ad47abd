import SecondChance.Text.Unprinted

/-!
Quoted text, as it stands inside the inspected form of a value: between double quotes, with a
backslash before a quote or a backslash, letters for the common controls, and the number of every
other character that would not be seen.
-/

namespace SecondChance.Text

def hex (n : Nat) : String := String.ofList (Nat.toDigits 16 n)

def escapeChar (c : Char) : String :=
  match c with
  | '\x00' => "\\0"
  | '\t' => "\\t"
  | '\n' => "\\n"
  | '\r' => "\\r"
  | '"' => "\\\""
  | '\\' => "\\\\"
  | c => if isUnprinted c then "\\u\x7b" ++ hex c.toNat ++ "\x7d" else c.toString

def quoted (s : String) : String :=
  "\"" ++ String.join (s.toList.map escapeChar) ++ "\""

end SecondChance.Text
