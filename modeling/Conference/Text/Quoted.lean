import Conference.Text.Hidden

/-!
# Quoted text

Text between double quotes, as it is shown for diagnosis. What would not show as itself is escaped.
-/

namespace Conference.Text

def hex (n : Nat) : List Char := Nat.toDigits 16 n

/-- A character by its number in braces. -/
def unicodeEscape (c : Char) : List Char := ['\\', 'u', '\x7b'] ++ hex c.toNat ++ ['\x7d']

def escape (c : Char) : List Char :=
  match c with
  | '\x00' => ['\\', '0']
  | '\t' => ['\\', 't']
  | '\n' => ['\\', 'n']
  | '\r' => ['\\', 'r']
  | '"' => ['\\', '"']
  | '\\' => ['\\', '\\']
  | _ => if Hidden.isHidden c then unicodeEscape c else [c]

def quoted (s : String) : String :=
  String.ofList ('"' :: s.toList.flatMap escape ++ ['"'])

end Conference.Text
