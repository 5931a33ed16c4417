import SignedDirectory.Text.Unprintable

/-!
# Quoted characters and texts

How a foreign character or text is shown inside a message: between quotes, with a backslash before
the quote and the backslash, short escapes for NUL, tab, line feed and carriage return, and the
code point of every other character that could not be seen, as `\u{301}`.
-/

namespace SignedDirectory.Text

/-- The digits of `n` in lower-case hexadecimal, without leading zeros. -/
def hexadecimal (n : Nat) : String := String.ofList (Nat.toDigits 16 n)

/-- One character as it stands between a pair of `quote` characters. -/
def escaped (quote ch : Char) : String :=
  if ch = '\x00' then "\\0"
  else if ch = '\t' then "\\t"
  else if ch = '\n' then "\\n"
  else if ch = '\r' then "\\r"
  else if ch = '\\' ∨ ch = quote then String.ofList ['\\', ch]
  else if isHidden ch then "\\u\x7b" ++ hexadecimal ch.toNat ++ "\x7d"
  else ch.toString

def quotedChar (ch : Char) : String := "'" ++ escaped '\'' ch ++ "'"

def quoted (s : String) : String :=
  "\"" ++ s.toList.foldl (fun out ch => out ++ escaped '"' ch) "" ++ "\""

end SignedDirectory.Text
