import SignedDirectory.Text.Quoted

/-!
# Text for a terminal

Some control characters steer a terminal. `harmless` shows them by their codes and leaves all other
characters, also line ends and tabs, as they are.
-/

namespace SignedDirectory.Text

/-- One character as it may be sent to a terminal: bell, backspace, form feed, escape and delete
are shown as `\x1b`, the control characters from U+0080 to U+009F as `\u{9b}`. -/
def harmlessChar (ch : Char) : String :=
  match ch with
  | '\x07' => "\\x07"
  | '\x08' => "\\x08"
  | '\x0c' => "\\x0c"
  | '\x1b' => "\\x1b"
  | '\x7f' => "\\x7f"
  | ch =>
    if 0x80 ≤ ch.toNat ∧ ch.toNat ≤ 0x9f then "\\u\x7b" ++ hexadecimal ch.toNat ++ "\x7d"
    else ch.toString

def harmless (s : String) : String := s.toList.foldl (fun out ch => out ++ harmlessChar ch) ""

end SignedDirectory.Text
