import Warden.Text.CharClass

/-! # Blanks

The characters that are trimmed from both ends of a text: the ASCII spaces and separators, next
line, no-break space and the space separators of Unicode.
-/

namespace Warden.Text

/-- The blank characters. -/
def blanks : CharClass where
  borders := [
    9, 14, 28, 33, 133, 134, 160, 161, 5760, 5761, 8192, 8203, 8232, 8234, 8239, 8240, 8287,
    8288, 12288, 12289]

/-- The character is a blank. -/
def isBlank (c : Char) : Bool :=
  blanks.contains c

/-- The text without the blanks at its two ends. -/
def trimChars (cs : List Char) : List Char :=
  ((cs.dropWhile isBlank).reverse.dropWhile isBlank).reverse

/-- The text without the blanks at its two ends. -/
def trim (s : String) : String :=
  String.ofList (trimChars s.toList)

example : isBlank ' ' ∧ isBlank '\t' ∧ isBlank '\u00a0' ∧ isBlank '\u2028' ∧
    ¬ isBlank '\u200b' := by
  decide

end Warden.Text
