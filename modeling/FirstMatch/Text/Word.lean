import FirstMatch.Text.Letter
import FirstMatch.Text.Mark
import FirstMatch.Text.Number

/-!
# Word characters

A word character is a letter, a mark, a decimal digit, a connector such as the low line, or a joining control.
-/

namespace FirstMatch

namespace CharSet

/-- Punctuation that connects the parts of a word. -/
def connector : CharSet := ofRanges [
    (0x5F, 0x5F), (0x203F, 0x2040), (0x2054, 0x2054), (0xFE33, 0xFE34), (0xFE4D, 0xFE4F), (0xFF3F, 0xFF3F)]

/-- The controls that join or separate neighbouring letters in writing. -/
def joiner : CharSet := ofRanges [(0x200C, 0x200D)]

/-- Characters that belong in a word. -/
def word : CharSet := letter.union (mark.union (digit.union (connector.union joiner)))

end CharSet

/-- Whether a character belongs in a word. -/
def Text.isWord (c : Char) : Bool := CharSet.word.contains c

end FirstMatch
