import PowerTest.Text.Digits

/-!
# Characters of YAML

Line breaks, blanks and the characters that names are made of; which characters a text may hold,
and which of them can be written as they are.
-/

namespace PowerTest.Yaml

/-- The mark that may stand at the start of a text. -/
def byteOrderMark : Char := '\uFEFF'

/-- Whether a character breaks a line. -/
def isBreak (character : Char) : Bool :=
  character == '\n' || character == '\r' || character == '\u0085' || character == '\u2028' ||
    character == '\u2029'

/-- Whether a character is a blank or a tab. -/
def isSpaceOrTab (character : Char) : Bool :=
  character == ' ' || character == '\t'

/-- Whether a character separates, being a blank, a tab or a line break. -/
def isSeparator (character : Char) : Bool :=
  isSpaceOrTab character || isBreak character

/-- Whether a character can stand in the name of an anchor, a tag handle or a directive. -/
def isNameCharacter (character : Char) : Bool :=
  ('0' ≤ character && character ≤ '9') || ('A' ≤ character && character ≤ 'Z') ||
    ('a' ≤ character && character ≤ 'z') || character == '_' || character == '-'

/-- Whether a character can stand in a tag; brackets and commas only between angle brackets. -/
def isTagCharacter (verbatim : Bool) (character : Char) : Bool :=
  isNameCharacter character || ";/?:@&=+$.%!~*'()".toList.contains character ||
    (verbatim && ",[]".toList.contains character)

/-- Whether a text may hold a character. -/
def isAllowed (character : Char) : Bool :=
  let code := character.toNat
  code == 0x09 || code == 0x0A || code == 0x0D || (0x20 ≤ code && code ≤ 0x7E) || code == 0x85 ||
    (0xA0 ≤ code && code ≤ 0xD7FF) || (0xE000 ≤ code && code ≤ 0xFFFD) || 0x10000 ≤ code

/-- Whether a character can be written as it is. -/
def isPrintable (character : Char) : Bool :=
  let code := character.toNat
  code == 0x0A || (0x20 ≤ code && code ≤ 0x7E) || (0xA0 ≤ code && code ≤ 0xD7FF) ||
    (0xE000 ≤ code && code ≤ 0xFFFD && code != 0xFEFF) || 0x10000 ≤ code

end PowerTest.Yaml
