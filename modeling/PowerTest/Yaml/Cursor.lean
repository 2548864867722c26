import PowerTest.Yaml.Character

/-!
# Places in a text

A cursor stands before the rest of a text and knows its line and column. The rules of YAML look a
few characters ahead and compare columns with the indentation around them.
-/

namespace PowerTest.Yaml

/-- A place in a text. -/
structure Cursor where
  rest : List Char
  line : Nat
  column : Nat
  index : Nat

namespace Cursor

/-- The start of a text. -/
def start (text : List Char) : Cursor := ⟨text, 0, 0, 0⟩

/-- The next character. -/
def next? (cursor : Cursor) : Option Char := cursor.rest.head?

/-- The character after a number of others. -/
def peek? (cursor : Cursor) (distance : Nat) : Option Char := cursor.rest[distance]?

/-- Whether the next character is a given one. -/
def isAt (cursor : Cursor) (character : Char) : Bool := cursor.next? == some character

/-- Whether a character follows a number of others and satisfies a test. -/
def satisfies (cursor : Cursor) (distance : Nat) (test : Char → Bool) : Bool :=
  match cursor.peek? distance with
  | some character => test character
  | none => false

/-- Whether a separator or the end follows a number of characters. -/
def separatedAt (cursor : Cursor) (distance : Nat) : Bool :=
  match cursor.peek? distance with
  | some character => isSeparator character
  | none => true

/-- Whether the text ends here. -/
def atEnd (cursor : Cursor) : Bool := cursor.rest.isEmpty

/-- Whether a line break is next. -/
def atBreak (cursor : Cursor) : Bool := cursor.satisfies 0 isBreak

/-- The place some characters further on the same line. -/
def advance (cursor : Cursor) (count : Nat) : Cursor :=
  ⟨cursor.rest.drop count, cursor.line, cursor.column + count, cursor.index + count⟩

/-- The characters on the line for which a test holds, and the place after them. -/
def takeWhile (cursor : Cursor) (test : Char → Bool) : List Char × Cursor :=
  let taken := cursor.rest.takeWhile test
  (taken, cursor.advance taken.length)

/-- The place after the characters for which a test holds. -/
def skipWhile (cursor : Cursor) (test : Char → Bool) : Cursor :=
  (cursor.takeWhile test).2

/-- The line break that is next, as it counts in a scalar, and the place after it. All breaks but
the line and paragraph separators count as a newline. -/
def takeBreak (cursor : Cursor) : List Char × Cursor :=
  match cursor.rest with
  | '\r' :: '\n' :: rest => (['\n'], ⟨rest, cursor.line + 1, 0, cursor.index + 2⟩)
  | character :: rest =>
    if isBreak character then
      let kept := if character == '\u2028' || character == '\u2029' then character else '\n'
      ([kept], ⟨rest, cursor.line + 1, 0, cursor.index + 1⟩)
    else ([], cursor)
  | [] => ([], cursor)

/-- The place after the line break that is next. -/
def skipBreak (cursor : Cursor) : Cursor := cursor.takeBreak.2

/-- Whether a line here holds three marks followed by a separator, which bound a document. -/
def atDocumentMark (cursor : Cursor) (mark : Char) : Bool :=
  cursor.column == 0 && cursor.rest.take 3 == [mark, mark, mark] && cursor.separatedAt 3

/-- Whether a mark that bounds a document is here. -/
def atDocumentBound (cursor : Cursor) : Bool :=
  cursor.atDocumentMark '-' || cursor.atDocumentMark '.'

end Cursor

end PowerTest.Yaml
