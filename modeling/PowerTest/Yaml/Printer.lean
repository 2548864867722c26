import PowerTest.Yaml.Meaning
import PowerTest.Yaml.Scalar
import PowerTest.Json.Numeral

/-!
# Writing YAML

Mappings and sequences are written in block style, a nested mapping indented by two blanks more
than the one around it and a sequence as far as its key. A text is written plainly where that reads
back as the same text; otherwise as a literal block if it has several lines, or between quotes.
-/

namespace PowerTest.Yaml

/-- What can stand in one place of a document. -/
inductive Entry
  /-- A number, a truth value or nothing, in its written form. -/
  | plain (written : String)
  | text (content : String)
  | texts (contents : List String)
  | nested (entries : List (String × Entry))

/-- What a text is like, as far as it decides how it can be written. -/
structure Traits where
  /-- It has something that would be read as an indicator. -/
  indicators : Bool
  /-- It has a character that has to be escaped. -/
  special : Bool
  breaks : Bool
  /-- A blank or a break stands at an end. -/
  openEnds : Bool
  trailingSpace : Bool
  breakThenSpace : Bool
  spaceThenBreak : Bool
  deriving DecidableEq, Repr

namespace Traits

/-- Whether some character and the one after it satisfy tests. -/
def anyPair (first second : Char → Bool) (text : List Char) : Bool :=
  (text.zip (text.drop 1)).any fun (before, after) => first before && second after

/-- Whether a character at the start of a text would be read as an indicator. -/
def startsIndicator : List Char → Bool
  | [] => false
  | first :: rest =>
    let separated :=
      match rest with
      | [] => true
      | second :: _ => isSeparator second
    "#,[]\x7b\x7d&*!|>'\"%@`".toList.contains first ||
      (separated && "?:-".toList.contains first)

/-- Whether a character after the first would be read as an indicator. -/
def hasIndicator (text : List Char) : Bool :=
  anyPair (· == ':') isSeparator text || (1 < text.length && text.getLast? == some ':') ||
    anyPair isSeparator (· == '#') text

/-- The traits of a text. -/
def ofText (text : List Char) : Traits where
  indicators :=
    text.take 3 == ['-', '-', '-'] || text.take 3 == ['.', '.', '.'] || startsIndicator text ||
      hasIndicator text
  special := !text.all isPrintable
  breaks := text.any isBreak
  openEnds :=
    let isOpen (character : Char) : Bool := character == ' ' || isBreak character
    text.head?.any isOpen || text.getLast?.any isOpen
  trailingSpace := text.getLast? == some ' '
  breakThenSpace := anyPair isBreak (· == ' ') text
  spaceThenBreak := anyPair (· == ' ') isBreak text

/-- Whether a text can be written plainly. -/
def allowPlain (traits : Traits) : Bool :=
  !(traits.indicators || traits.special || traits.breaks || traits.openEnds ||
    traits.breakThenSpace || traits.spaceThenBreak)

/-- Whether a text can be written between single quotes. -/
def allowSingle (traits : Traits) : Bool :=
  !(traits.special || traits.breakThenSpace || traits.spaceThenBreak)

/-- Whether a text can be written as a literal block. -/
def allowLiteral (traits : Traits) : Bool :=
  !(traits.special || traits.trailingSpace || traits.spaceThenBreak)

end Traits

/-- Whether a text written plainly would stand for something else. -/
def hasOtherMeaning (text : String) : Bool :=
  text.isEmpty || isNull text || (flag? text).isSome || (natural? (2 ^ 128) text).isSome ||
    (negative? (2 ^ 127) text).isSome || isPadded text.toList || (float? text).isSome

/-- The style in which a text is written. -/
def styleOf (text : String) : Style :=
  let traits := Traits.ofText text.toList
  let quoted := if traits.allowSingle then Style.singleQuoted else .doubleQuoted
  if text.toList.contains '\n' then
    if traits.allowLiteral then .literal else .doubleQuoted
  else if hasOtherMeaning text then quoted
  else if traits.allowPlain then .plain
  else quoted

/-- Blanks up to a column. -/
def indent (column : Nat) : List Char := List.replicate column ' '

/-- A character of a text between double quotes. -/
def escapeDouble (character : Char) : List Char :=
  let code := character.toNat
  if isPrintable character && !isBreak character && character != '"' && character != '\\' then
    [character]
  else
    match "0abtnvfre\"\\NLP".toList.find? fun letter =>
        match escape? letter with
        | some (.character known) => known == character
        | _ => false with
    | some letter => ['\\', letter]
    | none =>
      let (mark, digits) := if code < 0x100 then ('x', 2) else if code < 0x10000 then ('u', 4)
        else ('U', 8)
      '\\' :: mark :: (Text.capitalHexadecimal digits code).toList

/-- A text between double quotes. -/
def doubleQuoted (text : List Char) : List Char :=
  '"' :: text.flatMap escapeDouble ++ ['"']

/-- The characters of a text between single quotes. What follows a break is indented. -/
def singleQuotedRun (column : Nat) (afterBreak : Bool) : List Char → List Char
  | [] => if afterBreak then indent column else []
  | character :: rest =>
    if isBreak character then character :: singleQuotedRun column true rest
    else
      (if afterBreak then indent column else []) ++
        (if character == '\'' then ['\'', '\''] else [character]) ++
          singleQuotedRun column false rest

/-- A text between single quotes. -/
def singleQuoted (column : Nat) (text : List Char) : List Char :=
  '\'' :: singleQuotedRun column false text ++ ['\'']

/-- The lines of a literal block, each indented. -/
def literalLines (column : Nat) (afterBreak : Bool) : List Char → List Char
  | [] => []
  | character :: rest =>
    if isBreak character then character :: literalLines column true rest
    else
      (if afterBreak then indent column else []) ++ character :: literalLines column false rest

/-- The mark for what happens to the breaks at the end of a literal block. -/
def chompingMark (text : List Char) : List Char :=
  match text.reverse with
  | [] => ['-']
  | [last] => if isBreak last then ['+'] else ['-']
  | last :: before :: _ => if !isBreak last then ['-'] else if isBreak before then ['+'] else []

/-- A literal block without the break after its last line. -/
def literal (column : Nat) (text : List Char) : List Char :=
  let indentation :=
    match text with
    | first :: _ => if first == ' ' || isBreak first then ['2'] else []
    | [] => []
  '|' :: indentation ++ chompingMark text ++ '\n' :: literalLines column true text

/-- A text as a scalar whose lines are indented to a column, with the line break after it. -/
def textScalar (column : Nat) (text : String) : List Char :=
  let characters := text.toList
  match styleOf text with
  | .plain => characters ++ ['\n']
  | .singleQuoted => singleQuoted column characters ++ ['\n']
  | .doubleQuoted => doubleQuoted characters ++ ['\n']
  | .literal | .folded =>
    literal column characters ++ if characters.getLast?.any isBreak then [] else ['\n']

/-- The items of a sequence of texts, each on a line of its own. -/
def textItems (column : Nat) : List String → List Char
  | [] => []
  | text :: rest =>
    indent column ++ '-' :: ' ' :: textScalar (column + 2) text ++ textItems column rest

mutual

/-- What follows the colon of a key in a column. -/
def entryText (column : Nat) : Entry → List Char
  | .plain written => ' ' :: written.toList ++ ['\n']
  | .text content => ' ' :: textScalar (column + 2) content
  | .texts [] => [' ', '[', ']', '\n']
  | .texts (first :: rest) => '\n' :: textItems column (first :: rest)
  | .nested [] => [' ', '\x7b', '\x7d', '\n']
  | .nested (first :: rest) => '\n' :: entriesText (column + 2) (first :: rest)

/-- Entries whose keys stand in a column and need no quotes. -/
def entriesText (column : Nat) : List (String × Entry) → List Char
  | [] => []
  | (key, entry) :: rest =>
    indent column ++ key.toList ++ ':' :: entryText column entry ++ entriesText column rest

end

/-- A document with entries. -/
def document (entries : List (String × Entry)) : String :=
  String.ofList (entriesText 0 entries)

/-- How doubles are written in YAML. -/
def layout : Number.Layout :=
  { Json.layout with
    exponentSign := ""
    infinite := ".inf"
    negativeInfinite := "-.inf"
    notANumber := ".nan" }

end PowerTest.Yaml
