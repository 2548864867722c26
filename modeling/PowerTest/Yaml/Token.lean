import PowerTest.Yaml.Scalar

/-!
# Tokens

A text as a sequence of tokens: scalars, indicators, and the bounds of collections that only
indentation shows. A mapping's key may be known as a key only when the colon after it is found;
the tokens that announce it are then put in front of it.
-/

namespace PowerTest.Yaml

/-- One token. -/
inductive Token
  | version (major minor : Nat)
  | tagHandle (handle start : String)
  | documentStart
  | documentEnd
  | blockSequenceStart
  | blockMappingStart
  | blockEnd
  | flowSequenceStart
  | flowSequenceEnd
  | flowMappingStart
  | flowMappingEnd
  | blockEntry
  | flowEntry
  | key
  | value
  | reference (name : String)
  | anchor (name : String)
  | tag (handle suffix : String)
  | scalar (style : Style) (text : String)
  deriving DecidableEq, Repr

/-- A token that can turn out to be a key. -/
structure PendingKey where
  /-- Whether the text is wrong if it is no key. -/
  required : Bool
  /-- The count of tokens before it. -/
  position : Nat
  line : Nat
  column : Nat
  index : Nat

/-- What is known when a text has been read up to some place. -/
structure Scan where
  cursor : Cursor
  /-- The column of the innermost block collection, or minus one. -/
  indentation : Int
  /-- The columns of the block collections around it. -/
  outer : List Int
  /-- Whether a key can start here. -/
  keyAllowed : Bool
  /-- The token that can turn out to be a key, for each level of flow brackets, innermost first. -/
  pending : List (Option PendingKey)
  /-- The tokens so far, the last one first. -/
  reversed : List Token

namespace Scan

/-- Nothing has been read. -/
def start (text : List Char) : Scan :=
  ⟨Cursor.start text, -1, [], true, [none], []⟩

/-- Whether the place is between flow brackets. -/
def inFlow (scan : Scan) : Bool := 1 < scan.pending.length

/-- The longest a key on one line can be, in characters. -/
def longestKey : Nat := 1024

/-- Whether a token is too far back to be a key of a colon here. -/
def isStale (cursor : Cursor) (key : PendingKey) : Bool :=
  key.line < cursor.line || key.index + longestKey < cursor.index

/-- Forget tokens that can no longer be keys; a required one is an error. -/
def dropStale? (cursor : Cursor) :
    List (Option PendingKey) → Option (List (Option PendingKey))
  | [] => some []
  | none :: rest => (dropStale? cursor rest).map (none :: ·)
  | some key :: rest =>
    if isStale cursor key then
      if key.required then Option.none else (dropStale? cursor rest).map (none :: ·)
    else (dropStale? cursor rest).map (some key :: ·)

/-- Forget the token of this level that could have been a key; a required one is an error. -/
def dropPending? (scan : Scan) : Option Scan :=
  match scan.pending with
  | some key :: rest =>
    if key.required then none else some { scan with pending := Option.none :: rest }
  | _ => some scan

/-- Note that the token that starts here can turn out to be a key. -/
def savePending? (scan : Scan) : Option Scan :=
  if scan.keyAllowed then do
    let scan ← scan.dropPending?
    let key : PendingKey :=
      { required := !scan.inFlow && scan.indentation == (scan.cursor.column : Int)
        position := scan.reversed.length
        line := scan.cursor.line
        column := scan.cursor.column
        index := scan.cursor.index }
    some { scan with pending := some key :: scan.pending.drop 1 }
  else some scan

/-- A token added at the end. -/
def push (scan : Scan) (token : Token) : Scan :=
  { scan with reversed := token :: scan.reversed }

/-- A token added behind the given count of tokens. -/
def insertAt (scan : Scan) (position : Nat) (token : Token) : Scan :=
  let later := scan.reversed.length - position
  { scan with reversed := scan.reversed.take later ++ token :: scan.reversed.drop later }

/-- Open a block collection at a column right of the innermost one; its first token goes behind
the given count of tokens. -/
def openBlock (scan : Scan) (column : Nat) (position : Nat) (token : Token) : Scan :=
  if !scan.inFlow && scan.indentation < (column : Int) then
    { scan.insertAt position token with
      indentation := column
      outer := scan.indentation :: scan.outer }
  else scan

/-- The block collections that end left of a column: how many, and what is left. -/
def closed (column : Int) : Int → List Int → Nat × Int × List Int
  | indentation, [] => (0, indentation, [])
  | indentation, next :: rest =>
    if column < indentation then
      let (count, left, outer) := closed column next rest
      (count + 1, left, outer)
    else (0, indentation, next :: rest)

/-- Close the block collections right of a column. -/
def closeBlocks (scan : Scan) (column : Int) : Scan :=
  if scan.inFlow then scan
  else
    let (count, indentation, outer) := closed column scan.indentation scan.outer
    { scan with
      indentation, outer, reversed := List.replicate count Token.blockEnd ++ scan.reversed }

/-- Move past blanks, comments and breaks to the next token. -/
def skipToToken (flow : Bool) : Nat → Bool → Cursor → Bool × Cursor
  | 0, keyAllowed, cursor => (keyAllowed, cursor)
  | fuel + 1, keyAllowed, cursor =>
    let cursor :=
      if cursor.index == 0 && cursor.isAt byteOrderMark then cursor.advance 1 else cursor
    let cursor := cursor.skipWhile fun character =>
      character == ' ' || ((flow || !keyAllowed) && character == '\t')
    let cursor := if cursor.isAt '#' then cursor.skipWhile (!isBreak ·) else cursor
    if cursor.atBreak then skipToToken flow fuel (keyAllowed || !flow) cursor.skipBreak
    else (keyAllowed, cursor)

/-- Add a token of some characters. -/
def indicator (scan : Scan) (width : Nat) (token : Token) : Scan :=
  { scan.push token with cursor := scan.cursor.advance width }

/-- The end of the text. -/
def finish? (scan : Scan) : Option Scan := do
  let scan ← (scan.closeBlocks (-1)).dropPending?
  some { scan with keyAllowed := false }

/-- A number of a version, of at most nine digits. -/
def readVersionNumber? (cursor : Cursor) : Option (Nat × Cursor) :=
  let (digits, cursor) := cursor.takeWhile Text.isDigit
  if digits.isEmpty || 9 < digits.length then none else some (Text.decimalValue digits, cursor)

/-- The handle of a tag: a mark, and a name with another mark behind it. A name without one belongs
to what follows, unless a directive asks for a handle. -/
def readHandle? (directive : Bool) (cursor : Cursor) : Option (List Char × Cursor) :=
  if cursor.isAt '!' then
    let (name, cursor) := (cursor.advance 1).takeWhile isNameCharacter
    if cursor.isAt '!' then some ('!' :: name ++ ['!'], cursor.advance 1)
    else if directive && !name.isEmpty then none
    else some ('!' :: name, cursor)
  else none

/-- The count of bytes of a character that starts with a byte. -/
def byteCount? (first : Nat) : Option Nat :=
  if first < 0x80 then some 1
  else if first / 0x20 = 6 then some 2
  else if first / 0x10 = 14 then some 3
  else if first / 0x08 = 30 then some 4
  else none

/-- The byte of a percent sign and two hexadecimal digits. -/
def readEscapedByte? (cursor : Cursor) : Option (Nat × Cursor) :=
  if cursor.isAt '%' then
    match cursor.peek? 1, cursor.peek? 2 with
    | some high, some low => (Text.ofDigits? 16 [high, low]).map fun byte => (byte, cursor.advance 3)
    | _, _ => none
  else none

/-- Escaped bytes that continue a character. -/
def readContinuation? : Nat → Nat → Cursor → Option (Nat × Cursor)
  | 0, known, cursor => some (known, cursor)
  | count + 1, known, cursor =>
    match readEscapedByte? cursor with
    | some (byte, cursor) =>
      if byte / 0x40 = 2 then readContinuation? count (known * 0x40 + byte % 0x40) cursor else none
    | none => none

/-- The character of escaped bytes. -/
def readEscapedCharacter? (cursor : Cursor) : Option (Char × Cursor) := do
  let (first, cursor) ← readEscapedByte? cursor
  let count ← byteCount? first
  let start := if count = 1 then first else first % 2 ^ (7 - count)
  let (code, cursor) ← readContinuation? (count - 1) start cursor
  let character ← ofCode? code
  some (character, cursor)

/-- The characters of a tag. -/
def readTagText? (verbatim : Bool) : Nat → List Char → Cursor → Option (List Char × Cursor)
  | 0, text, cursor => some (text.reverse, cursor)
  | fuel + 1, text, cursor =>
    match cursor.next? with
    | none => some (text.reverse, cursor)
    | some character =>
      if !isTagCharacter verbatim character then some (text.reverse, cursor)
      else if character == '%' then
        match readEscapedCharacter? cursor with
        | some (escaped, cursor) => readTagText? verbatim fuel (escaped :: text) cursor
        | none => none
      else readTagText? verbatim fuel (character :: text) (cursor.advance 1)

/-- A tag whose mark is next. A mark alone is a tag without a handle. -/
def readTag? (flow : Bool) (cursor : Cursor) : Option (Token × Cursor) := do
  let fuel := cursor.rest.length + 1
  let (handle, suffix, cursor) ←
    if cursor.peek? 1 == some '<' then do
      let (text, cursor) ← readTagText? true fuel [] (cursor.advance 2)
      if text.isEmpty || !cursor.isAt '>' then none
      else some ([], text, cursor.advance 1)
    else do
      let (handle, cursor) ← readHandle? false cursor
      let (text, cursor) ← readTagText? false fuel [] cursor
      if 1 < handle.length && handle.getLast? == some '!' then
        if text.isEmpty then none else some (handle, text, cursor)
      else
        let suffix := handle.drop 1 ++ text
        if suffix.isEmpty then some ([], ['!'], cursor) else some (['!'], suffix, cursor)
  if cursor.separatedAt 0 || (flow && cursor.isAt ',') then
    some (.tag (String.ofList handle) (String.ofList suffix), cursor)
  else none

/-- The name of an anchor or alias whose mark is next. -/
def readAnchor? (cursor : Cursor) : Option (String × Cursor) :=
  let (name, cursor) := (cursor.advance 1).takeWhile isNameCharacter
  let bounded :=
    cursor.separatedAt 0 || cursor.satisfies 0 fun character => "?:,]\x7d%@`".toList.contains character
  if name.isEmpty || !bounded then none else some (String.ofList name, cursor)

/-- A directive whose mark is next. -/
def readDirective? (cursor : Cursor) : Option (Token × Cursor) := do
  let (name, cursor) := (cursor.advance 1).takeWhile isNameCharacter
  if name.isEmpty || !cursor.separatedAt 0 then none
  else
    let (token, cursor) ←
      if name == ['Y', 'A', 'M', 'L'] then do
        let (major, cursor) ← readVersionNumber? (cursor.skipWhile isSpaceOrTab)
        if cursor.isAt '.' then
          let (minor, cursor) ← readVersionNumber? (cursor.advance 1)
          some (Token.version major minor, cursor)
        else none
      else if name == ['T', 'A', 'G'] then do
        let (handle, cursor) ← readHandle? true (cursor.skipWhile isSpaceOrTab)
        if cursor.satisfies 0 isSpaceOrTab then
          let cursor := cursor.skipWhile isSpaceOrTab
          let (start, cursor) ← readTagText? true (cursor.rest.length + 1) [] cursor
          if start.isEmpty || !cursor.separatedAt 0 then none
          else some (Token.tagHandle (String.ofList handle) (String.ofList start), cursor)
        else none
      else none
    let cursor ← readLineEnd? cursor
    some (token, cursor)

/-- A scalar that can turn out to be a key. -/
def keyScalar? (scan : Scan) (read : Cursor → Option (Style × String × Bool × Cursor)) :
    Option Scan := do
  let scan ← scan.savePending?
  let (style, text, keyAllowed, cursor) ← read scan.cursor
  some { scan.push (.scalar style text) with keyAllowed, cursor }

/-- A token other than a scalar that can stand before a key. -/
def keyMark? (scan : Scan) (read : Cursor → Option (Token × Cursor)) : Option Scan := do
  let scan ← scan.savePending?
  let (token, cursor) ← read scan.cursor
  some { scan.push token with keyAllowed := false, cursor }

/-- A block scalar. -/
def blockScalar? (scan : Scan) (literal : Bool) : Option Scan := do
  let scan ← scan.dropPending?
  let (text, cursor) ← readBlock? literal scan.indentation (scan.cursor.advance 1)
  let style := if literal then Style.literal else Style.folded
  some { scan.push (.scalar style text) with keyAllowed := true, cursor }

/-- A bracket that opens a flow collection. -/
def openFlow? (scan : Scan) (token : Token) : Option Scan := do
  let scan ← scan.savePending?
  some { scan.indicator 1 token with keyAllowed := true, pending := none :: scan.pending }

/-- A bracket that closes a flow collection. -/
def closeFlow? (scan : Scan) (token : Token) : Option Scan := do
  let scan ← scan.dropPending?
  let pending := if scan.inFlow then scan.pending.drop 1 else scan.pending
  some { scan.indicator 1 token with keyAllowed := false, pending }

/-- The dash before an item of a block sequence. -/
def blockEntry? (scan : Scan) : Option Scan := do
  if !scan.inFlow && !scan.keyAllowed then none
  else
    let opened := scan.openBlock scan.cursor.column scan.reversed.length .blockSequenceStart
    let scan ← opened.dropPending?
    some { scan.indicator 1 .blockEntry with keyAllowed := true }

/-- The question mark before a key. -/
def explicitKey? (scan : Scan) : Option Scan := do
  if !scan.inFlow && !scan.keyAllowed then none
  else
    let opened := scan.openBlock scan.cursor.column scan.reversed.length .blockMappingStart
    let scan ← opened.dropPending?
    some { scan.indicator 1 .key with keyAllowed := !scan.inFlow }

/-- The colon before a value; it makes a key of the token that could be one. -/
def valueMark? (scan : Scan) : Option Scan :=
  match scan.pending with
  | some key :: rest =>
    let announced := (scan.insertAt key.position .key).openBlock key.column key.position
      .blockMappingStart
    some { announced.indicator 1 .value with keyAllowed := false, pending := none :: rest }
  | _ =>
    if !scan.inFlow && !scan.keyAllowed then none
    else
      let opened := scan.openBlock scan.cursor.column scan.reversed.length .blockMappingStart
      some { opened.indicator 1 .value with keyAllowed := !scan.inFlow }

/-- A mark that bounds a document. -/
def documentBound? (scan : Scan) (token : Token) : Option Scan := do
  let scan ← (scan.closeBlocks (-1)).dropPending?
  some { scan.indicator 3 token with keyAllowed := false }

/-- A directive. -/
def directive? (scan : Scan) : Option Scan := do
  let scan ← (scan.closeBlocks (-1)).dropPending?
  let (token, cursor) ← readDirective? scan.cursor
  some { scan.push token with keyAllowed := false, cursor }

/-- Whether a plain scalar can start with the next character. -/
def startsPlain (scan : Scan) (character : Char) : Bool :=
  let cursor := scan.cursor
  if isSeparator character then false
  else if character == '-' then !cursor.satisfies 1 isSpaceOrTab
  else if character == '?' || character == ':' then !scan.inFlow && !cursor.separatedAt 1
  else !",[]\x7b\x7d#&*!|>'\"%@`".toList.contains character

/-- A plain scalar. -/
def plainScalar? (scan : Scan) : Option Scan :=
  scan.keyScalar? fun cursor =>
    (readPlain? scan.inFlow (scan.indentation + 1).toNat (cursor.rest.length + 1) [] .none
      cursor).map fun (text, broken, cursor) => (.plain, text, broken, cursor)

/-- A quoted scalar. -/
def quotedScalar? (scan : Scan) (single : Bool) : Option Scan :=
  scan.keyScalar? fun cursor =>
    (readQuoted? single (cursor.rest.length + 1) [] (cursor.advance 1)).map fun (text, cursor) =>
      (if single then .singleQuoted else .doubleQuoted, text, false, cursor)

/-- The token that starts with the next character. -/
def token? (scan : Scan) (character : Char) : Option Scan :=
  let cursor := scan.cursor
  if cursor.column == 0 && character == '%' then scan.directive?
  else if cursor.atDocumentMark '-' then scan.documentBound? .documentStart
  else if cursor.atDocumentMark '.' then scan.documentBound? .documentEnd
  else if character == '[' then scan.openFlow? .flowSequenceStart
  else if character == '{' then scan.openFlow? .flowMappingStart
  else if character == ']' then scan.closeFlow? .flowSequenceEnd
  else if character == '}' then scan.closeFlow? .flowMappingEnd
  else if character == ',' then do
    let scan ← scan.dropPending?
    some { scan.indicator 1 .flowEntry with keyAllowed := true }
  else if character == '-' && cursor.separatedAt 1 then scan.blockEntry?
  else if character == '?' && (scan.inFlow || cursor.separatedAt 1) then scan.explicitKey?
  else if character == ':' && (scan.inFlow || cursor.separatedAt 1) then scan.valueMark?
  else if character == '*' then
    scan.keyMark? fun cursor => (readAnchor? cursor).map fun (name, cursor) => (.reference name, cursor)
  else if character == '&' then
    scan.keyMark? fun cursor => (readAnchor? cursor).map fun (name, cursor) => (.anchor name, cursor)
  else if character == '!' then scan.keyMark? (readTag? scan.inFlow)
  else if character == '|' && !scan.inFlow then scan.blockScalar? true
  else if character == '>' && !scan.inFlow then scan.blockScalar? false
  else if character == '\'' then scan.quotedScalar? true
  else if character == '"' then scan.quotedScalar? false
  else if scan.startsPlain character then scan.plainScalar?
  else none

/-- Read tokens up to the end of the text. Every step but the last takes a character. -/
def run? : Nat → Scan → Option Scan
  | 0, _ => none
  | fuel + 1, scan => do
    let (keyAllowed, cursor) :=
      skipToToken scan.inFlow (scan.cursor.rest.length + 1) scan.keyAllowed scan.cursor
    let pending ← dropStale? cursor scan.pending
    let scan := { scan with keyAllowed, cursor, pending }.closeBlocks cursor.column
    match cursor.next? with
    | none => scan.finish?
    | some character => (scan.token? character).bind (run? fuel)

end Scan

/-- The tokens of a text. A text that starts with the byte order mark loses it. -/
def tokens? (text : String) : Option (List Token) :=
  let characters := text.toList
  let content :=
    match characters with
    | first :: rest => if first == byteOrderMark then rest else characters
    | [] => []
  if content.all isAllowed then
    (Scan.run? (content.length + 1) (Scan.start content)).map fun scan => scan.reversed.reverse
  else none

end PowerTest.Yaml
