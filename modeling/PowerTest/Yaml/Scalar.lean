import PowerTest.Yaml.Cursor

/-!
# Scalars

How the text of a scalar is found in each of the five styles. Line breaks inside plain, quoted and
folded scalars fold: one becomes a blank, and of several the first is left out.
-/

namespace PowerTest.Yaml

/-- How a scalar is written. -/
inductive Style
  | plain
  | singleQuoted
  | doubleQuoted
  | literal
  | folded
  deriving DecidableEq, Repr

/-- Blanks and breaks between two parts of a scalar. -/
structure Gap where
  /-- Blanks before the first break. -/
  blanks : List Char
  /-- Whether a break has been passed. -/
  broken : Bool
  firstBreak : List Char
  moreBreaks : List Char

namespace Gap

/-- Nothing between two parts. -/
def none : Gap := ⟨[], false, [], []⟩

/-- What a gap contributes to a scalar's text. -/
def folded (gap : Gap) : List Char :=
  if gap.broken then
    if gap.firstBreak.head? == some '\n' then
      if gap.moreBreaks.isEmpty then [' '] else gap.moreBreaks
    else gap.firstBreak ++ gap.moreBreaks
  else gap.blanks

/-- Read blanks and breaks. After a break, a tab left of `tabLimit` is refused. -/
def read? (tabLimit : Nat) : Nat → Gap → Cursor → Option (Gap × Cursor)
  | 0, gap, cursor => some (gap, cursor)
  | fuel + 1, gap, cursor =>
    if cursor.satisfies 0 isSpaceOrTab then
      if gap.broken && cursor.column < tabLimit && cursor.isAt '\t' then Option.none
      else
        let gap :=
          if gap.broken then gap
          else { gap with blanks := gap.blanks ++ cursor.rest.take 1 }
        read? tabLimit fuel gap (cursor.advance 1)
    else if cursor.atBreak then
      let (taken, cursor) := cursor.takeBreak
      let gap :=
        if gap.broken then { gap with moreBreaks := gap.moreBreaks ++ taken }
        else { gap with blanks := [], broken := true, firstBreak := taken }
      read? tabLimit fuel gap cursor
    else some (gap, cursor)

end Gap

/-- The code and the count of hexadecimal digits of an escape of one letter. -/
inductive Escape
  | character (code : Char)
  | code (digits : Nat)

/-- What a letter after a backslash stands for. -/
def escape? : Char → Option Escape
  | '0' => some (.character '\x00')
  | 'a' => some (.character '\x07')
  | 'b' => some (.character '\x08')
  | 't' => some (.character '\t')
  | '\t' => some (.character '\t')
  | 'n' => some (.character '\n')
  | 'v' => some (.character '\x0b')
  | 'f' => some (.character '\x0c')
  | 'r' => some (.character '\r')
  | 'e' => some (.character '\x1b')
  | ' ' => some (.character ' ')
  | '"' => some (.character '"')
  | '/' => some (.character '/')
  | '\\' => some (.character '\\')
  | 'N' => some (.character '\u0085')
  | '_' => some (.character '\u00A0')
  | 'L' => some (.character '\u2028')
  | 'P' => some (.character '\u2029')
  | 'x' => some (.code 2)
  | 'u' => some (.code 4)
  | 'U' => some (.code 8)
  | _ => none

/-- The character with a code that is one. -/
def ofCode? (code : Nat) : Option Char :=
  if code.isValidChar then some (Char.ofNat code) else none

/-- The character of an escape that is next, and the place after it. -/
def readEscape? (cursor : Cursor) : Option (Char × Cursor) :=
  match cursor.peek? 1 with
  | none => none
  | some letter =>
    match escape? letter with
    | none => none
    | some (.character code) => some (code, cursor.advance 2)
    | some (.code digits) =>
      let written := (cursor.rest.drop 2).take digits
      if written.length = digits then
        ((Text.ofDigits? 16 written).bind ofCode?).map fun code =>
          (code, cursor.advance (2 + digits))
      else none

/-- The quote around a quoted scalar. -/
def quoteMark (single : Bool) : Char := if single then '\'' else '"'

/-- Read the characters of a quoted scalar up to a separator, the quote that ends it, or an escaped
break. Gives the text so far in reverse and whether an escaped break was passed. -/
def readQuotedRun? (single : Bool) : Nat → List Char → Cursor → Option (List Char × Bool × Cursor)
  | 0, text, cursor => some (text, false, cursor)
  | fuel + 1, text, cursor =>
    match cursor.next? with
    | none => some (text, false, cursor)
    | some character =>
      if isSeparator character then some (text, false, cursor)
      else if single && character == '\'' && cursor.peek? 1 == some '\'' then
        readQuotedRun? single fuel ('\'' :: text) (cursor.advance 2)
      else if character == quoteMark single then some (text, false, cursor)
      else if !single && character == '\\' && cursor.satisfies 1 isBreak then
        some (text, true, (cursor.advance 1).skipBreak)
      else if !single && character == '\\' then
        match readEscape? cursor with
        | some (code, cursor) => readQuotedRun? single fuel (code :: text) cursor
        | none => none
      else readQuotedRun? single fuel (character :: text) (cursor.advance 1)

/-- Read a quoted scalar whose opening quote has been read. -/
def readQuoted? (single : Bool) : Nat → List Char → Cursor → Option (String × Cursor)
  | 0, _, _ => none
  | fuel + 1, text, cursor =>
    if cursor.atDocumentBound || cursor.atEnd then none
    else
      match readQuotedRun? single (cursor.rest.length + 1) text cursor with
      | none => none
      | some (text, escapedBreak, cursor) =>
        if cursor.isAt (quoteMark single) then
          some (String.ofList text.reverse, cursor.advance 1)
        else
          match Gap.read? 0 (cursor.rest.length + 1) ⟨[], escapedBreak, [], []⟩ cursor with
          | none => none
          | some (gap, cursor) =>
            readQuoted? single fuel (gap.folded.reverse ++ text) cursor

/-- Whether a character bounds a plain scalar between flow brackets. -/
def isFlowBound (character : Char) : Bool :=
  character == ',' || character == '[' || character == ']' || character == '{' || character == '}'

/-- Read the characters of a plain scalar up to a separator or an indicator that ends it. -/
def readPlainRun? (flow : Bool) : Nat → List Char → Cursor → Option (List Char × Cursor)
  | 0, text, cursor => some (text, cursor)
  | fuel + 1, text, cursor =>
    match cursor.next? with
    | none => some (text, cursor)
    | some character =>
      if isSeparator character then some (text, cursor)
      else if flow && character == ':' &&
          cursor.satisfies 1 (fun after => after == '?' || isFlowBound after) then none
      else if (character == ':' && cursor.separatedAt 1) || (flow && isFlowBound character) then
        some (text, cursor)
      else readPlainRun? flow fuel (character :: text) (cursor.advance 1)

/-- Read a plain scalar: its text, whether a break follows it, and the place after it. Outside flow
brackets its lines are indented at least to a column. -/
def readPlain? (flow : Bool) (column : Nat) :
    Nat → List Char → Gap → Cursor → Option (String × Bool × Cursor)
  | 0, _, _, _ => none
  | fuel + 1, text, gap, cursor =>
    let done := some (String.ofList text.reverse, gap.broken, cursor)
    if cursor.atDocumentBound || cursor.isAt '#' then done
    else
      match readPlainRun? flow (cursor.rest.length + 1) [] cursor with
      | none => none
      | some ([], _) => done
      | some (run, cursor) =>
        let text := run ++ (gap.folded.reverse ++ text)
        if cursor.satisfies 0 isSeparator then
          match Gap.read? column (cursor.rest.length + 1) .none cursor with
          | none => none
          | some (gap, cursor) =>
            if !flow && cursor.column < column then
              some (String.ofList text.reverse, gap.broken, cursor)
            else readPlain? flow column fuel text gap cursor
        else some (String.ofList text.reverse, false, cursor)

/-- What happens to the breaks at the end of a block scalar. -/
inductive Chomping
  | strip
  | clip
  | keep
  deriving DecidableEq, Repr

/-- The chomping of a mark. -/
def Chomping.ofMark? : Option Char → Option Chomping
  | some '+' => some keep
  | some '-' => some strip
  | _ => none

/-- Read the header of a block scalar: its chomping and its indentation, if that is given. -/
def readBlockHeader? (cursor : Cursor) : Option (Chomping × Option Nat × Cursor) :=
  let digit? (cursor : Cursor) : Option Nat := cursor.next?.bind (Text.digit? 10)
  match Chomping.ofMark? cursor.next? with
  | some chomping =>
    let cursor := cursor.advance 1
    match digit? cursor with
    | some 0 => none
    | some increment => some (chomping, some increment, cursor.advance 1)
    | none => some (chomping, none, cursor)
  | none =>
    match digit? cursor with
    | some 0 => none
    | some increment =>
      let cursor := cursor.advance 1
      match Chomping.ofMark? cursor.next? with
      | some chomping => some (chomping, some increment, cursor.advance 1)
      | none => some (.clip, some increment, cursor)
    | none => some (.clip, none, cursor)

/-- Read the rest of a line that may hold only blanks and a comment. -/
def readLineEnd? (cursor : Cursor) : Option Cursor :=
  let cursor := cursor.skipWhile isSpaceOrTab
  let cursor := if cursor.isAt '#' then cursor.skipWhile (!isBreak ·) else cursor
  if cursor.atEnd then some cursor
  else if cursor.atBreak then some cursor.skipBreak
  else none

/-- Read the indentation and the empty lines before a line of a block scalar: the breaks passed, and
the greatest column seen. An indentation of zero is not known yet. -/
def readBlockBreaks? (indentation : Nat) :
    Nat → List Char → Nat → Cursor → Option (List Char × Nat × Cursor)
  | 0, breaks, greatest, cursor => some (breaks, greatest, cursor)
  | fuel + 1, breaks, greatest, cursor =>
    let blanks := (cursor.rest.takeWhile (· == ' ')).length
    let allowed := if indentation = 0 then blanks else min blanks (indentation - cursor.column)
    let cursor := cursor.advance allowed
    let greatest := max greatest cursor.column
    if (indentation = 0 || cursor.column < indentation) && cursor.isAt '\t' then none
    else if cursor.atBreak then
      let (taken, cursor) := cursor.takeBreak
      readBlockBreaks? indentation fuel (breaks ++ taken) greatest cursor
    else some (breaks, greatest, cursor)

/-- The parts of a block scalar read so far. -/
structure BlockText where
  /-- The text in reverse. -/
  reversed : List Char
  /-- The break after the last line. -/
  lastBreak : List Char
  /-- The breaks of the empty lines after it. -/
  emptyLines : List Char
  /-- Whether the last line started with a blank. -/
  startedBlank : Bool

/-- A block scalar's text when another line follows that starts with a blank or not. -/
def BlockText.fold (text : BlockText) (literal startsBlank : Bool) : List Char :=
  if !literal && text.lastBreak.head? == some '\n' && !text.startedBlank && !startsBlank then
    if text.emptyLines.isEmpty then ' ' :: text.reversed
    else text.emptyLines.reverse ++ text.reversed
  else text.emptyLines.reverse ++ (text.lastBreak.reverse ++ text.reversed)

/-- Read the lines of a block scalar, which are indented to a column. -/
def readBlockLines? (literal : Bool) (indentation : Nat) :
    Nat → BlockText → Cursor → Option (BlockText × Cursor)
  | 0, text, cursor => some (text, cursor)
  | fuel + 1, text, cursor =>
    if cursor.column == indentation && !cursor.atEnd then
      let startsBlank := cursor.satisfies 0 isSpaceOrTab
      let folded := text.fold literal startsBlank
      let (line, cursor) := cursor.takeWhile (!isBreak ·)
      let (lastBreak, cursor) := cursor.takeBreak
      match readBlockBreaks? indentation (cursor.rest.length + 1) [] 0 cursor with
      | none => none
      | some (emptyLines, _, cursor) =>
        readBlockLines? literal indentation fuel
          ⟨line.reverse ++ folded, lastBreak, emptyLines, startsBlank⟩ cursor
    else some (text, cursor)

/-- Read a block scalar whose indicator has been read, inside an indentation. -/
def readBlock? (literal : Bool) (around : Int) (cursor : Cursor) : Option (String × Cursor) := do
  let (chomping, increment, cursor) ← readBlockHeader? cursor
  let cursor ← readLineEnd? cursor
  let given : Nat :=
    match increment with
    | some increment => (max around 0).toNat + increment
    | none => 0
  let (emptyLines, greatest, cursor) ← readBlockBreaks? given (cursor.rest.length + 1) [] 0 cursor
  let indentation := if given = 0 then max greatest (max (around + 1).toNat 1) else given
  let (text, cursor) ←
    readBlockLines? literal indentation (cursor.rest.length + 1) ⟨[], [], emptyLines, false⟩ cursor
  let reversed :=
    match chomping with
    | .strip => text.reversed
    | .clip => text.lastBreak.reverse ++ text.reversed
    | .keep => text.emptyLines.reverse ++ (text.lastBreak.reverse ++ text.reversed)
  some (String.ofList reversed.reverse, cursor)

end PowerTest.Yaml
