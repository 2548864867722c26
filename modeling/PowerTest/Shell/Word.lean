import PowerTest.Text.Digits

/-!
# Words of the command language

Generators and clients are often written in the system's command language. A script is read as
words, operators and redirections; a word is kept as its parts, because what a parameter or a
command contributes is known only when the word is used.
-/

namespace PowerTest.Shell

/-- A part of a word. What comes of an unquoted part is split at blanks. -/
inductive Part
  | literal (quoted : Bool) (text : List Char)
  | parameter (quoted : Bool) (name : String)
  /-- The value of an arithmetic expression. -/
  | arithmetic (quoted : Bool) (expression : List Char)
  /-- What a script writes. -/
  | output (quoted : Bool) (script : List Char)
  deriving DecidableEq, Repr

/-- A word as its parts. -/
abbrev Word := List Part

/-- Where a redirection leads. -/
inductive Direction
  | read
  | write
  | append
  /-- To where another descriptor leads. -/
  | duplicate
  deriving DecidableEq, Repr

/-- One token of a script. -/
inductive Token
  | word (parts : Word)
  | operator (mark : String)
  | redirection (descriptor : Nat) (direction : Direction)
  deriving DecidableEq, Repr

/-- Whether a character can start a name. -/
def startsName (character : Char) : Bool := character.isAlpha || character == '_'

/-- Whether a character can stand in a name. -/
def inName (character : Char) : Bool := startsName character || Text.isDigit character

/-- Whether a character ends a word. -/
def endsWord (character : Char) : Bool := " \t\n;&|<>()".toList.contains character

/-- Characters up to the closing parenthesis that fits, and what follows it. Parentheses between
quotes do not count. -/
def untilClosed? (depth : Nat) (quote : Option Char) (before : List Char) :
    List Char → Option (List Char × List Char)
  | [] => none
  | '\\' :: character :: rest => untilClosed? depth quote (character :: '\\' :: before) rest
  | character :: rest =>
    match quote with
    | some mark =>
      untilClosed? depth (if character == mark then none else quote) (character :: before) rest
    | none =>
      if character == '\'' || character == '"' then
        untilClosed? depth (some character) (character :: before) rest
      else if character == '(' then untilClosed? (depth + 1) none (character :: before) rest
      else if character == ')' then
        match depth with
        | 0 => some (before.reverse, rest)
        | depth + 1 => untilClosed? depth none (character :: before) rest
      else untilClosed? depth none (character :: before) rest

/-- Characters up to a mark, and what follows it. -/
def untilMark? (mark : Char) (text : List Char) : Option (List Char × List Char) :=
  match text.dropWhile (· != mark) with
  | [] => none
  | _ :: rest => some (text.takeWhile (· != mark), rest)

/-- What stands between the parentheses after a dollar sign: an expression if it has parentheses of
its own around it, and a script otherwise. -/
def enclosedPart (quoted : Bool) (content : List Char) : Part :=
  match content with
  | '(' :: rest =>
    if rest.getLast? == some ')' then .arithmetic quoted rest.dropLast else .output quoted content
  | _ => .output quoted content

/-- The part that starts with a dollar sign that has been read. -/
def readDollar? (quoted : Bool) : List Char → Option (Part × List Char)
  | [] => some (.literal quoted ['$'], [])
  | '(' :: rest =>
    (untilClosed? 0 none [] rest).map fun (content, rest) => (enclosedPart quoted content, rest)
  | '\x7b' :: rest =>
    (untilMark? '\x7d' rest).map fun (name, rest) => (.parameter quoted (String.ofList name), rest)
  | first :: rest =>
    if startsName first then
      let name := first :: rest.takeWhile inName
      some (.parameter quoted (String.ofList name), rest.dropWhile inName)
    else if Text.isDigit first || "@*#?$".toList.contains first then
      some (.parameter quoted (String.ofList [first]), rest)
    else some (.literal quoted ['$'], first :: rest)

/-- The parts up to the double quote that ends them, and what follows it. -/
def readDouble? : Nat → Word → List Char → Option (Word × List Char)
  | 0, _, _ => none
  | _ + 1, _, [] => none
  | fuel + 1, parts, character :: rest =>
    match character, rest with
    | '"', _ => some (parts.reverse, rest)
    | '\\', next :: rest =>
      if "$`\"\\".toList.contains next then
        readDouble? fuel (.literal true [next] :: parts) rest
      else if next == '\n' then readDouble? fuel parts rest
      else readDouble? fuel (.literal true ['\\', next] :: parts) rest
    | '$', _ =>
      match readDollar? true rest with
      | some (part, rest) => readDouble? fuel (part :: parts) rest
      | none => none
    | '\x60', _ =>
      match untilMark? '\x60' rest with
      | some (script, rest) => readDouble? fuel (.output true script :: parts) rest
      | none => none
    | _, _ => readDouble? fuel (.literal true [character] :: parts) rest

/-- The parts of a word up to what ends it, and what follows. -/
def readWord? : Nat → Word → List Char → Option (Word × List Char)
  | 0, _, _ => none
  | _ + 1, parts, [] => some (parts.reverse, [])
  | fuel + 1, parts, character :: rest =>
    if endsWord character then some (parts.reverse, character :: rest)
    else
      match character, rest with
      | '\'', _ =>
        match untilMark? '\'' rest with
        | some (text, rest) => readWord? fuel (.literal true text :: parts) rest
        | none => none
      | '"', _ =>
        match readDouble? (rest.length + 1) [] rest with
        | some (inner, rest) =>
          readWord? fuel (inner.reverse ++ .literal true [] :: parts) rest
        | none => none
      | '\\', '\n' :: rest => readWord? fuel parts rest
      | '\\', next :: rest => readWord? fuel (.literal true [next] :: parts) rest
      | '$', _ =>
        match readDollar? false rest with
        | some (part, rest) => readWord? fuel (part :: parts) rest
        | none => none
      | '\x60', _ =>
        match untilMark? '\x60' rest with
        | some (script, rest) => readWord? fuel (.output false script :: parts) rest
        | none => none
      | _, _ =>
        let plain (other : Char) : Bool := !endsWord other && !"'\"\\$`".toList.contains other
        readWord? fuel (.literal false (character :: rest.takeWhile plain) :: parts)
          (rest.dropWhile plain)

/-- The operators, longer ones before those they start with. -/
def operators : List String := [";;", "&&", "||", ";", "&", "|", "(", ")", "\n"]

/-- An operator at the start of a text. -/
def operator? (text : List Char) : Option String :=
  operators.find? fun mark => mark.toList.isPrefixOf text

/-- The redirections without their descriptors, longer ones before those they start with. -/
def directions : List (String × Nat × Direction) :=
  [(">>", 1, .append), (">&", 1, .duplicate), (">", 1, .write), ("<", 0, .read)]

/-- A redirection at the start of a text, with its descriptor if one is given. -/
def redirection? (text : List Char) : Option (Token × List Char) :=
  let digits := text.takeWhile Text.isDigit
  let rest := text.drop digits.length
  (directions.find? fun (mark, _) => mark.toList.isPrefixOf rest).map
    fun (mark, standard, direction) =>
      let descriptor := if digits.isEmpty then standard else Text.decimalValue digits
      (.redirection descriptor direction, rest.drop mark.length)

/-- The tokens of a script. -/
def readTokens? : Nat → List Token → List Char → Option (List Token)
  | 0, _, _ => none
  | _ + 1, tokens, [] => some tokens.reverse
  | fuel + 1, tokens, character :: rest =>
    let text := character :: rest
    if character == ' ' || character == '\t' then readTokens? fuel tokens rest
    else if character == '\\' && rest.head? == some '\n' then readTokens? fuel tokens (rest.drop 1)
    else if character == '#' then readTokens? fuel tokens (rest.dropWhile (· != '\n'))
    else
      match operator? text, redirection? text with
      | some mark, _ => readTokens? fuel (.operator mark :: tokens) (text.drop mark.length)
      | none, some (token, rest) => readTokens? fuel (token :: tokens) rest
      | none, none =>
        match readWord? (text.length + 1) [] text with
        | some (word, rest) => readTokens? fuel (.word word :: tokens) rest
        | none => none

/-- The tokens of a script, if its quotes and parentheses are closed. Every step takes a
character. -/
def tokens? (script : List Char) : Option (List Token) :=
  readTokens? (script.length + 1) [] script

end PowerTest.Shell
