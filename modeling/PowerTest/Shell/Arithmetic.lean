import PowerTest.Shell.Word

/-!
# Arithmetic of the command language

Expressions over whole numbers, with the names of variables standing for the numbers that their
values spell. A comparison gives one or zero.
-/

namespace PowerTest.Shell

/-- One token of an expression. -/
inductive Symbol
  | number (value : Int)
  | name (text : String)
  | mark (text : String)
  deriving DecidableEq, Repr

/-- The marks of expressions, longer ones before those they start with. -/
def symbolMarks : List String :=
  ["||", "&&", "==", "!=", "<=", ">=", "<", ">", "+", "-", "*", "/", "%", "!", "(", ")"]

/-- The tokens of an expression. -/
def symbols? : Nat → List Char → Option (List Symbol)
  | 0, _ => none
  | _ + 1, [] => some []
  | fuel + 1, character :: rest =>
    let text := character :: rest
    if " \t\n".toList.contains character then symbols? fuel rest
    else if Text.isDigit character then
      (symbols? fuel (rest.dropWhile Text.isDigit)).map
        (.number (Text.decimalValue (text.takeWhile Text.isDigit)) :: ·)
    else if startsName character then
      (symbols? fuel (rest.dropWhile inName)).map
        (.name (String.ofList (text.takeWhile inName)) :: ·)
    else
      match symbolMarks.find? fun mark => mark.toList.isPrefixOf text with
      | some mark => (symbols? fuel (text.drop mark.length)).map (.mark mark :: ·)
      | none => none

/-- The marks between two operands, by how tightly they bind, the loosest first. -/
def binaryLevels : List (List String) :=
  [["||"], ["&&"], ["==", "!="], ["<=", ">=", "<", ">"], ["+", "-"], ["*", "/", "%"]]

/-- One for what holds, and zero otherwise. -/
def truth (holds : Bool) : Int := if holds then 1 else 0

/-- The value of two operands with a mark between them. Nothing is divided by zero. -/
def combine? (mark : String) (left right : Int) : Option Int :=
  match mark with
  | "||" => some (truth (left != 0 || right != 0))
  | "&&" => some (truth (left != 0 && right != 0))
  | "==" => some (truth (left == right))
  | "!=" => some (truth (left != right))
  | "<=" => some (truth (left ≤ right))
  | ">=" => some (truth (right ≤ left))
  | "<" => some (truth (left < right))
  | ">" => some (truth (right < left))
  | "+" => some (left + right)
  | "-" => some (left - right)
  | "*" => some (left * right)
  | "/" => if right = 0 then none else some (left.tdiv right)
  | "%" => if right = 0 then none else some (left.tmod right)
  | _ => none

mutual

/-- The value of the operands of some levels at the start of an expression, and what follows. -/
def evaluate? (value? : String → Option Int) : Nat → List (List String) → List Symbol →
    Option (Int × List Symbol)
  | 0, _, _ => none
  | fuel + 1, [], symbols => operand? value? fuel symbols
  | fuel + 1, marks :: tighter, symbols =>
    match evaluate? value? fuel tighter symbols with
    | some (left, rest) => continue? value? fuel marks tighter left rest
    | none => none

/-- The value of further operands of a level after one whose value is known. -/
def continue? (value? : String → Option Int) : Nat → List String → List (List String) → Int →
    List Symbol → Option (Int × List Symbol)
  | 0, _, _, _, _ => none
  | fuel + 1, marks, tighter, left, .mark mark :: rest =>
    if marks.contains mark then
      match evaluate? value? fuel tighter rest with
      | some (right, rest) =>
        match combine? mark left right with
        | some value => continue? value? fuel marks tighter value rest
        | none => none
      | none => none
    else some (left, .mark mark :: rest)
  | _ + 1, _, _, left, symbols => some (left, symbols)

/-- The value of an operand. -/
def operand? (value? : String → Option Int) : Nat → List Symbol → Option (Int × List Symbol)
  | 0, _ => none
  | _ + 1, .number value :: rest => some (value, rest)
  | _ + 1, .name text :: rest => (value? text).map fun value => (value, rest)
  | fuel + 1, .mark mark :: rest =>
    if mark == "(" then
      match evaluate? value? fuel binaryLevels rest with
      | some (value, .mark ")" :: rest) => some (value, rest)
      | _ => none
    else
      match mark, operand? value? fuel rest with
      | "-", some (value, rest) => some (-value, rest)
      | "+", some (value, rest) => some (value, rest)
      | "!", some (value, rest) => some (truth (value == 0), rest)
      | _, _ => none
  | _ + 1, [] => none

end

/-- The number that a text spells; an empty text spells zero. -/
def ofNumeral? (text : List Char) : Option Int :=
  match text with
  | [] => some 0
  | '-' :: digits => (Text.ofDigits? 10 digits).map fun value => -(value : Int)
  | digits => (Text.ofDigits? 10 digits).map Int.ofNat

/-- The value of an expression; an empty one is zero. -/
def arithmetic? (value? : String → Option Int) (expression : List Char) : Option Int :=
  match symbols? (expression.length + 1) expression with
  | none => none
  | some [] => some 0
  | some symbols =>
    match evaluate? value? (8 * symbols.length + 8) binaryLevels symbols with
    | some (value, []) => some value
    | _ => none

/-- A number as the text of a value. -/
def numeralText (value : Int) : String :=
  if value < 0 then "-" ++ Text.decimal value.natAbs else Text.decimal value.natAbs

example : arithmetic? (fun _ => some 4) "i+1".toList = some 5 := by decide +kernel
example : arithmetic? (fun _ => none) "2 * (3 - 5) % 3".toList = some (-1) := by decide +kernel

end PowerTest.Shell
