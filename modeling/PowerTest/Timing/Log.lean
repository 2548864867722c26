import PowerTest.Number.Numeral
import PowerTest.Text.Blank
import PowerTest.Timing.Sample

/-!
# Timing logs

A log is a header line, whatever it holds, followed by a line with a label, a colon and elapsed
milliseconds for each timed operation. Blank lines do not count. A log that cannot be read, or that
times nothing, is malformed, and so is one with any other line after the header.
-/

namespace PowerTest.Timing

/-- Why a line is no sample. -/
inductive LineFault
  | noColon (line : String)
  | noNumeral (value : String) (fault : Number.NumeralFault)
  | notFinite (value : String)
  deriving DecidableEq, Repr

/-- The wording of a line fault. -/
def LineFault.message : LineFault → String
  | noColon line => "expected '<label>:<elapsed>', got '" ++ line ++ "'"
  | noNumeral value fault => "invalid elapsed time '" ++ value ++ "': " ++ fault.message
  | notFinite value => "elapsed time '" ++ value ++ "' is not finite"

/-- The sample on a line. -/
def sampleOfLine (line : String) : Except LineFault Sample :=
  match Text.once (· == ':') line.toList with
  | none => .error (.noColon line)
  | some (before, after) =>
    let value := Text.trim after
    match Number.readFloat value with
    | .error fault => .error (.noNumeral (String.ofList value) fault)
    | .ok elapsed =>
      if elapsed.isFinite then .ok ⟨String.ofList (Text.trim before), elapsed⟩
      else .error (.notFinite (String.ofList value))

/-- Whether a line holds only blanks. -/
def isBlankLine (line : String) : Bool :=
  line.toList.all Text.isBlank

/-- The samples on lines that are numbered from `number`, or the first line that holds none. -/
def samplesOfLines (number : Nat) : List String → Except (Nat × LineFault) (List Sample)
  | [] => .ok []
  | line :: rest =>
    if isBlankLine line then samplesOfLines (number + 1) rest
    else
      match sampleOfLine line with
      | .error fault => .error (number, fault)
      | .ok sample => (samplesOfLines (number + 1) rest).map (sample :: ·)

/-- Why a text is no log, with the number of the line at fault. -/
inductive LogFault
  | empty
  | line (number : Nat) (fault : LineFault)
  | noSamples
  deriving DecidableEq, Repr

/-- The number of the line at fault. -/
def LogFault.lineNumber : LogFault → Nat
  | empty => 0
  | line number _ => number
  | noSamples => 1

/-- The wording of a log fault. -/
def LogFault.message : LogFault → String
  | empty => "log is empty"
  | line _ fault => fault.message
  | noSamples => "no timing samples after the header"

/-- The samples of a log's text. -/
def samplesOfText (text : String) : Except LogFault (List Sample) :=
  match Text.textLines text with
  | [] => .error .empty
  | _ :: lines =>
    match samplesOfLines 2 lines with
    | .error (number, fault) => .error (.line number fault)
    | .ok [] => .error .noSamples
    | .ok samples => .ok samples

/-- The samples of the log that a path leads to. -/
def readLog (store : Store) (path : String) : Except Failure (List Sample) :=
  match store.readText path with
  | .error fault => .error (.malformedLog path 0 fault.message)
  | .ok text =>
    match samplesOfText text with
    | .error fault => .error (.malformedLog path fault.lineNumber fault.message)
    | .ok samples => .ok samples

end PowerTest.Timing
