import Mathlib.Data.List.Forall2
import PowerTest.Proofs.Text.Lines
import PowerTest.Proofs.Text.Parts
import PowerTest.Timing.Report

/-!
# The verdict on a timing log

`Verdict` says what the score of a log is, whatever bytes stand where the path leads: the report on
its samples, or the first fault that keeps it from having one. `ofLog_eq_iff_verdict` says that
scoring gives exactly that. Between the two stand `sampleOfLine`, for one line, and
`samplesOfLines`, for the lines behind the header.
-/

namespace PowerTest.Timing

open Text (IsLines IsTrimmed)

/-- The label and the value on a line: what stands before and behind its first colon, each without
the blanks around it. -/
inductive IsEntry (line : String) (label value : List Char) : Prop
  | intro {before after : List Char} (split : line.toList = before ++ ':' :: after)
    (first : ':' ∉ before) (label : IsTrimmed before label) (value : IsTrimmed after value)

/-- A line with a label and the numeral of a finite double. -/
inductive HoldsSample (line : String) : Sample → Prop
  | intro {label value : List Char} {elapsed : Float} (entry : IsEntry line label value)
    (numeral : Number.readFloat value = .ok elapsed) (finite : elapsed.isFinite = true) :
    HoldsSample line ⟨String.ofList label, elapsed⟩

/-- A line without a colon, or with something else than the numeral of a finite double behind it. -/
inductive IsBad (line : String) : LineFault → Prop
  | noColon (absent : ':' ∉ line.toList) : IsBad line (.noColon line)
  | noNumeral {label value : List Char} {fault : Number.NumeralFault}
    (entry : IsEntry line label value) (numeral : Number.readFloat value = .error fault) :
    IsBad line (.noNumeral (String.ofList value) fault)
  | notFinite {label value : List Char} {elapsed : Float} (entry : IsEntry line label value)
    (numeral : Number.readFloat value = .ok elapsed) (infinite : elapsed.isFinite = false) :
    IsBad line (.notFinite (String.ofList value))

/-- Among lines, the first that is neither blank nor holds a sample: how many lines stand before it,
and what its fault is. -/
inductive FirstBad : List String → Nat → LineFault → Prop
  | intro {before after : List String} {line : String} {fault : LineFault}
    (good : ∀ other ∈ before, isBlankLine other = true ∨ ∃ sample, HoldsSample other sample)
    (notBlank : isBlankLine line = false) (bad : IsBad line fault) :
    FirstBad (before ++ line :: after) before.length fault

/-- The samples on lines: one for each line that is not blank, in order. -/
def HoldSamples (lines : List String) (samples : List Sample) : Prop :=
  List.Forall₂ HoldsSample (lines.filter (!isBlankLine ·)) samples

/-- The file that a path leads to is a text with the given lines. -/
def HasLines (store : Store) (path : String) (lines : List String) : Prop :=
  ∃ text, store.read path = .ok (Text.encode text) ∧
    IsLines '\n' '\r' text.toList (lines.map String.toList)

/-- The twenty-second root of the product of the elapsed seconds. -/
def meanSeconds (samples : List Sample) : Float :=
  (samples.foldl (fun known (sample : Sample) => known * (sample.elapsed / 1000.0)) 1.0).pow
    (1.0 / Float.ofNat queryCount)

/-- What scoring the log that a path leads to gives. The lines behind the header count from two. -/
inductive Verdict (store : Store) (path : String) (scaleFactor : Float) :
    Except Failure Report → Prop
  | unreadable {fault : Fault} (unread : store.read path = .error fault) :
    Verdict store path scaleFactor (.error (.malformedLog path 0 fault.message))
  | undecodable {content : Bytes} (read : store.read path = .ok content)
    (noText : ∀ text, content ≠ Text.encode text) :
    Verdict store path scaleFactor (.error (.malformedLog path 0 Fault.undecodable.message))
  | empty (read : store.read path = .ok []) :
    Verdict store path scaleFactor (.error (.malformedLog path 0 "log is empty"))
  | badLine {header : String} {lines : List String} {count : Nat} {fault : LineFault}
    (log : HasLines store path (header :: lines)) (first : FirstBad lines count fault) :
    Verdict store path scaleFactor (.error (.malformedLog path (count + 2) fault.message))
  | noSamples {header : String} {lines : List String}
    (log : HasLines store path (header :: lines))
    (blank : ∀ line ∈ lines, isBlankLine line = true) :
    Verdict store path scaleFactor
      (.error (.malformedLog path 1 "no timing samples after the header"))
  | degenerate {header : String} {lines : List String} {before after : List Sample}
    {sample : Sample} (log : HasLines store path (header :: lines))
    (held : HoldSamples lines (before ++ sample :: after))
    (positive : ∀ earlier ∈ before, ¬ earlier.elapsed ≤ 0.0) (notPositive : sample.elapsed ≤ 0.0) :
    Verdict store path scaleFactor (.error (.degenerateTiming sample.label sample.elapsed))
  | scored {header : String} {lines : List String} {samples : List Sample}
    (log : HasLines store path (header :: lines)) (some : samples ≠ [])
    (held : HoldSamples lines samples) (positive : ∀ sample ∈ samples, ¬ sample.elapsed ≤ 0.0) :
    Verdict store path scaleFactor
      (.ok { logPath := path, scaleFactor := scaleFactor, samples := samples,
             geometricMean := meanSeconds samples,
             power := 3600.0 * scaleFactor / meanSeconds samples })

/-! ## One line -/

theorem isEntry_iff {line : String} {label value : List Char} :
    IsEntry line label value ↔
      ∃ before after, Text.once (· == ':') line.toList = some (before, after) ∧
        Text.trim before = label ∧ Text.trim after = value := by
  constructor
  · rintro ⟨split, first, label, value⟩
    exact ⟨_, _, Text.once_eq_some_iff.mpr ⟨split, first⟩, label.eq_trim, value.eq_trim⟩
  · rintro ⟨before, after, found, rfl, rfl⟩
    obtain ⟨split, first⟩ := Text.once_eq_some_iff.mp found
    exact ⟨split, first, Text.isTrimmed_trim before, Text.isTrimmed_trim after⟩

/-- No label holds a colon. -/
theorem HoldsSample.colon_not_mem {line : String} {sample : Sample}
    (held : HoldsSample line sample) : ':' ∉ sample.label.toList := by
  obtain ⟨⟨_, first, label, _⟩, _, _⟩ := held
  rw [String.toList_ofList]
  exact fun member => first (label.subset member)

/-- Reading a line gives the sample that it holds, or its fault. -/
theorem sampleOfLine_spec (line : String) :
    match sampleOfLine line with
    | .ok sample => HoldsSample line sample
    | .error fault => IsBad line fault := by
  unfold sampleOfLine
  cases found : Text.once (· == ':') line.toList with
  | none => exact .noColon (Text.once_eq_none_iff.mp found)
  | some parts =>
    obtain ⟨before, after⟩ := parts
    have entry : IsEntry line (Text.trim before) (Text.trim after) :=
      isEntry_iff.mpr ⟨before, after, found, rfl, rfl⟩
    cases numeral : Number.readFloat (Text.trim after) with
    | error fault => simpa only [numeral] using IsBad.noNumeral entry numeral
    | ok elapsed =>
      cases finite : elapsed.isFinite with
      | true => simpa only [numeral, finite, if_true] using HoldsSample.intro entry numeral finite
      | false =>
        simpa only [numeral, finite, Bool.false_eq_true, if_false] using
          IsBad.notFinite entry numeral finite

theorem HoldsSample.sampleOfLine_eq {line : String} {sample : Sample}
    (held : HoldsSample line sample) : sampleOfLine line = .ok sample := by
  obtain ⟨entry, numeral, finite⟩ := held
  obtain ⟨before, after, found, rfl, rfl⟩ := isEntry_iff.mp entry
  simp only [sampleOfLine, found, numeral, finite, if_true]

theorem IsBad.sampleOfLine_eq {line : String} {fault : LineFault} (bad : IsBad line fault) :
    sampleOfLine line = .error fault := by
  cases bad with
  | noColon absent => simp only [sampleOfLine, Text.once_eq_none_iff.mpr absent]
  | noNumeral entry numeral =>
    obtain ⟨before, after, found, rfl, rfl⟩ := isEntry_iff.mp entry
    simp only [sampleOfLine, found, numeral]
  | notFinite entry numeral infinite =>
    obtain ⟨before, after, found, rfl, rfl⟩ := isEntry_iff.mp entry
    simp only [sampleOfLine, found, numeral, infinite, Bool.false_eq_true, if_false]

/-! ## The lines behind the header -/

theorem HoldSamples.of_blank {line : String} (blank : isBlankLine line = true)
    {lines : List String} {samples : List Sample} :
    HoldSamples (line :: lines) samples ↔ HoldSamples lines samples := by
  simp only [HoldSamples, List.filter_cons, blank, Bool.not_true, Bool.false_eq_true, if_false]

theorem HoldSamples.of_not_blank {line : String} (notBlank : isBlankLine line = false)
    {lines : List String} {samples : List Sample} :
    HoldSamples (line :: lines) samples ↔
      ∃ sample others, HoldsSample line sample ∧ HoldSamples lines others ∧
        samples = sample :: others := by
  simp only [HoldSamples, List.filter_cons, notBlank, Bool.not_false, if_true,
    List.forall₂_cons_left_iff]

theorem FirstBad.later {line : String} {lines : List String} {count : Nat} {fault : LineFault}
    (good : isBlankLine line = true ∨ ∃ sample, HoldsSample line sample)
    (first : FirstBad lines count fault) : FirstBad (line :: lines) (count + 1) fault := by
  obtain ⟨others, notBlank, bad⟩ := first
  refine @FirstBad.intro (line :: _) _ _ _ ?_ notBlank bad
  intro other member
  rcases List.mem_cons.mp member with rfl | later
  · exact good
  · exact others other later

/-- Reading lines gives their samples, or the first bad line. -/
theorem samplesOfLines_spec (number : Nat) (lines : List String) :
    match samplesOfLines number lines with
    | .ok samples => HoldSamples lines samples
    | .error (place, fault) => ∃ count, place = count + number ∧ FirstBad lines count fault := by
  induction lines generalizing number with
  | nil => exact .nil
  | cons line rest ih =>
    have later := ih (number + 1)
    cases blank : isBlankLine line with
    | true =>
      simp only [samplesOfLines, blank, if_true]
      cases read : samplesOfLines (number + 1) rest with
      | ok samples =>
        rw [read] at later
        exact (HoldSamples.of_blank blank).mpr later
      | error found =>
        rw [read] at later
        obtain ⟨count, place, first⟩ := later
        exact ⟨count + 1, by omega, first.later (.inl blank)⟩
    | false =>
      simp only [samplesOfLines, blank, Bool.false_eq_true, if_false]
      have one := sampleOfLine_spec line
      cases found : sampleOfLine line with
      | error fault =>
        rw [found] at one
        exact ⟨0, (Nat.zero_add number).symm, @FirstBad.intro [] _ _ _ nofun blank one⟩
      | ok sample =>
        rw [found] at one
        cases read : samplesOfLines (number + 1) rest with
        | ok samples =>
          rw [read] at later
          exact (HoldSamples.of_not_blank blank).mpr ⟨sample, samples, one, later, rfl⟩
        | error fault =>
          rw [read] at later
          obtain ⟨count, place, first⟩ := later
          exact ⟨count + 1, by omega, first.later (.inr ⟨sample, one⟩)⟩

theorem HoldSamples.samplesOfLines_eq {lines : List String} {samples : List Sample}
    (held : HoldSamples lines samples) (number : Nat) :
    samplesOfLines number lines = .ok samples := by
  induction lines generalizing number samples with
  | nil =>
    cases held
    rfl
  | cons line rest ih =>
    cases blank : isBlankLine line with
    | true =>
      simp only [samplesOfLines, blank, if_true]
      exact ih ((HoldSamples.of_blank blank).mp held) (number + 1)
    | false =>
      obtain ⟨sample, others, one, later, rfl⟩ := (HoldSamples.of_not_blank blank).mp held
      simp only [samplesOfLines, blank, Bool.false_eq_true, if_false, one.sampleOfLine_eq,
        ih later (number + 1), Except.map]

theorem samplesOfLines_append_of_good {before : List String}
    (good : ∀ other ∈ before, isBlankLine other = true ∨ ∃ sample, HoldsSample other sample)
    {line : String} {fault : LineFault} (notBlank : isBlankLine line = false)
    (bad : IsBad line fault) (after : List String) (number : Nat) :
    samplesOfLines number (before ++ line :: after) = .error (before.length + number, fault) := by
  induction before generalizing number with
  | nil =>
    simp only [List.nil_append, samplesOfLines, notBlank, Bool.false_eq_true, if_false,
      bad.sampleOfLine_eq, List.length_nil, Nat.zero_add]
  | cons other rest ih =>
    have later := ih (fun each member => good each (List.mem_cons_of_mem _ member)) (number + 1)
    have place : rest.length + (number + 1) = rest.length + 1 + number := by omega
    rw [place] at later
    cases blank : isBlankLine other with
    | true => simp only [List.cons_append, samplesOfLines, blank, if_true, later, List.length_cons]
    | false =>
      rcases good other List.mem_cons_self with isBlank | ⟨sample, held⟩
      · rw [isBlank] at blank
        exact Bool.noConfusion blank
      · simp only [List.cons_append, samplesOfLines, blank, Bool.false_eq_true, if_false,
          held.sampleOfLine_eq, later, Except.map, List.length_cons]

theorem FirstBad.samplesOfLines_eq {lines : List String} {count : Nat} {fault : LineFault}
    (first : FirstBad lines count fault) (number : Nat) :
    samplesOfLines number lines = .error (count + number, fault) := by
  obtain ⟨good, notBlank, bad⟩ := first
  exact samplesOfLines_append_of_good good notBlank bad _ number

/-- No label among samples on lines holds a colon. -/
theorem HoldSamples.colon_not_mem {lines : List String} {samples : List Sample}
    (held : HoldSamples lines samples) : ∀ sample ∈ samples, ':' ∉ sample.label.toList := by
  unfold HoldSamples at held
  generalize lines.filter (!isBlankLine ·) = written at held
  induction held with
  | nil => nofun
  | cons one _ ih =>
    intro sample member
    rcases List.mem_cons.mp member with rfl | later
    · exact one.colon_not_mem
    · exact ih sample later

/-- Lines have no samples exactly if all of them are blank. -/
theorem holdSamples_nil_iff {lines : List String} :
    HoldSamples lines [] ↔ ∀ line ∈ lines, isBlankLine line = true := by
  rw [HoldSamples, List.forall₂_nil_right_iff, List.filter_eq_nil_iff]
  simp only [Bool.not_eq_true', Bool.not_eq_false]

/-! ## The file -/

theorem isLines_iff_textLines {text : String} {lines : List String} :
    IsLines '\n' '\r' text.toList (lines.map String.toList) ↔ Text.textLines text = lines := by
  rw [← Text.lines_eq_iff, Text.textLines]
  constructor
  · intro found
    simp only [found, List.map_map, Function.comp_def, String.ofList_toList, List.map_id']
  · rintro rfl
    simp only [List.map_map, Function.comp_def, String.toList_ofList, List.map_id']

theorem HasLines.readLog_eq {store : Store} {path : String} {lines : List String}
    (log : HasLines store path lines) :
    ∃ text, store.readText path = .ok text ∧ Text.textLines text = lines := by
  obtain ⟨text, read, isLines⟩ := log
  refine ⟨text, ?_, isLines_iff_textLines.mp isLines⟩
  simp only [Store.readText, read, Text.decode?_encode]

theorem readLog_of_header {store : Store} {path header : String} {lines : List String}
    (log : HasLines store path (header :: lines)) :
    readLog store path =
      match samplesOfLines 2 lines with
      | .error (number, fault) => .error (.malformedLog path number fault.message)
      | .ok [] => .error (.malformedLog path 1 "no timing samples after the header")
      | .ok samples => .ok samples := by
  obtain ⟨text, read, found⟩ := log.readLog_eq
  simp only [readLog, read, samplesOfText, found]
  cases samplesOfLines 2 lines with
  | error place => rfl
  | ok samples =>
    cases samples with
    | nil => rfl
    | cons sample others => rfl

/-- The first sample that is not positive, if there is one. -/
theorem degenerate?_spec (samples : List Sample) :
    match degenerate? samples with
    | some sample => ∃ before after, samples = before ++ sample :: after ∧
        (∀ earlier ∈ before, ¬ earlier.elapsed ≤ 0.0) ∧ sample.elapsed ≤ 0.0
    | none => ∀ sample ∈ samples, ¬ sample.elapsed ≤ 0.0 := by
  cases found : degenerate? samples with
  | none =>
    intro sample member
    simpa only [decide_eq_true_eq] using List.find?_eq_none.mp found sample member
  | some sample =>
    obtain ⟨notPositive, before, after, split, positive⟩ := List.find?_eq_some_iff_append.mp found
    refine ⟨before, after, split, ?_, by simpa only [decide_eq_true_eq] using notPositive⟩
    intro earlier member
    simpa only [Bool.not_eq_true', decide_eq_false_iff_not] using positive earlier member

theorem degenerate?_eq_some {before after : List Sample} {sample : Sample}
    (positive : ∀ earlier ∈ before, ¬ earlier.elapsed ≤ 0.0) (notPositive : sample.elapsed ≤ 0.0) :
    degenerate? (before ++ sample :: after) = some sample := by
  refine List.find?_eq_some_iff_append.mpr ⟨decide_eq_true notPositive, before, after, rfl, ?_⟩
  intro earlier member
  rw [decide_eq_false (positive earlier member), Bool.not_false]

theorem degenerate?_eq_none {samples : List Sample}
    (positive : ∀ sample ∈ samples, ¬ sample.elapsed ≤ 0.0) : degenerate? samples = none := by
  refine List.find?_eq_none.mpr ?_
  intro sample member
  rw [decide_eq_true_eq]
  exact positive sample member

/-- The score of a log with samples. -/
theorem ofLog_of_readLog {store : Store} {path : String} {samples : List Sample}
    (read : readLog store path = .ok samples) (scaleFactor : Float) :
    Report.ofLog store path scaleFactor =
      match degenerate? samples with
      | some sample => .error (.degenerateTiming sample.label sample.elapsed)
      | none => .ok
          { logPath := path, scaleFactor := scaleFactor, samples := samples,
            geometricMean := meanSeconds samples,
            power := 3600.0 * scaleFactor / meanSeconds samples } := by
  simp only [Report.ofLog, read, Report.ofSamples, geometricMean]
  cases degenerate? samples with
  | some sample => rfl
  | none => rfl

theorem verdict_of_header {store : Store} {path header : String} {lines : List String}
    (log : HasLines store path (header :: lines)) (scaleFactor : Float) :
    Verdict store path scaleFactor (Report.ofLog store path scaleFactor) := by
  have read := readLog_of_header log
  have parts := samplesOfLines_spec 2 lines
  cases found : samplesOfLines 2 lines with
  | error place =>
    rw [found] at parts read
    obtain ⟨count, number, first⟩ := parts
    simp only [Report.ofLog, read, number]
    exact .badLine log first
  | ok samples =>
    rw [found] at parts read
    cases samples with
    | nil =>
      simp only [Report.ofLog, read]
      exact .noSamples log (holdSamples_nil_iff.mp parts)
    | cons sample others =>
      have scored := ofLog_of_readLog read scaleFactor
      have positive := degenerate?_spec (sample :: others)
      rw [scored]
      cases bad : degenerate? (sample :: others) with
      | none =>
        rw [bad] at positive
        exact .scored log (List.cons_ne_nil _ _) parts positive
      | some zero =>
        rw [bad] at positive
        obtain ⟨before, after, split, earlier, notPositive⟩ := positive
        rw [split] at parts
        exact .degenerate log parts earlier notPositive

theorem verdict_ofLog (store : Store) (path : String) (scaleFactor : Float) :
    Verdict store path scaleFactor (Report.ofLog store path scaleFactor) := by
  cases read : store.read path with
  | error fault =>
    simp only [Report.ofLog, readLog, Store.readText, read]
    exact .unreadable read
  | ok content =>
    cases decoded : Text.decode? content with
    | none =>
      simp only [Report.ofLog, readLog, Store.readText, read, decoded]
      refine .undecodable read ?_
      rintro text rfl
      rw [Text.decode?_encode] at decoded
      exact Option.some_ne_none _ decoded
    | some text =>
      obtain rfl := Text.decode?_eq_some_iff.mp decoded
      cases found : Text.textLines text with
      | nil =>
        have nothing : text = "" := by
          rw [Text.textLines, List.map_eq_nil_iff, Text.lines_eq_nil_iff] at found
          exact String.toList_eq_nil_iff.mp found
        subst nothing
        simp only [Report.ofLog, readLog, Store.readText, read, decoded, samplesOfText, found]
        exact .empty read
      | cons header lines =>
        exact verdict_of_header ⟨text, read, isLines_iff_textLines.mpr found⟩ scaleFactor

theorem Verdict.ofLog_eq {store : Store} {path : String} {scaleFactor : Float}
    {result : Except Failure Report} (verdict : Verdict store path scaleFactor result) :
    Report.ofLog store path scaleFactor = result := by
  cases verdict with
  | unreadable unread => simp only [Report.ofLog, readLog, Store.readText, unread]
  | @undecodable content read noText =>
    have undecoded : Text.decode? content = none := by
      cases decoded : Text.decode? content with
      | none => rfl
      | some text => exact absurd (Text.decode?_eq_some_iff.mp decoded) (noText text)
    simp only [Report.ofLog, readLog, Store.readText, read, undecoded]
  | empty read =>
    have decoded : Text.decode? [] = some "" := Text.decode?_encode ""
    simp only [Report.ofLog, readLog, Store.readText, read, decoded]
    rfl
  | badLine log first =>
    simp only [Report.ofLog, readLog_of_header log, first.samplesOfLines_eq 2]
  | noSamples log blank =>
    simp only [Report.ofLog, readLog_of_header log,
      (holdSamples_nil_iff.mpr blank).samplesOfLines_eq 2]
  | @degenerate header lines before after sample log held positive notPositive =>
    have read : readLog store path = .ok (before ++ sample :: after) := by
      rw [readLog_of_header log, held.samplesOfLines_eq 2]
      cases before with
      | nil => rfl
      | cons first others => rfl
    rw [ofLog_of_readLog read, degenerate?_eq_some positive notPositive]
  | @scored header lines samples log some held positive =>
    have read : readLog store path = .ok samples := by
      rw [readLog_of_header log, held.samplesOfLines_eq 2]
      cases samples with
      | nil => exact absurd rfl some
      | cons first others => rfl
    rw [ofLog_of_readLog read, degenerate?_eq_none positive]

/-- **The verdict on a log.** Scoring a log gives the report on its samples or names its first
fault, and no label of a report holds a colon. -/
theorem ofLog_eq_iff_verdict (store : Store) (path : String) (scaleFactor : Float)
    (result : Except Failure Report) :
    (Report.ofLog store path scaleFactor = result ↔ Verdict store path scaleFactor result) ∧
      ∀ report, Report.ofLog store path scaleFactor = .ok report →
        ∀ sample ∈ report.samples, ':' ∉ sample.label.toList := by
  refine ⟨⟨?_, Verdict.ofLog_eq⟩, ?_⟩
  · rintro rfl
    exact verdict_ofLog store path scaleFactor
  · intro report found sample member
    have verdict := verdict_ofLog store path scaleFactor
    rw [found] at verdict
    cases verdict with
    | scored _ _ held _ => exact held.colon_not_mem sample member

end PowerTest.Timing
