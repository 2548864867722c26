import Mathlib.Data.List.Nodup
import PowerTest.Artifact
import PowerTest.Proofs.Store.Directory
import PowerTest.Proofs.Text.Utf8

/-!
# Names of artifacts

A name is made of letters that say what kind of artifact it is and of digits that number it. The
letters are one of finitely many words, and the digits give the number back, so no two artifacts
share a name. No word has a slash, so every name leads from a directory to something in it.
-/

namespace PowerTest

namespace Text

variable {first second : Nat}

theorem toList_decimal (number : Nat) : (decimal number).toList = Nat.toDigits 10 number :=
  String.toList_ofList

theorem toDigits_injective (same : Nat.toDigits 10 first = Nat.toDigits 10 second) :
    first = second := by
  rw [← Nat.ofDigitChars_ten_toDigits (n := first), same, Nat.ofDigitChars_ten_toDigits]

theorem decimal_ne_empty (number : Nat) : decimal number ≠ "" := by
  intro empty
  rw [← String.toList_eq_nil_iff, toList_decimal] at empty
  exact Nat.toDigits_ne_nil empty

theorem utf8ByteSize_decimal_le {number count : Nat} (some : 0 < count)
    (small : number < 10 ^ count) : (decimal number).utf8ByteSize ≤ count := by
  have single : ∀ character ∈ Nat.toDigits 10 number, character.utf8Size = 1 := by
    intro character member
    have digit := Nat.isDigit_of_mem_toDigits (by decide) (by decide) member
    rw [Char.utf8Size_eq_one_iff]
    rw [Char.isDigit_iff_toNat] at digit
    exact Nat.le_trans digit.2 (by decide)
  rw [← toList_decimal] at single
  rw [utf8ByteSize_of_single single, toList_decimal]
  exact (Nat.length_toDigits_le_iff (by decide) some).mpr small

/-- The characters of a text that are no digits. -/
def letters (text : String) : List Char :=
  text.toList.filter (!·.isDigit)

/-- The characters of a text that are digits. -/
def digits (text : String) : List Char :=
  text.toList.filter (·.isDigit)

theorem letters_append (front back : String) :
    letters (front ++ back) = letters front ++ letters back := by
  rw [letters, String.toList_append, List.filter_append, letters, letters]

theorem digits_append (front back : String) :
    digits (front ++ back) = digits front ++ digits back := by
  rw [digits, String.toList_append, List.filter_append, digits, digits]

theorem letters_decimal (number : Nat) : letters (decimal number) = [] := by
  rw [letters, toList_decimal, List.filter_eq_nil_iff]
  intro character member
  rw [Nat.isDigit_of_mem_toDigits (by decide) (by decide) member]
  decide

theorem digits_decimal (number : Nat) : digits (decimal number) = Nat.toDigits 10 number := by
  rw [digits, toList_decimal, List.filter_eq_self]
  exact fun character member => Nat.isDigit_of_mem_toDigits (by decide) (by decide) member

theorem mem_letters_of_not_isDigit {character : Char} {text : String}
    (member : character ∈ text.toList) (letter : character.isDigit = false) : character ∈ letters text := by
  rw [letters, List.mem_filter, letter]
  exact ⟨member, rfl⟩

end Text

namespace Artifact

open Text

/-- An artifact with its number forgotten. -/
def unnumbered : Artifact → Artifact
  | tableData table => tableData table
  | updateData table _ => updateData table 0
  | deleteKeys _ => deleteKeys 0
  | loadScript table => loadScript table
  | firstRefresh => firstRefresh
  | secondRefresh => secondRefresh
  | template _ => template 0
  | query _ => query 0
  | fragment _ => fragment 0
  | runDirectory _ => runDirectory 0

/-- The artifacts without numbers. -/
def kinds : List Artifact :=
  Table.all.flatMap (fun table => [tableData table, updateData table 0, loadScript table]) ++
    [deleteKeys 0, firstRefresh, secondRefresh, template 0, query 0, fragment 0, runDirectory 0]

theorem unnumbered_mem_kinds (artifact : Artifact) : artifact.unnumbered ∈ kinds := by
  cases artifact with
  | tableData table | updateData table _ | loadScript table =>
    simp only [unnumbered]
    cases table <;> decide
  | deleteKeys | firstRefresh | secondRefresh | template | query | fragment | runDirectory =>
    simp only [unnumbered]
    decide

/-- The letters of a name do not depend on the number. -/
theorem letters_name (artifact : Artifact) :
    letters artifact.name = letters artifact.unnumbered.name := by
  cases artifact <;>
    simp only [unnumbered, name, Table.dataFile, Table.updateFile, Table.loadFile, templateName,
      queryStem, fragmentName, runDirectoryName, letters_append, letters_decimal]

theorem kinds_of_letters : ∀ first ∈ kinds, ∀ second ∈ kinds,
    letters first.name = letters second.name → first = second ∨
      first ∈ [firstRefresh, secondRefresh] ∧ second ∈ [firstRefresh, secondRefresh] := by
  decide +kernel

theorem kinds_plain : ∀ kind ∈ kinds, '/' ∉ letters kind.name ∧ '\x00' ∉ letters kind.name ∧
    letters kind.name ≠ ['.'] ∧ letters kind.name ≠ ['.', '.'] ∧
    (letters kind.name = [] → kind = runDirectory 0) := by
  decide +kernel

/-- Artifacts of a kind are told apart by the digits in their names. -/
theorem eq_of_unnumbered_eq {first second : Artifact} (kind : first.unnumbered = second.unnumbered)
    (same : digits first.name = digits second.name) : first = second := by
  cases first <;> cases second <;>
    simp only [unnumbered, reduceCtorEq, tableData.injEq, updateData.injEq, loadScript.injEq,
      and_true] at kind <;>
    simp only [name, Table.updateFile, templateName, queryStem, fragmentName, runDirectoryName,
      digits_append, digits_decimal, List.append_cancel_left_eq, List.append_cancel_right_eq,
      kind] at same ⊢ <;>
    exact congrArg _ (toDigits_injective same)

/-- The scripts of a refresh set have no number. -/
theorem unnumbered_of_refresh {artifact : Artifact}
    (refresh : artifact.unnumbered ∈ [firstRefresh, secondRefresh]) :
    artifact.unnumbered = artifact := by
  cases artifact <;> first | rfl | simp [unnumbered] at refresh

/-- No two artifacts share a name. -/
theorem eq_of_name_eq {first second : Artifact} (same : first.name = second.name) :
    first = second := by
  have kind := kinds_of_letters _ first.unnumbered_mem_kinds _ second.unnumbered_mem_kinds
    (by rw [← letters_name, ← letters_name, same])
  rcases kind with kind | ⟨one, other⟩
  · exact eq_of_unnumbered_eq kind (congrArg digits same)
  · have apart : ∀ one ∈ [firstRefresh, secondRefresh], ∀ other ∈ [firstRefresh, secondRefresh],
        one.name = other.name → one = other := by decide +kernel
    rw [unnumbered_of_refresh one] at one
    rw [unnumbered_of_refresh other] at other
    exact apart _ one _ other same

@[simp] theorem name_inj {first second : Artifact} : first.name = second.name ↔ first = second :=
  ⟨eq_of_name_eq, congrArg name⟩

theorem name_mem_templateNames {artifact : Artifact} :
    artifact.name ∈ templateNames ↔ ∃ number ∈ queryNumbers, artifact = .template number := by
  rw [templateNames, List.mem_map]
  constructor
  · rintro ⟨number, member, same⟩
    exact ⟨number, member, (@eq_of_name_eq (.template number) artifact same).symm⟩
  · rintro ⟨number, member, rfl⟩
    exact ⟨number, member, rfl⟩

theorem name_ne_empty (artifact : Artifact) : artifact.name ≠ "" := by
  intro empty
  obtain ⟨_, _, _, _, none⟩ := kinds_plain _ artifact.unnumbered_mem_kinds
  rw [← letters_name, empty] at none
  cases artifact with
  | runDirectory milliseconds => exact decimal_ne_empty _ empty
  | _ => cases none rfl

/-- Every artifact's name leads from a directory to the artifact. -/
theorem isPlain_name (artifact : Artifact) : Path.IsPlain artifact.name := by
  obtain ⟨slash, null, dot, dots, _⟩ := kinds_plain _ artifact.unnumbered_mem_kinds
  rw [← letters_name] at slash null dot dots
  exact ⟨artifact.name_ne_empty, fun member => slash (mem_letters_of_not_isDigit member rfl),
    fun member => null (mem_letters_of_not_isDigit member rfl), fun here => dot (here ▸ rfl),
    fun above => dots (above ▸ rfl)⟩

theorem isPlain_of_mem_templateNames {name : String} (member : name ∈ templateNames) :
    Path.IsPlain name := by
  obtain ⟨number, _, rfl⟩ := List.mem_map.mp member
  exact (template number).isPlain_name

theorem nodup_templateNames : templateNames.Nodup := by
  refine List.Nodup.map (fun first second same => ?_) (by decide)
  exact template.inj (@eq_of_name_eq (.template first) (.template second) same)

/-- The number in the name of an artifact, zero if there is none. -/
def number : Artifact → Nat
  | tableData _ | loadScript _ | firstRefresh | secondRefresh => 0
  | updateData _ number | deleteKeys number | template number | query number | fragment number
  | runDirectory number => number

/-- The names of artifacts are short unless their numbers are very large. -/
theorem size_name_le {artifact : Artifact} (small : artifact.number < 10 ^ 200) :
    artifact.name.utf8ByteSize ≤ Store.longestName := by
  have digits := utf8ByteSize_decimal_le (by decide) small
  have stem (table : Table) : table.stem.utf8ByteSize ≤ 8 := by cases table <;> decide
  have part : ∀ text ∈ [".tbl", ".tbl.u", "delete.", ".sql", "RF1.sql", "RF2.sql", "q", "."],
      text.utf8ByteSize ≤ 7 := by decide
  simp only [List.forall_mem_cons] at part
  have refresh : (Text.decimal refreshQuery).utf8ByteSize ≤ 2 :=
    utf8ByteSize_decimal_le (by decide) (by decide)
  cases artifact with
  | tableData table | loadScript table | updateData table _ =>
    have := stem table
    simp only [Store.longestName, name, Table.dataFile, Table.updateFile, Table.loadFile,
      String.utf8ByteSize_append, number] at digits ⊢
    omega
  | deleteKeys | firstRefresh | secondRefresh | template | query | fragment | runDirectory =>
    simp only [Store.longestName, name, templateName, queryStem, fragmentName, runDirectoryName,
      String.utf8ByteSize_append, number, Int.toNat_natCast] at digits ⊢
    omega

end Artifact

end PowerTest
