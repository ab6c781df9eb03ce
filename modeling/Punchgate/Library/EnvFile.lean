import Punchgate.Library.Text

/-!
# Environment files

An environment file has one assignment in a line, and comments and empty lines besides. A reader
may treat blanks, quotes and backslashes in values in its own way, and so it may treat a name that
is assigned twice; values without them, and names that differ, are the same for every reader.
-/

namespace EnvFile

/-- A line of a file. -/
inductive Line
  | comment (text : List Char)
  | blank
  | assignment (name value : List Char)
  deriving DecidableEq

/-- A name of a variable: letters, digits and underscores, and no digit in front. -/
structure IsName (name : List Char) : Prop where
  nonempty : name ≠ []
  chars : ∀ c ∈ name, c.isAlphanum ∨ c = '_'
  first : ∀ c ∈ name.head?, c.isDigit = false

instance (name : List Char) : Decidable (IsName name) :=
  decidable_of_iff (name ≠ [] ∧ name.all (fun c => c.isAlphanum ∨ c = '_') = true ∧
      name.head?.all (!·.isDigit) = true) (by
    rw [List.all_eq_true, Option.all_eq_true]
    simp only [decide_eq_true_eq, Bool.not_eq_true']
    exact ⟨fun h => ⟨h.1, h.2.1, h.2.2⟩, fun h => ⟨h.nonempty, h.chars, h.first⟩⟩)

/-- A value that every reader takes as it is: no line breaks, quotes or backslashes, and no blanks
at the ends. -/
structure IsPlain (value : List Char) : Prop where
  chars : ∀ c ∈ value, c ∉ ['\n', '\r', '\\', '"', '\'']
  first : ∀ c ∈ value.head?, c.isWhitespace = false
  last : ∀ c ∈ value.getLast?, c.isWhitespace = false

instance (value : List Char) : Decidable (IsPlain value) :=
  decidable_of_iff (value.all (· ∉ ['\n', '\r', '\\', '"', '\'']) = true ∧
      value.head?.all (!·.isWhitespace) = true ∧ value.getLast?.all (!·.isWhitespace) = true) (by
    rw [List.all_eq_true, Option.all_eq_true, Option.all_eq_true]
    simp only [decide_eq_true_eq, Bool.not_eq_true']
    exact ⟨fun h => ⟨h.1, h.2.1, h.2.2⟩, fun h => ⟨h.chars, h.first, h.last⟩⟩)

namespace Line

/-- The text of a line. -/
def write : Line → List Char
  | comment text => '#' :: text
  | blank => []
  | assignment name value => name ++ '=' :: value

/-- What a line assigns. -/
def binding : Line → Option (List Char × List Char)
  | comment _ => none
  | blank => none
  | assignment name value => some (name, value)

/-- A line that every reader reads in the same way. -/
def IsPlain : Line → Prop
  | comment text => ∀ c ∈ text, c ∉ ['\n', '\r', '\\']
  | blank => True
  | assignment name value => IsName name ∧ EnvFile.IsPlain value

/-- A comment with none of the characters that a reader may take in its own way. -/
theorem isPlain_comment {text : List Char} (h : text.all (· ∉ ['\n', '\r', '\\']) = true) :
    IsPlain (comment text) := by
  simpa only [List.all_eq_true, decide_eq_true_eq, IsPlain] using h

end Line

/-- The text of a file. -/
def write (lines : List Line) : List Char := Text.writeAll '\n' Line.write lines

/-- What a reader of environment files promises. -/
def Reads (read : List Char → List (List Char × List Char)) : Prop :=
  ∀ lines ≠ [], (∀ line ∈ lines, line.IsPlain) →
    ((lines.filterMap Line.binding).map Prod.fst).Nodup →
      read (write lines) = lines.filterMap Line.binding

/-- Read a line as it is. -/
def readLine (s : List Char) : Option (List Char × List Char) :=
  if ['#'] <+: s then none else Text.splitOnce ['='] s

/-- Read all lines as they are. -/
def readLines (s : List Char) : List (List Char × List Char) :=
  (s.splitOn '\n').filterMap readLine

/-- A name begins no comment and has no separator in it. -/
theorem IsName.notMem {name : List Char} (h : IsName name) : ∀ c ∈ ['#', '=', '\n'], c ∉ name := by
  have hnone : ∀ c ∈ ['#', '=', '\n'], ¬(c.isAlphanum ∨ c = '_') := by simp
  intro c hc hmem
  exact hnone c hc (h.chars c hmem)

/-- A line is read as it was written. -/
theorem readLine_write {line : Line} (h : line.IsPlain) : readLine line.write = line.binding := by
  cases line with
  | comment text => exact if_pos (List.prefix_append ['#'] text)
  | blank => rfl
  | assignment name value =>
    have hname := h.1.notMem
    have hcomment : ¬['#'] <+: name ++ '=' :: value := by
      obtain ⟨c, cs, rfl⟩ := List.exists_cons_of_ne_nil h.1.nonempty
      rw [List.cons_append, List.cons_prefix_cons]
      exact fun hstart => hname '#' (by decide) (hstart.1 ▸ List.mem_cons_self)
    rw [readLine, Line.write, if_neg hcomment, Text.splitOnce_singleton_iff.mpr]
    · rfl
    · exact ⟨rfl, hname '=' (by decide)⟩

/-- A line is one line. -/
theorem newline_notMem {line : Line} (h : line.IsPlain) : '\n' ∉ line.write := by
  cases line with
  | comment text =>
    have htext : '\n' ∉ text := fun hmem => h '\n' hmem (by decide)
    simpa [Line.write] using htext
  | blank => exact List.not_mem_nil
  | assignment name value =>
    have hname := h.1.notMem '\n' (by decide)
    have hvalue : '\n' ∉ value := fun hmem => h.2.chars '\n' hmem (by decide)
    simp [Line.write, hname, hvalue]

/-- Reading all lines as they are keeps the promise. -/
theorem reads_readLines : Reads readLines := by
  intro lines hne hplain _
  have hparts : ∀ part ∈ lines.map Line.write, '\n' ∉ part := by
    intro part hpart
    obtain ⟨line, hline, rfl⟩ := List.mem_map.mp hpart
    exact newline_notMem (hplain line hline)
  have hmap : lines.map Line.write ≠ [] := by simpa using hne
  rw [readLines, write, Text.writeAll, List.splitOn_intercalate '\n' hparts hmap,
    List.filterMap_map]
  exact List.filterMap_congr fun line hline => readLine_write (hplain line hline)

end EnvFile
