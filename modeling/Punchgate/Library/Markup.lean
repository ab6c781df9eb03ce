import Mathlib.Data.List.Infix

/-!
# Texts inside markup

A document is a text with tags in it: a leading text, and after each tag another text. In the texts
the characters of the markup are written as entities. Whoever writes the texts so cannot change the
tags, and a reader gets the same tags and texts back.
-/

namespace Markup

/-- Write a text for every occurrence of a character. -/
def replace (c : Char) (text s : List Char) : List Char :=
  s.flatMap fun x => if x = c then text else [x]

/-- How one character is written in a text. -/
def escapeChar (c : Char) : List Char :=
  if c = '&' then "&amp;".toList
  else if c = '<' then "&lt;".toList
  else if c = '>' then "&gt;".toList
  else if c = '"' then "&quot;".toList
  else if c = '\'' then "&apos;".toList
  else [c]

/-- A text with its entities. -/
def escape (s : List Char) : List Char := s.flatMap escapeChar

/-- A text without its entities. -/
def unescape : List Char → List Char
  | '&' :: 'a' :: 'm' :: 'p' :: ';' :: rest => '&' :: unescape rest
  | '&' :: 'l' :: 't' :: ';' :: rest => '<' :: unescape rest
  | '&' :: 'g' :: 't' :: ';' :: rest => '>' :: unescape rest
  | '&' :: 'q' :: 'u' :: 'o' :: 't' :: ';' :: rest => '"' :: unescape rest
  | '&' :: 'a' :: 'p' :: 'o' :: 's' :: ';' :: rest => '\'' :: unescape rest
  | c :: rest => c :: unescape rest
  | [] => []

/-- A document: the leading text, and each tag with the text after it. -/
structure Document where
  /-- Before the first tag. -/
  lead : List Char
  /-- The tags and what follows them. -/
  elements : List (List Char × List Char)
  deriving DecidableEq

/-- A tag and the text after it. -/
def writeElement (element : List Char × List Char) : List Char :=
  '<' :: (element.1 ++ '>' :: escape element.2)

/-- The text of a document. -/
def write (doc : Document) : List Char := escape doc.lead ++ doc.elements.flatMap writeElement

/-- What ends a tag, and what ends a text. -/
def stop : Bool → Char
  | true => '>'
  | false => '<'

/-- Texts and tags in turn, beginning inside a tag or outside. -/
def pieces : Bool → List Char → List (List Char)
  | _, [] => [[]]
  | inTag, c :: cs =>
    if c = stop inTag then [] :: pieces (!inTag) cs
    else (pieces inTag cs).modifyHead (c :: ·)

/-- Tags with the texts after them. -/
def pair : List (List Char) → List (List Char × List Char)
  | tag :: text :: rest => (tag, unescape text) :: pair rest
  | _ => []

/-- A text that every reader takes as it is: of the control characters it has only tabs and line
feeds, and it has no characters that are none. -/
def IsPlain (text : List Char) : Prop :=
  ∀ c ∈ text, c = '\t' ∨ c = '\n' ∨ ' ' ≤ c ∧ c ∉ ['\uFFFE', '\uFFFF']

instance (text : List Char) : Decidable (IsPlain text) :=
  decidable_of_iff (text.all (fun c => c = '\t' ∨ c = '\n' ∨ ' ' ≤ c ∧ c ∉ ['\uFFFE', '\uFFFF']) =
    true) (by simp only [List.all_eq_true, decide_eq_true_eq, IsPlain])

/-- Read a document. Control characters and carriage returns are kept, where other readers refuse
them or read line feeds. -/
def read (s : List Char) : Document where
  lead := unescape ((pieces false s).headD [])
  elements := pair (pieces false s).tail

section Escape

variable {s rest : List Char} {c : Char}

/-- A character that begins no entity is read as it is. -/
theorem unescape_cons (h : c ≠ '&') : unescape (c :: rest) = c :: unescape rest := by
  simp [unescape, h]

/-- A character is read back. -/
theorem unescape_escapeChar (c : Char) (rest : List Char) :
    unescape (escapeChar c ++ rest) = c :: unescape rest := by
  unfold escapeChar
  split_ifs with hamp hlt hgt hquot hapos
  · rw [hamp]; rfl
  · rw [hlt]; rfl
  · rw [hgt]; rfl
  · rw [hquot]; rfl
  · rw [hapos]; rfl
  · exact unescape_cons hamp

/-- A text is read back. -/
theorem unescape_escape (s : List Char) : unescape (escape s) = s := by
  induction s with
  | nil => rfl
  | cons c s ih =>
    have hcons : escape (c :: s) = escapeChar c ++ escape s := rfl
    rw [hcons, unescape_escapeChar, ih]

/-- A written character is none of those that there are entities for. -/
theorem notMem_escapeChar (d : Char) : ∀ c ∈ ['<', '>', '"', '\''], c ∉ escapeChar d := by
  unfold escapeChar
  split_ifs with hamp hlt hgt hquot hapos
  · simp
  · simp
  · simp
  · simp
  · simp
  · intro c hc hmem
    obtain rfl := List.mem_singleton.mp hmem
    simp [hlt, hgt, hquot, hapos] at hc

/-- A written text has none of the characters that there are entities for. -/
theorem notMem_escape (s : List Char) : ∀ c ∈ ['<', '>', '"', '\''], c ∉ escape s := by
  intro c hc hmem
  obtain ⟨d, -, hd⟩ := List.mem_flatMap.mp hmem
  exact notMem_escapeChar d c hc hd

/-- Other characters stay. -/
theorem replace_singleton {d : Char} (h : d ≠ c) (text : List Char) :
    replace c text [d] = [d] := by
  simp [replace, h]

/-- Writing texts for several characters one after the other is writing them at once, as long as
each text is left alone by the later ones. -/
theorem replace_flatMap (text : List Char) (f : Char → List Char) (s : List Char) :
    replace c text (s.flatMap f) = s.flatMap fun x => replace c text (f x) := by
  rw [replace, List.flatMap_assoc]
  rfl

end Escape

section Read

variable {s : List Char} {inTag : Bool}

/-- A piece ends at the character that ends it. -/
theorem pieces_append (h : stop inTag ∉ s) (rest : List Char) :
    pieces inTag (s ++ stop inTag :: rest) = s :: pieces (!inTag) rest := by
  induction s with
  | nil => rw [List.nil_append, pieces, if_pos rfl]
  | cons c s ih =>
    rw [List.mem_cons, not_or] at h
    rw [List.cons_append, pieces, if_neg (Ne.symm h.1), ih h.2]
    rfl

/-- The last piece ends with the document. -/
theorem pieces_eq_singleton (h : stop inTag ∉ s) : pieces inTag s = [s] := by
  induction s with
  | nil => rfl
  | cons c s ih =>
    rw [List.mem_cons, not_or] at h
    rw [pieces, if_neg (Ne.symm h.1), ih h.2]
    rfl

/-- The pieces of a document are its texts and tags. -/
theorem pieces_write (lead : List Char) (elements : List (List Char × List Char))
    (htags : ∀ element ∈ elements, '>' ∉ element.1) :
    pieces false (escape lead ++ elements.flatMap writeElement) =
      escape lead :: elements.flatMap fun element => [element.1, escape element.2] := by
  have hlt (text : List Char) : '<' ∉ escape text := notMem_escape text '<' (by decide)
  induction elements generalizing lead with
  | nil =>
    rw [List.flatMap_nil, List.append_nil, List.flatMap_nil]
    exact pieces_eq_singleton (hlt lead)
  | cons element elements ih =>
    have htag := htags element List.mem_cons_self
    have hrest := ih element.2 fun e he => htags e (List.mem_cons_of_mem element he)
    have hsplit : (element :: elements).flatMap writeElement =
        '<' :: (element.1 ++ '>' :: (escape element.2 ++ elements.flatMap writeElement)) := by
      simp [writeElement]
    have hlead : pieces false (escape lead ++ '<' :: (element.1 ++ '>' ::
        (escape element.2 ++ elements.flatMap writeElement))) = escape lead :: pieces true
          (element.1 ++ '>' :: (escape element.2 ++ elements.flatMap writeElement)) :=
      pieces_append (hlt lead) _
    have hnext : pieces true (element.1 ++ '>' ::
        (escape element.2 ++ elements.flatMap writeElement)) =
          element.1 :: pieces false (escape element.2 ++ elements.flatMap writeElement) :=
      pieces_append htag _
    rw [hsplit, hlead, hnext, hrest]
    rfl

/-- Tags are paired with their texts again. -/
theorem pair_flatMap (elements : List (List Char × List Char)) :
    pair (elements.flatMap fun element => [element.1, escape element.2]) = elements := by
  induction elements with
  | nil => rfl
  | cons element elements ih =>
    have hcons : (element :: elements).flatMap (fun element => [element.1, escape element.2]) =
        element.1 :: escape element.2 ::
          elements.flatMap fun element => [element.1, escape element.2] := rfl
    rw [hcons, pair, unescape_escape, ih]

/-- A document is read back, whatever its texts. -/
theorem read_write (doc : Document) (htags : ∀ element ∈ doc.elements, '>' ∉ element.1) :
    read (write doc) = doc := by
  have hpieces := pieces_write doc.lead doc.elements htags
  rw [read, write, hpieces, List.headD_cons, List.tail_cons, unescape_escape, pair_flatMap]

end Read

end Markup
