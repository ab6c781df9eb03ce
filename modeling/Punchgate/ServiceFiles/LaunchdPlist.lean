import Punchgate.ServiceFiles

/-!
# The property list of the background service

On macOS the daemon is started from a property list, a document in markup with the paths and the
environment in it. Whatever characters these have, a reader finds the tags of the template, and in
them the paths and the environment as they were given. The reader of the service manager is a
parameter.
-/

namespace Punchgate

section Definitions

/-- `xml_escape`. -/
def xmlEscape (input : List Char) : List Char :=
  Markup.replace '\'' "&apos;".toList <| Markup.replace '"' "&quot;".toList <|
    Markup.replace '>' "&gt;".toList <| Markup.replace '<' "&lt;".toList <|
      Markup.replace '&' "&amp;".toList input

/-- The environment of `render_launchd_plist`, entry by entry. -/
def plistEntries (entries : List (List Char × List Char)) : List Char :=
  entries.flatMap fun e =>
    "    <key>".toList ++ xmlEscape e.1 ++ "</key>\n    <string>".toList ++ xmlEscape e.2 ++
      "</string>\n".toList

/-- Up to the path of the executable. -/
def plistHead : List Char :=
  "<?xml version=\"1.0\" encoding=\"UTF-8\"?>\n".toList ++
    "<!DOCTYPE plist PUBLIC \"-//Apple//DTD PLIST 1.0//EN\" ".toList ++
    "\"http://www.apple.com/DTDs/PropertyList-1.0.dtd\">\n".toList ++
    "<plist version=\"1.0\">\n<dict>\n  <key>Label</key>\n".toList ++
    "  <string>com.punchgate.daemon</string>\n\n  <key>ProgramArguments</key>\n".toList ++
    "  <array>\n    <string>".toList

/-- From the path of the executable to the environment. -/
def plistMiddle : List Char :=
  "</string>\n  </array>\n\n  <key>RunAtLoad</key>\n  <true/>\n".toList ++
    "  <key>KeepAlive</key>\n  <true/>\n\n".toList ++
    "  <key>EnvironmentVariables</key>\n  <dict>\n".toList

/-- `render_launchd_plist`. -/
def renderLaunchdPlist (exe logOut logErr : List Char)
    (envs : SortedMap (List Char) (List Char)) : List Char :=
  plistHead ++ xmlEscape exe ++ plistMiddle ++ plistEntries envs.entries ++
    "  </dict>\n\n  <key>StandardOutPath</key>\n  <string>".toList ++ xmlEscape logOut ++
    "</string>\n  <key>StandardErrorPath</key>\n  <string>".toList ++ xmlEscape logErr ++
    "</string>\n</dict>\n</plist>\n".toList

end Definitions

/-! ## The document -/

section Document

/-- How far the next line of the environment is indented. -/
def indent (last : Bool) : List Char := if last then "  ".toList else "    ".toList

/-- The tags up to the path of the executable. -/
def headElements : List (List Char × List Char) :=
  [("?xml version=\"1.0\" encoding=\"UTF-8\"?".toList, "\n".toList),
    ("!DOCTYPE plist PUBLIC \"-//Apple//DTD PLIST 1.0//EN\" ".toList ++
      "\"http://www.apple.com/DTDs/PropertyList-1.0.dtd\"".toList, "\n".toList),
    ("plist version=\"1.0\"".toList, "\n".toList), ("dict".toList, "\n  ".toList),
    ("key".toList, "Label".toList), ("/key".toList, "\n  ".toList),
    ("string".toList, "com.punchgate.daemon".toList), ("/string".toList, "\n\n  ".toList),
    ("key".toList, "ProgramArguments".toList), ("/key".toList, "\n  ".toList),
    ("array".toList, "\n    ".toList)]

/-- The tags between the path of the executable and the name of the environment. -/
def runElements : List (List Char × List Char) :=
  [("/string".toList, "\n  ".toList), ("/array".toList, "\n\n  ".toList),
    ("key".toList, "RunAtLoad".toList), ("/key".toList, "\n  ".toList),
    ("true/".toList, "\n  ".toList), ("key".toList, "KeepAlive".toList),
    ("/key".toList, "\n  ".toList), ("true/".toList, "\n\n  ".toList)]

/-- The tags before the entries of the environment. -/
def nameElements (last : Bool) : List (List Char × List Char) :=
  [("key".toList, "EnvironmentVariables".toList), ("/key".toList, "\n  ".toList),
    ("dict".toList, '\n' :: indent last)]

/-- The tags of the environment. -/
def envElements : List (List Char × List Char) → List (List Char × List Char)
  | [] => []
  | e :: entries =>
    ("key".toList, e.1) :: ("/key".toList, "\n    ".toList) :: ("string".toList, e.2) ::
      ("/string".toList, '\n' :: indent entries.isEmpty) :: envElements entries

/-- The tags between the environment and the first log. -/
def outElements : List (List Char × List Char) :=
  [("/dict".toList, "\n\n  ".toList), ("key".toList, "StandardOutPath".toList),
    ("/key".toList, "\n  ".toList)]

/-- The tags between the logs. -/
def errElements : List (List Char × List Char) :=
  [("/string".toList, "\n  ".toList), ("key".toList, "StandardErrorPath".toList),
    ("/key".toList, "\n  ".toList)]

/-- The tags after the logs. -/
def endElements : List (List Char × List Char) :=
  [("/string".toList, "\n".toList), ("/dict".toList, "\n".toList), ("/plist".toList, "\n".toList)]

/-- The document with these paths and this environment. -/
def plistDocument (exe logOut logErr : List Char) (entries : List (List Char × List Char)) :
    Markup.Document where
  lead := []
  elements := headElements ++ ("string".toList, exe) :: (runElements ++
    (nameElements entries.isEmpty ++ (envElements entries ++ (outElements ++
      ("string".toList, logOut) :: (errElements ++ ("string".toList, logErr) :: endElements)))))

end Document

section Escape

/-- The five replacements one after the other are one for each character. -/
theorem xmlEscape_eq (s : List Char) : xmlEscape s = Markup.escape s := by
  have hfirst : Markup.replace '&' "&amp;".toList s =
      s.flatMap fun x => if x = '&' then "&amp;".toList else [x] := rfl
  simp only [xmlEscape, hfirst, Markup.replace_flatMap, Markup.escape]
  congr 1
  funext x
  unfold Markup.escapeChar
  split_ifs with hamp hlt hgt hquot hapos
  · decide
  · rw [hlt]; decide
  · rw [hgt]; decide
  · rw [hquot]; decide
  · rw [hapos]; decide
  · rw [Markup.replace_singleton hlt, Markup.replace_singleton hgt,
      Markup.replace_singleton hquot, Markup.replace_singleton hapos]

end Escape

section Write

variable {exe logOut logErr text : List Char} {entries : List (List Char × List Char)}

/-- A string and what is written for it. -/
theorem writeElement_string (text : List Char) :
    Markup.writeElement ("string".toList, text) = "<string>".toList ++ Markup.escape text := by
  have htag : "<string>".toList = '<' :: ("string".toList ++ ['>']) := by decide
  rw [htag, Markup.writeElement]
  simp

/-- The template up to the path of the executable. -/
theorem write_headElements :
    headElements.flatMap Markup.writeElement ++ "<string>".toList = plistHead := by
  decide +kernel

/-- The template between the path and the environment. -/
theorem write_middleElements (last : Bool) (rest : List Char) :
    runElements.flatMap Markup.writeElement ++
      ((nameElements last).flatMap Markup.writeElement ++ rest) =
        plistMiddle ++ (indent last ++ rest) := by
  have hall : ∀ last, runElements.flatMap Markup.writeElement ++
      (nameElements last).flatMap Markup.writeElement = plistMiddle ++ indent last := by
    decide +kernel
  rw [← List.append_assoc, hall, List.append_assoc]

/-- The entries of the environment between their indentation and that of what follows. -/
theorem write_envElements (entries : List (List Char × List Char)) :
    indent entries.isEmpty ++ (envElements entries).flatMap Markup.writeElement =
      plistEntries entries ++ "  ".toList := by
  induction entries with
  | nil => rfl
  | cons e entries ih =>
    have hkey : "    <key>".toList = "    ".toList ++ '<' :: ("key".toList ++ ['>']) := by decide
    have hbetween : "</key>\n    <string>".toList = Markup.writeElement ("/key".toList,
        "\n    ".toList) ++ '<' :: ("string".toList ++ ['>']) := by
      decide
    have hend : "</string>\n".toList = '<' :: ("/string".toList ++ ['>', '\n']) := by decide
    have hindent (last : Bool) : Markup.escape ('\n' :: indent last) = '\n' :: indent last := by
      revert last
      decide
    have hfirst : indent (e :: entries).isEmpty = "    ".toList := rfl
    have hentries : plistEntries (e :: entries) = "    <key>".toList ++ xmlEscape e.1 ++
        "</key>\n    <string>".toList ++ xmlEscape e.2 ++ "</string>\n".toList ++
          plistEntries entries := rfl
    rw [hentries, List.append_assoc _ (plistEntries entries), ← ih, envElements, hfirst]
    simp only [List.flatMap_cons, hkey, hbetween, hend, xmlEscape_eq, Markup.writeElement, hindent,
      List.append_assoc, List.cons_append, List.nil_append]

/-- The template between the environment and the first log. -/
theorem write_outElements :
    "  ".toList ++ (outElements.flatMap Markup.writeElement ++ "<string>".toList) =
      "  </dict>\n\n  <key>StandardOutPath</key>\n  <string>".toList := by
  decide +kernel

/-- The template between the logs. -/
theorem write_errElements : errElements.flatMap Markup.writeElement ++ "<string>".toList =
    "</string>\n  <key>StandardErrorPath</key>\n  <string>".toList := by
  decide +kernel

/-- The template after the logs. -/
theorem write_endElements : endElements.flatMap Markup.writeElement =
    "</string>\n</dict>\n</plist>\n".toList := by
  decide +kernel

/-- The property list is the text of the document. -/
theorem renderLaunchdPlist_eq (envs : SortedMap (List Char) (List Char)) :
    renderLaunchdPlist exe logOut logErr envs =
      Markup.write (plistDocument exe logOut logErr envs.entries) := by
  have henv (rest : List Char) : plistEntries envs.entries ++ ("  ".toList ++ rest) =
      indent envs.entries.isEmpty ++ ((envElements envs.entries).flatMap Markup.writeElement ++
        rest) := by
    rw [← List.append_assoc, ← write_envElements, List.append_assoc]
  rw [renderLaunchdPlist, ← write_headElements, ← write_outElements, ← write_errElements,
    ← write_endElements]
  simp only [Markup.write, plistDocument, List.flatMap_append, List.flatMap_cons,
    writeElement_string, write_middleElements, xmlEscape_eq, List.append_assoc, henv]
  rfl

end Write

section Read

variable {entries : List (List Char × List Char)}

/-- The entries of an environment, as they stand one after the other in a dictionary. -/
def readEnvironment : List (List Char × List Char) → List (List Char × List Char)
  | key :: _ :: value :: _ :: rest =>
    if key.1 = "key".toList ∧ value.1 = "string".toList then
      (key.2, value.2) :: readEnvironment rest
    else []
  | _ => []

/-- The environment in a property list. -/
def plistEnvironment (doc : Markup.Document) : List (List Char × List Char) :=
  readEnvironment ((doc.elements.dropWhile
    fun e => e ≠ ("key".toList, "EnvironmentVariables".toList)).drop 3)

/-- What a reader of property lists promises: the variables of the environment in one like ours have
their values, as long as their names differ and all texts are plain. -/
def PlistReads (read : List Char → List Char → Option (List Char)) : Prop :=
  ∀ exe logOut logErr entries, Markup.IsPlain exe → Markup.IsPlain logOut → Markup.IsPlain logErr →
    (∀ e ∈ entries, Markup.IsPlain e.1 ∧ Markup.IsPlain e.2) → (entries.map Prod.fst).Nodup →
      ∀ name, read (Markup.write (plistDocument exe logOut logErr entries)) name =
        SortedMap.lookup name entries

/-- Entries are read until the dictionary ends. -/
theorem readEnvironment_envElements (entries rest : List (List Char × List Char))
    (h : readEnvironment rest = []) :
    readEnvironment (envElements entries ++ rest) = entries := by
  induction entries with
  | nil => exact h
  | cons e entries ih =>
    rw [envElements]
    change (if _ then e :: readEnvironment (envElements entries ++ rest) else []) = _
    rw [if_pos ⟨rfl, rfl⟩, ih]

/-- The tags of the environment have no closing bracket. -/
theorem notMem_envElements (entries : List (List Char × List Char)) :
    ∀ element ∈ envElements entries, '>' ∉ element.1 := by
  induction entries with
  | nil => exact fun element h => absurd h List.not_mem_nil
  | cons e entries ih =>
    rw [envElements]
    simp only [List.forall_mem_cons]
    exact ⟨by decide, by decide, by decide, by decide, ih⟩

/-- The tags have no closing bracket. -/
theorem notMem_tags (exe logOut logErr : List Char) (entries : List (List Char × List Char)) :
    ∀ element ∈ (plistDocument exe logOut logErr entries).elements, '>' ∉ element.1 := by
  have hname : ∀ last, ∀ element ∈ nameElements last, '>' ∉ element.1 := by decide
  have hstring : '>' ∉ "string".toList := by decide
  simp only [plistDocument, List.forall_mem_append, List.forall_mem_cons]
  exact ⟨by decide, hstring, by decide, hname _, notMem_envElements entries, by decide, hstring,
    by decide, hstring, by decide⟩

/-- The environment in the document is the one that was given. -/
theorem plistEnvironment_plistDocument (exe logOut logErr : List Char)
    (entries : List (List Char × List Char)) :
    plistEnvironment (plistDocument exe logOut logErr entries) = entries := by
  -- what comes before the name of the environment is something else
  have hfront : ∀ e ∈ headElements ++ ("string".toList, exe) :: runElements,
      decide (e ≠ ("key".toList, "EnvironmentVariables".toList)) = true := by
    have hstring : "string".toList ≠ "key".toList := by decide
    rw [List.forall_mem_append, List.forall_mem_cons]
    exact ⟨by decide, decide_eq_true fun heq => hstring (congrArg Prod.fst heq), by decide⟩
  have hsplit : (plistDocument exe logOut logErr entries).elements =
      (headElements ++ ("string".toList, exe) :: runElements) ++
        (nameElements entries.isEmpty ++ (envElements entries ++ (outElements ++
          ("string".toList, logOut) :: (errElements ++ ("string".toList, logErr) ::
            endElements)))) := by
    simp [plistDocument]
  rw [plistEnvironment, hsplit, List.dropWhile_append_of_pos hfront]
  exact readEnvironment_envElements entries _ rfl

/-- The reader of markup keeps the promise. -/
theorem plistReads_read : PlistReads fun text name =>
    SortedMap.lookup name (plistEnvironment (Markup.read text)) := by
  intro exe logOut logErr entries _ _ _ _ _ name
  dsimp only
  rw [Markup.read_write _ (notMem_tags exe logOut logErr entries), plistEnvironment_plistDocument]

/-- **Nothing is injected.** Whatever characters the paths and the environment have, a reader of the
property list finds the tags of the template with the paths and the environment in them, and it
finds the environment that was given. The reader keeps control characters and carriage returns,
which an XML reader refuses or normalises: for such a reader this is about texts without them. -/
theorem plist_carries_environment (exe logOut logErr : List Char)
    (envs : SortedMap (List Char) (List Char)) :
    Markup.read (renderLaunchdPlist exe logOut logErr envs) =
        plistDocument exe logOut logErr envs.entries ∧
      plistEnvironment (Markup.read (renderLaunchdPlist exe logOut logErr envs)) =
        envs.entries := by
  have hread : Markup.read (renderLaunchdPlist exe logOut logErr envs) =
      plistDocument exe logOut logErr envs.entries := by
    rw [renderLaunchdPlist_eq]
    exact Markup.read_write _ (notMem_tags exe logOut logErr envs.entries)
  refine ⟨hread, ?_⟩
  rw [hread, plistEnvironment_plistDocument]

end Read

end Punchgate
