/- GID: LocalDesktop/Core/StringToml
   generality: G
   digest: A TOML writer for any strings, and a reader of what it writes. -/

import LocalDesktop.Core.SavedLines

set_option autoImplicit false
set_option relaxedAutoImplicit false

namespace LocalDesktop.Core.StringToml

open Foundation.Strings Config ConfigLines SavedLines

/-- What has to be escaped inside of quotes. -/
def escape (s : Text) : Text := s.flatMap fun c => if c = '"' ∨ c = '\\' then ['\\', c] else [c]

def threeQuotes : Text := ['"', '"', '"']

/-- A string on one line between quotes; with a newline in it, between three quotes on the lines
below. -/
def writtenString (s : Text) : Text × List Text :=
  if '\n' ∈ s then (threeQuotes, (escape s ++ threeQuotes).splitOn '\n')
  else ('"' :: (escape s ++ ['"']), [])

/-- The text before a closing quote, and what follows the quote. -/
def untilQuote : Text → Option (Text × Text)
  | [] => none
  | '"' :: t => some ([], t)
  | '\\' :: c :: t => (untilQuote t).map fun r => (c :: r.1, r.2)
  | c :: t => (untilQuote t).map fun r => (c :: r.1, r.2)

/-- What follows a text that must come next. -/
def expect (word t : Text) : Option Text :=
  if word.isPrefixOf t then some (t.drop word.length) else none

/-- A newline after the three opening quotes is not part of the string. -/
def readString : Text → Option (Text × Text)
  | '"' :: '"' :: '"' :: '\n' :: t => do
      let (s, t) ← untilQuote t
      let t ← expect ['"', '"'] t
      pure (s, t)
  | '"' :: t => untilQuote t
  | _ => none

/-- An entry with the string it gives, with blanks around `=` or without. -/
def readEntry (key t : Text) : Option (Text × Text) := do
  let t ← expect key t
  match expect " = ".toList t with
  | some t => readString t
  | none => (expect "=".toList t).bind readString

def document (config : LocalConfig) : Document := [
  ("user".toList, .table [("username".toList, .string config.user.username)]),
  ("command".toList, .table [("check".toList, .string config.command.check),
    ("install".toList, .string config.command.install),
    ("launch".toList, .string config.command.launch)])]

def userHeader : Text := "[user]\n".toList

def commandHeader : Text := '\n' :: "\n[command]\n".toList

def readDocument (t : Text) : Option Document := do
  let t ← expect userHeader t
  let (username, t) ← readEntry "username".toList t
  let t ← expect commandHeader t
  let (check, t) ← readEntry "check".toList t
  let t ← expect ['\n'] t
  let (install, t) ← readEntry "install".toList t
  let t ← expect ['\n'] t
  let (launch, t) ← readEntry "launch".toList t
  if t = [] ∨ t = ['\n'] then pure (document ⟨⟨username⟩, ⟨check, install, launch⟩⟩) else none

def stringToml : Toml where
  parse := readDocument
  toString config := unlines (layoutLines keyLine writtenString config)

private theorem expect_append (word t : Text) : expect word (word ++ t) = some t := by
  simp [expect]

private theorem untilQuote_escape_cons (c : Char) (t : Text) :
    untilQuote (escape [c] ++ t) = (untilQuote t).map fun r => (c :: r.1, r.2) := by
  by_cases hquote : c = '"'
  · subst hquote
    rfl
  by_cases hslash : c = '\\'
  · subst hslash
    rfl
  simp only [escape, List.flatMap_cons, List.flatMap_nil, hquote, hslash, or_self, if_false,
    List.append_nil, List.singleton_append]
  rw [untilQuote.eq_def]
  split <;> simp_all

private theorem untilQuote_escape (s t : Text) : untilQuote (escape s ++ '"' :: t) = some
    (s, t) := by
  induction s with
  | nil => rfl
  | cons c s ih =>
    have hcons : escape (c :: s) = escape [c] ++ escape s := by simp [escape]
    rw [hcons, List.append_assoc, untilQuote_escape_cons, ih]
    rfl

def valueText (s : Text) : Text :=
  if '\n' ∈ s then threeQuotes ++ '\n' :: (escape s ++ threeQuotes)
  else '"' :: (escape s ++ ['"'])

private theorem readString_oneLine {t : Text} (h : ∀ x, t ≠ '"' :: '"' :: '\n' :: x) :
    readString ('"' :: t) = untilQuote t := by
  rw [readString.eq_def]
  split
  · rename_i x heq
    exact absurd (List.cons.inj heq).2 (h x)
  · rename_i heq
    rw [(List.cons.inj heq).2]
  · rename_i hnot
    exact absurd rfl (hnot t)

private theorem exists_escape_cons (c : Char) (s : Text) : ∃ d e, escape
    (c :: s) = d :: e ∧ d ≠ '"' := by
  by_cases hc : c = '"' ∨ c = '\\'
  · refine ⟨'\\', c :: escape s, ?_, by decide⟩
    rw [escape, List.flatMap_cons, if_pos hc]
    rfl
  · refine ⟨c, escape s, ?_, fun h => hc (Or.inl h)⟩
    rw [escape, List.flatMap_cons, if_neg hc]
    rfl

private theorem readString_valueText (s : Text) {t : Text} (ht : t.head? ≠ some '"') :
    readString (valueText s ++ t) = some (s, t) := by
  unfold valueText
  split
  · have huntil := untilQuote_escape s ('"' :: '"' :: t)
    have hexpect : expect ['"', '"'] ('"' :: '"' :: t) = some t := expect_append ['"', '"'] t
    simp only [threeQuotes, List.cons_append, List.nil_append, List.append_assoc, readString, huntil,
      Option.bind_eq_bind, Option.bind_some, hexpect]
    rfl
  · have hone : ∀ x, escape s ++ '"' :: t ≠ '"' :: '"' :: '\n' :: x := by
      intro x heq
      cases s with
      | nil =>
        simp only [escape, List.flatMap_nil, List.nil_append, List.cons.injEq, true_and] at heq
        simp [heq] at ht
      | cons c s =>
        obtain ⟨d, e, hesc, hne⟩ := exists_escape_cons c s
        rw [hesc] at heq
        exact hne (List.cons.inj heq).1
    rw [List.cons_append, List.append_assoc, List.singleton_append, readString_oneLine hone,
      untilQuote_escape]

private theorem readEntry_spaced (key s : Text) {t : Text} (ht : t.head? ≠ some '"') :
    readEntry key (keyLine key (valueText s) ++ t) = some (s, t) := by
  have hline : keyLine key (valueText s) ++ t = key ++ (" = ".toList ++ (valueText s ++ t)) := by
    simp [keyLine]
  simp only [readEntry, hline, expect_append, Option.bind_eq_bind, Option.bind_some,
    readString_valueText s ht]

private theorem readEntry_tight (key s : Text) {t : Text} (ht : t.head? ≠ some '"') :
    readEntry key (entryLine key (valueText s) ++ t) = some (s, t) := by
  have hline : entryLine key (valueText s) ++ t = key ++ ("=".toList ++ (valueText s ++ t)) := by
    simp [entryLine]
  have hspaced : expect " = ".toList ("=".toList ++ (valueText s ++ t)) = none := rfl
  simp only [readEntry, hline, expect_append, Option.bind_eq_bind, Option.bind_some, hspaced,
    readString_valueText s ht]

def commandText (line : Text → Text → Text) (command : CommandConfig) (t : Text) : Text :=
  line "check".toList (valueText command.check) ++
    (['\n'] ++ (line "install".toList (valueText command.install) ++
      (['\n'] ++ (line "launch".toList (valueText command.launch) ++ t))))

/-- The written document before some rest, for a way to write the first line of an entry. -/
def documentText (line : Text → Text → Text) (config : LocalConfig) (t : Text) : Text :=
  userHeader ++ (line "username".toList (valueText config.user.username) ++
    (commandHeader ++ commandText line config.command t))

/-- A way to write an entry that the reader understands. -/
def Readable (line : Text → Text → Text) : Prop :=
  ∀ (key s t : Text), t.head? ≠ some '"' → readEntry key (line key (valueText s) ++ t) = some (s, t)

private theorem readDocument_documentText {line : Text → Text → Text} (hline : Readable line)
    (config : LocalConfig) {t : Text} (ht : t = [] ∨ t = ['\n']) :
    readDocument (documentText line config t) = some (document config) := by
  have hlast : t.head? ≠ some '"' := by
    rcases ht with rfl | rfl <;> decide
  have hbreak : ∀ x, (['\n'] ++ x).head? ≠ some '"' := by simp
  have htable : ∀ x, (commandHeader ++ x).head? ≠ some '"' := by
    intro x
    show some '\n' ≠ some '"'
    decide
  unfold readDocument documentText commandText
  simp only [Option.bind_eq_bind]
  rw [expect_append, Option.bind_some, hline _ _ _ (htable _), Option.bind_some,
    expect_append, Option.bind_some, hline _ _ _ (hbreak _), Option.bind_some,
    expect_append, Option.bind_some, hline _ _ _ (hbreak _), Option.bind_some,
    expect_append, Option.bind_some, hline _ _ _ hlast, Option.bind_some, if_pos ht]
  rfl

private theorem deserialize_document (config : LocalConfig) :
    LocalConfig.deserialize (document config) = some config := rfl

/-- A way to write an entry with the value at its end. -/
def Trailing (line : Text → Text → Text) : Prop :=
  ∀ key v w, line key v ++ w = line key (v ++ w)

private theorem trailing_keyLine : Trailing keyLine := by
  intro key v w
  simp [keyLine]

private theorem trailing_entryLine : Trailing entryLine := by
  intro key v w
  simp [entryLine]

private theorem unlines_valueLines {line : Text → Text → Text} (hline : Trailing line)
    (key s : Text) :
    unlines (valueLines line key (writtenString s)) = line key (valueText s) ++ ['\n'] := by
  unfold valueLines writtenString valueText
  split
  · have hsplit : unlines ((escape s ++ threeQuotes).splitOn '\n') =
        escape s ++ threeQuotes ++ ['\n'] := by
      rw [unlines_eq_join (List.splitOn_ne_nil _ _), join, List.intercalate_splitOn]
    rw [unlines_cons, hsplit, hline, hline]
    simp
  · simp [unlines]

private theorem documentText_append (line : Text → Text → Text) (config : LocalConfig)
    (t u : Text) :
    documentText line config (t ++ u) = documentText line config t ++ u := by
  simp only [documentText, commandText, List.append_assoc]

private theorem unlines_layoutLines {line : Text → Text → Text} (hline : Trailing line)
    (config : LocalConfig) :
    unlines (layoutLines line writtenString config) = documentText line config ['\n'] := by
  have huser : unlines ["[user]".toList] = userHeader := by decide
  have hcommand : ['\n'] ++ unlines [[], "[command]".toList] = commandHeader := by decide
  simp only [layoutLines, documentText, commandText, unlines_append, unlines_valueLines hline,
    huser, ← hcommand, List.append_assoc]

private theorem join_layoutLines {line : Text → Text → Text} (hline : Trailing line)
    (config : LocalConfig) :
    join (layoutLines line writtenString config) = documentText line config [] := by
  have hne : layoutLines line writtenString config ≠ [] := by simp [layoutLines]
  have hunlines := unlines_eq_join hne
  rw [unlines_layoutLines hline, ← List.nil_append ['\n'], documentText_append] at hunlines
  exact (List.append_cancel_right hunlines).symm

/-! What is written has the shape that is assumed of TOML. -/

private theorem newline_not_mem_escape {s : Text} (h : '\n' ∉ s) : '\n' ∉ escape s := by
  intro hmem
  obtain ⟨c, hc, hesc⟩ := List.mem_flatMap.mp hmem
  have hne : '\n' ≠ c := fun heq => h (heq ▸ hc)
  split at hesc
  · simp [hne] at hesc
  · exact hne (List.mem_singleton.mp hesc)

private theorem not_mem_of_mem_splitOn {c : Char} {t l : Text} (h : l ∈ t.splitOn c) : c ∉ l := by
  induction t generalizing l with
  | nil =>
    rw [List.splitOn_nil, List.mem_singleton] at h
    simp [h]
  | cons d t ih =>
    rw [List.splitOn_cons_eq_if_modifyHead] at h
    obtain ⟨x, xs, hsplit⟩ := List.exists_cons_of_ne_nil (List.splitOn_ne_nil c t)
    rw [hsplit] at h ih
    split at h
    · rcases List.mem_cons.mp h with rfl | h
      · exact List.not_mem_nil
      · exact ih h
    · rename_i hne
      rcases List.mem_cons.mp h with rfl | h
      · have hx := ih List.mem_cons_self
        have hd : c ≠ d := fun heq => hne (by simp [heq])
        simp [hx, hd]
      · exact ih (List.mem_cons_of_mem _ h)

private theorem broken_writtenString (s : Text) : Broken (writtenString s) := by
  unfold writtenString
  split
  · exact ⟨show '\n' ∉ threeQuotes by decide, fun l hl => not_mem_of_mem_splitOn hl⟩
  · rename_i h
    have hesc := newline_not_mem_escape h
    exact ⟨by simp [hesc], by simp⟩

private theorem visible_writtenString (s : Text) : Visible (writtenString s).1 := by
  unfold writtenString
  split
  · exact ⟨show threeQuotes ≠ [] by decide, show Trimmed threeQuotes by decide⟩
  · exact visible_quoted (escape s)

theorem restores_stringToml (config : LocalConfig) :
    Restores stringToml writtenString config where
  saved := rfl
  broken := ⟨broken_writtenString _, broken_writtenString _, broken_writtenString _,
    broken_writtenString _⟩
  visible := ⟨visible_writtenString _, visible_writtenString _, visible_writtenString _,
    visible_writtenString _⟩
  readsBack := by
    have hread := readDocument_documentText readEntry_spaced config (Or.inr rfl)
    rw [← unlines_layoutLines trailing_keyLine] at hread
    exact (congrArg (·.bind LocalConfig.deserialize) hread).trans (deserialize_document config)
  readsTight := by
    have hread := readDocument_documentText readEntry_tight config (Or.inl rfl)
    rw [← join_layoutLines trailing_entryLine] at hread
    exact (congrArg (·.bind LocalConfig.deserialize) hread).trans (deserialize_document config)

end LocalDesktop.Core.StringToml
