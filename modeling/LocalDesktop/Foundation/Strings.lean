/- GID: LocalDesktop/Foundation/Strings
   generality: G
   digest: The string operations of the Rust standard library on lists of characters. -/

import Mathlib.Data.List.DropRight
import Mathlib.Data.List.Basic

set_option autoImplicit false
set_option relaxedAutoImplicit false

namespace LocalDesktop.Foundation.Strings

/-- A Rust string, as the sequence of its scalar values. -/
abbrev Text := List Char

/-- `char::is_whitespace`: the Unicode property White_Space. -/
def isWhitespace (c : Char) : Bool :=
  (9 ≤ c.toNat && c.toNat ≤ 13) || c.toNat == 0x20 || c.toNat == 0x85 || c.toNat == 0xA0 ||
    c.toNat == 0x1680 || (0x2000 ≤ c.toNat && c.toNat ≤ 0x200A) || c.toNat == 0x2028 ||
    c.toNat == 0x2029 || c.toNat == 0x202F || c.toNat == 0x205F || c.toNat == 0x3000

def trim (t : Text) : Text := (t.dropWhile isWhitespace).rdropWhile isWhitespace

/-- A text that `trim` leaves alone: neither end is a blank. -/
def Trimmed (t : Text) : Prop :=
  (∀ c ∈ t.head?, isWhitespace c = false) ∧ ∀ c ∈ t.getLast?, isWhitespace c = false

-- Only the two ends are looked at, not every character there is.
instance trimmedDecidable (t : Text) : Decidable (Trimmed t) :=
  @instDecidableAnd _ _ (Option.decidableForallMem _) (Option.decidableForallMem _)

/-- `str::split_once` for a one-character pattern. -/
def splitOnce (sep : Char) : Text → Option (Text × Text)
  | [] => none
  | c :: t => if c = sep then some ([], t) else (splitOnce sep t).map fun p => (c :: p.1, p.2)

/-- A line ending is a line feed with at most one carriage return before it. -/
def stripCarriageReturn (line : Text) : Text :=
  if line.getLast? = some '\r' then line.dropLast else line

private def linesFrom : Text → Text → List Text
  | [], current => if current = [] then [] else [current]
  | c :: t, current =>
      if c = '\n' then stripCarriageReturn current :: linesFrom t []
      else linesFrom t (current ++ [c])

/-- `str::lines`: a last line needs no terminator, and an empty one is not reported. -/
def lines (t : Text) : List Text := linesFrom t []

/-- What `writeln!` leaves behind when each line is written in turn. -/
def unlines (ls : List Text) : Text := ls.flatMap (· ++ ['\n'])

def join (ls : List Text) : Text := List.intercalate ['\n'] ls

@[simp] theorem unlines_nil : unlines [] = [] := rfl

@[simp] theorem unlines_cons (l : Text) (ls : List Text) :
    unlines (l :: ls) = l ++ '\n' :: unlines ls := by
  simp [unlines]

theorem unlines_append (ls ls' : List Text) : unlines (ls ++ ls') = unlines ls ++ unlines ls' := by
  simp [unlines]

theorem unlines_eq_join {ls : List Text} (h : ls ≠ []) : unlines ls = join ls ++ ['\n'] := by
  induction ls with
  | nil => exact absurd rfl h
  | cons l ls ih =>
    cases ls with
    | nil => simp [unlines, join]
    | cons l' ls =>
      rw [unlines_cons, ih (List.cons_ne_nil _ _)]
      unfold join
      rw [List.intercalate_cons_cons]
      simp

theorem join_concat_nil (ls : List Text) : join (ls ++ [[]]) = unlines ls := by
  induction ls with
  | nil => rfl
  | cons l ls ih =>
    have hcons : join (l :: ls ++ [[]]) = l ++ ['\n'] ++ join (ls ++ [[]]) := by
      cases ls <;> simp [join, List.intercalate]
    rw [hcons, ih]
    simp [unlines]

theorem splitOnce_eq_some {sep : Char} {t k v : Text} :
    splitOnce sep t = some (k, v) ↔ t = k ++ sep :: v ∧ sep ∉ k := by
  induction t generalizing k with
  | nil => simp [splitOnce]
  | cons c t ih =>
    by_cases hc : c = sep
    · subst hc
      cases k with
      | nil => simp [splitOnce, eq_comm]
      | cons d k => simp +contextual [splitOnce]
    · cases k with
      | nil => simp [splitOnce, hc]
      | cons d k =>
        have hsep : ¬sep = c := fun h => hc h.symm
        simp only [splitOnce, if_neg hc, Option.map_eq_some_iff, Prod.exists, Prod.mk.injEq,
          List.cons.injEq, List.cons_append, List.mem_cons, not_or]
        constructor
        · rintro ⟨k', v', h, ⟨rfl, rfl⟩, rfl⟩
          obtain ⟨rfl, hk⟩ := ih.mp h
          exact ⟨⟨rfl, rfl⟩, hsep, hk⟩
        · rintro ⟨⟨rfl, rfl⟩, -, hk⟩
          exact ⟨k, v, ih.mpr ⟨rfl, hk⟩, ⟨rfl, rfl⟩, rfl⟩

theorem splitOnce_eq_none {sep : Char} {t : Text} : splitOnce sep t = none ↔ sep ∉ t := by
  induction t with
  | nil => simp [splitOnce]
  | cons c t ih =>
    by_cases hc : c = sep
    · simp [splitOnce, hc]
    · have hsep : ¬sep = c := fun h => hc h.symm
      simp [splitOnce, hc, hsep, ih]

theorem trim_eq_self {t : Text} (h : Trimmed t) : trim t = t := by
  have hfront : t.dropWhile isWhitespace = t := by
    cases t with
    | nil => rfl
    | cons c t => exact List.dropWhile_cons_of_neg (by simp [h.1 c rfl])
  rw [trim, hfront, List.rdropWhile_eq_self_iff]
  intro hne
  simp [h.2 (t.getLast hne) (List.getLast?_eq_getLast_of_ne_nil hne)]

private theorem head?_of_prefix {s t : Text} (h : s <+: t) {c : Char} (hc : c ∈ s.head?) :
    c ∈ t.head? := by
  obtain ⟨r, rfl⟩ := h
  cases s with
  | nil => simp at hc
  | cons d s => simpa using hc

theorem trimmed_trim (t : Text) : Trimmed (trim t) := by
  constructor
  · intro c hc
    have hhead := head?_of_prefix (List.rdropWhile_prefix _ _) hc
    have hnot := List.head?_dropWhile_not isWhitespace t
    rw [Option.mem_def.mp hhead] at hnot
    simpa using hnot
  · intro c hc
    have hne : trim t ≠ [] := by
      intro hnil
      simp [hnil] at hc
    have hlast := List.rdropWhile_last_not isWhitespace (t.dropWhile isWhitespace) hne
    have hcl : c = (trim t).getLast hne := by
      rw [List.getLast?_eq_getLast_of_ne_nil hne] at hc
      exact (Option.some.inj hc).symm
    rw [hcl]
    simpa [trim] using hlast

@[simp] theorem trim_trim (t : Text) : trim (trim t) = trim t := trim_eq_self (trimmed_trim t)

theorem exists_trim (t : Text) :
    ∃ a b : Text, a.all isWhitespace = true ∧ b.all isWhitespace = true ∧
      t = a ++ trim t ++ b := by
  refine ⟨t.takeWhile isWhitespace,
    (t.dropWhile isWhitespace).rtakeWhile isWhitespace, ?_, ?_, ?_⟩
  · rw [List.all_eq_true]
    exact fun c hc => List.mem_takeWhile_imp hc
  · rw [List.all_eq_true]
    exact fun c hc => List.mem_rtakeWhile_imp hc
  · rw [trim, List.append_assoc, List.rdropWhile_append_rtakeWhile,
      List.takeWhile_append_dropWhile]

private theorem trim_sublist (t : Text) : (trim t).Sublist t :=
  (List.rdropWhile_prefix _ _).sublist.trans (List.dropWhile_suffix _).sublist

theorem mem_of_mem_trim {c : Char} {t : Text} (h : c ∈ trim t) : c ∈ t := (trim_sublist t).subset h

theorem trimmed_append_cons {k v : Text} {sep : Char} (hsep : isWhitespace sep = false)
    (hk : Trimmed k) (hv : Trimmed v) : Trimmed (k ++ sep :: v) := by
  constructor
  · cases k with
    | nil => simpa using hsep
    | cons c k => simpa using hk.1
  · cases v using List.reverseRecOn with
    | nil => simpa using hsep
    | append_singleton v c =>
      intro d hd
      rw [← List.cons_append, ← List.append_assoc, List.getLast?_concat] at hd
      exact hv.2 d (by rw [List.getLast?_concat]; exact hd)

theorem getLast?_trim_ne {t : Text} {c : Char} (hc : isWhitespace c = true) :
    (trim t).getLast? ≠ some c := by
  intro h
  have hnot := (trimmed_trim t).2 c h
  rw [hc] at hnot
  exact Bool.noConfusion hnot

/-- What a line of the written file must look like to be read back as it is. -/
def WholeLine (l : Text) : Prop := '\n' ∉ l ∧ l.getLast? ≠ some '\r'

instance wholeLineDecidable (l : Text) : Decidable (WholeLine l) :=
  inferInstanceAs (Decidable (_ ∧ _))

private theorem linesFrom_append {l : Text} (h : '\n' ∉ l) (rest current : Text) :
    linesFrom (l ++ '\n' :: rest) current =
      stripCarriageReturn (current ++ l) :: linesFrom rest [] := by
  induction l generalizing current with
  | nil => simp [linesFrom]
  | cons c l ih =>
    simp only [List.mem_cons, not_or] at h
    have hc : c ≠ '\n' := fun e => h.1 e.symm
    rw [List.cons_append, linesFrom, if_neg hc, ih h.2]
    simp

private theorem linesFrom_last {l : Text} (h : '\n' ∉ l) (current : Text) :
    linesFrom l current = if current ++ l = [] then [] else [current ++ l] := by
  induction l generalizing current with
  | nil => simp [linesFrom]
  | cons c l ih =>
    simp only [List.mem_cons, not_or] at h
    have hc : c ≠ '\n' := fun e => h.1 e.symm
    rw [linesFrom, if_neg hc, ih h.2]
    simp

theorem lines_unlines_append {ls : List Text} (h : ∀ l ∈ ls, WholeLine l) (t : Text) :
    lines (unlines ls ++ t) = ls ++ lines t := by
  induction ls with
  | nil => rfl
  | cons l ls ih =>
    have hl := h l List.mem_cons_self
    have hrest := ih fun l' hl' => h l' (List.mem_cons_of_mem _ hl')
    rw [unlines_cons, List.append_assoc, List.cons_append, lines, linesFrom_append hl.1,
      List.nil_append, stripCarriageReturn, if_neg hl.2, List.cons_append, ← hrest, lines]

theorem lines_unlines {ls : List Text} (h : ∀ l ∈ ls, WholeLine l) : lines (unlines ls) = ls := by
  have hlines := lines_unlines_append h []
  rwa [List.append_nil, show lines [] = [] from rfl, List.append_nil] at hlines

private theorem newline_not_mem_of_mem_linesFrom {t current l : Text} (hcurrent : '\n' ∉ current)
    (h : l ∈ linesFrom t current) : '\n' ∉ l := by
  induction t generalizing current with
  | nil =>
    by_cases hnil : current = []
    · simp [linesFrom, hnil] at h
    · simp only [linesFrom, if_neg hnil, List.mem_singleton] at h
      rwa [h]
  | cons c t ih =>
    by_cases hc : c = '\n'
    · simp only [linesFrom, if_pos hc, List.mem_cons] at h
      rcases h with rfl | h
      · intro hmem
        apply hcurrent
        unfold stripCarriageReturn at hmem
        split at hmem
        · exact List.dropLast_subset _ hmem
        · exact hmem
      · exact ih List.not_mem_nil h
    · rw [linesFrom, if_neg hc] at h
      refine ih ?_ h
      simp [hcurrent, Ne.symm hc]

theorem newline_not_mem_of_mem_lines {t l : Text} (h : l ∈ lines t) : '\n' ∉ l :=
  newline_not_mem_of_mem_linesFrom List.not_mem_nil h

theorem trim_cons_blank (l : Text) {c : Char} (hc : isWhitespace c = true) :
    trim (c :: l) = trim l := by
  rw [trim, List.dropWhile_cons_of_pos hc, trim]

theorem trim_concat_blank (l : Text) {c : Char} (hc : isWhitespace c = true) :
    trim (l ++ [c]) = trim l := by
  unfold trim
  rw [List.dropWhile_append]
  split
  · rename_i hnil
    have hl : l.dropWhile isWhitespace = [] := by simpa using hnil
    simp [hl, hc]
  · exact List.rdropWhile_concat_pos _ _ _ hc

private theorem trim_stripCarriageReturn (l : Text) : trim (stripCarriageReturn l) = trim l := by
  unfold stripCarriageReturn
  split
  · rename_i hlast
    conv_rhs => rw [← List.dropLast_append_getLast? '\r' hlast]
    exact (trim_concat_blank _ (by decide)).symm
  · rfl

private def splitFrom : Text → Text → List Text
  | [], current => if current = [] then [] else [current]
  | c :: t, current =>
      if c = '\n' then (current ++ ['\n']) :: splitFrom t [] else splitFrom t (current ++ [c])

def splitInclusive (t : Text) : List Text := splitFrom t []

def stripEnding (line : Text) : Text :=
  if line.getLast? = some '\n' then stripCarriageReturn line.dropLast else line

/-- The text without the lines that a test rejects. -/
def keepLines (p : Text → Bool) (t : Text) : Text := ((splitInclusive t).filter p).flatten

private theorem trim_stripEnding (l : Text) : trim (stripEnding l) = trim l := by
  unfold stripEnding
  split
  · rename_i hlast
    rw [trim_stripCarriageReturn]
    conv_rhs => rw [← List.dropLast_append_getLast? '\n' hlast]
    exact (trim_concat_blank _ (by decide)).symm
  · rfl

private theorem stripEnding_line (l : Text) : stripEnding (l ++ ['\n']) = stripCarriageReturn l := by
  simp [stripEnding]

private theorem stripEnding_last {l : Text} (h : '\n' ∉ l) : stripEnding l = l := by
  have hlast : l.getLast? ≠ some '\n' := fun e => h (List.mem_of_getLast? e)
  rw [stripEnding, if_neg hlast]

private theorem linesFrom_keepLines (p : Text → Bool) {t current : Text} (h : '\n' ∉ current) :
    linesFrom ((splitFrom t current).filter p).flatten [] =
      ((splitFrom t current).filter p).map stripEnding := by
  induction t generalizing current with
  | nil =>
    rw [splitFrom]
    split
    · rfl
    · rename_i hne
      by_cases hp : p current = true
      · simp [hp, linesFrom_last h, hne, stripEnding_last h]
      · simp [hp, linesFrom]
  | cons c t ih =>
    rw [splitFrom]
    split
    · by_cases hp : p (current ++ ['\n']) = true
      · rw [List.filter_cons_of_pos hp, List.flatten_cons, List.append_assoc,
          List.singleton_append, linesFrom_append h, ih List.not_mem_nil, List.map_cons,
          stripEnding_line, List.nil_append]
      · rw [List.filter_cons_of_neg hp]
        exact ih List.not_mem_nil
    · rename_i hc
      apply ih
      simp [h, Ne.symm hc]

def glue {α : Type} (front : List α) : List (List α) → List (List α)
  | [] => [front]
  | l :: ls => (front ++ l) :: ls

/-- A list cut after each separator. -/
def splitAfter {α : Type} [DecidableEq α] (sep : α) : List α → List (List α)
  | [] => []
  | a :: l => if a = sep then [a] :: splitAfter sep l else glue [a] (splitAfter sep l)

private theorem splitFrom_eq (t current : Text) : splitFrom t current =
    if current = [] then splitAfter '\n' t else glue current (splitAfter '\n' t) := by
  induction t generalizing current with
  | nil => rfl
  | cons c t ih =>
    rw [splitFrom, splitAfter]
    by_cases hc : c = '\n'
    · rw [if_pos hc, if_pos hc, ih, if_pos rfl, hc]
      by_cases hcurrent : current = [] <;> simp [hcurrent, glue]
    · rw [if_neg hc, if_neg hc, ih, if_neg (by simp)]
      by_cases hcurrent : current = []
      · simp [hcurrent]
      · cases splitAfter '\n' t <;> simp [hcurrent, glue]

private theorem splitInclusive_eq (t : Text) :
    splitInclusive t = splitAfter '\n' t := splitFrom_eq t []

private theorem linesFrom_eq {t current : Text} (h : '\n' ∉ current) :
    linesFrom t current = (splitFrom t current).map stripEnding := by
  induction t generalizing current with
  | nil =>
    rw [splitFrom, linesFrom]
    split
    · rfl
    · rw [List.map_singleton, stripEnding_last h]
  | cons c t ih =>
    rw [splitFrom, linesFrom]
    split
    · rw [List.map_cons, stripEnding_line, ih List.not_mem_nil]
    · rename_i hc
      apply ih
      simp [h, Ne.symm hc]

theorem lines_eq (t : Text) : lines t = (splitAfter '\n' t).map stripEnding := by
  rw [lines, linesFrom_eq List.not_mem_nil, ← splitInclusive_eq, splitInclusive]

theorem lines_keepLines {p : Text → Bool} (hp : ∀ l, p (trim l) = p l) (t : Text) :
    lines (keepLines p t) = (lines t).filter p := by
  have hstrip : p ∘ stripEnding = p := by
    funext l
    rw [Function.comp_apply, ← hp, trim_stripEnding, hp]
  rw [lines, keepLines, splitInclusive, linesFrom_keepLines p List.not_mem_nil, lines,
    linesFrom_eq List.not_mem_nil, List.filter_map, hstrip]

/-- Joining and splitting again changes nothing but blank lines and line endings. -/
theorem visible_lines_join {ls : List Text} (h : ∀ l ∈ ls, '\n' ∉ l) :
    ((lines (join ls)).map trim).filter (· ≠ []) = (ls.map trim).filter (· ≠ []) := by
  induction ls with
  | nil => rfl
  | cons l ls ih =>
    have hl := h l List.mem_cons_self
    have hrest := ih fun l' hl' => h l' (List.mem_cons_of_mem _ hl')
    cases ls with
    | nil =>
      simp only [join, List.intercalate_singleton, lines, linesFrom_last hl, List.nil_append]
      by_cases hnil : l = []
      · simp [hnil, trim]
      · simp [hnil]
    | cons l' ls =>
      have hsplit : lines (join (l :: l' :: ls)) =
          stripCarriageReturn l :: lines (join (l' :: ls)) := by
        rw [join, List.intercalate_cons_cons, lines, List.append_assoc, List.singleton_append,
          linesFrom_append hl]
        rfl
      rw [hsplit, List.map_cons, trim_stripCarriageReturn, List.map_cons (l := l' :: ls),
        List.filter_cons, List.filter_cons, hrest]

end LocalDesktop.Foundation.Strings
