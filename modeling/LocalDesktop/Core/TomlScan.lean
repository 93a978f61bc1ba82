/- GID: LocalDesktop/Core/TomlScan
   generality: G
   digest: Where strings and brackets of a TOML line end, and that blanks do not move them. -/

import LocalDesktop.Core.Config

set_option autoImplicit false
set_option relaxedAutoImplicit false

namespace LocalDesktop.Core.TomlScan

open Foundation.Strings Config

inductive Quote
  | basic
  | literal

def Quote.char : Quote → Char
  | .basic => '"'
  | .literal => '\''

/-- Where a TOML reader stands inside a line: how many brackets are open, and which string. -/
inductive Scan
  | plain (depth : Nat)
  | oneQuote (quote : Quote) (depth : Nat)
  | twoQuotes (quote : Quote) (depth : Nat)
  | inString (quote : Quote) (depth : Nat)
  | escaped (depth : Nat)
  | inMultiline (quote : Quote) (depth run : Nat)
  | multilineEscaped (depth : Nat)
  | comment (depth : Nat)

def Scan.nextPlain (depth : Nat) (c : Char) : Scan :=
  if c = '"' then .oneQuote .basic depth
  else if c = '\'' then .oneQuote .literal depth
  else if c = '[' ∨ c = '{' then .plain (depth + 1)
  else if c = ']' ∨ c = '}' then .plain (depth - 1)
  else if c = '#' then .comment depth
  else .plain depth

/-- Inside of a string that has one quote at each end. -/
def Scan.nextInString (q : Quote) (depth : Nat) (c : Char) : Scan :=
  match q with
  | .basic => if c = '\\' then .escaped depth else .inString .basic depth
  | .literal => .inString .literal depth

def Scan.nextInMultiline (q : Quote) (depth : Nat) (c : Char) : Scan :=
  match q with
  | .basic => if c = '\\' then .multilineEscaped depth else .inMultiline .basic depth 0
  | .literal => .inMultiline .literal depth 0

def Scan.next : Scan → Char → Scan
  | .plain d, c => nextPlain d c
  | .oneQuote q d, c => if c = q.char then .twoQuotes q d else nextInString q d c
  | .twoQuotes q d, c => if c = q.char then .inMultiline q d 0 else nextPlain d c
  | .inString q d, c => if c = q.char then .plain d else nextInString q d c
  | .escaped d, _ => .inString .basic d
  -- Three quotes end the string; up to two more may stand before them.
  | .inMultiline q d run, c =>
      if c = q.char then if run = 4 then .plain d else .inMultiline q d (run + 1)
      else if 3 ≤ run then nextPlain d c else nextInMultiline q d c
  | .multilineEscaped d, _ => .inMultiline .basic d 0
  | .comment d, _ => .comment d

def Scan.closed : Scan → Bool
  | .plain d | .twoQuotes _ d | .comment d => d == 0
  | .inMultiline _ d run => d == 0 && decide (3 ≤ run)
  | _ => false

def scan (s : Scan) (t : Text) : Scan := t.foldl Scan.next s

def closes (t : Text) : Bool := (scan (.plain 0) t).closed

/-- Strings and brackets of the line end on it, and its first `=` is outside of quotes. -/
def SingleLine (line : Text) : Prop :=
  '\n' ∉ line ∧ closes line = true ∧
    ∀ kv ∈ splitOnce '=' line, closes kv.1 = true

instance singleLineDecidable (line : Text) : Decidable (SingleLine line) :=
  inferInstanceAs (Decidable (_ ∧ _ ∧ _))

/-! Blanks, and the `=` after a key, leave a closed line closed. -/

@[simp] theorem scan_nil (s : Scan) : scan s [] = s := rfl

@[simp] theorem scan_cons (s : Scan) (c : Char) (t : Text) :
    scan s (c :: t) = scan (s.next c) t := rfl

private theorem scan_append (s : Scan) (t t' : Text) : scan s (t ++ t') = scan (scan s t) t' :=
  List.foldl_append

def neutral (c : Char) : Bool := isWhitespace c || c == '='

private theorem ne_of_neutral {c d : Char} (hc : neutral c = true) (hd : neutral d = false) :
    c ≠ d := by
  rintro rfl
  rw [hc] at hd
  exact absurd hd (by decide)

private theorem nextPlain_of_neutral {c : Char} (hc : neutral c = true) (d : Nat) :
    Scan.nextPlain d c = .plain d := by
  have h : ∀ e, neutral e = false → c ≠ e := fun e he => ne_of_neutral hc he
  simp [Scan.nextPlain, h '"' (by decide), h '\'' (by decide), h '[' (by decide),
    h '{' (by decide), h ']' (by decide), h '}' (by decide), h '#' (by decide)]

private theorem ne_quote_of_neutral {c : Char} (hc : neutral c = true) (q : Quote) :
    c ≠ q.char := by
  cases q with
  | basic => exact ne_of_neutral hc (by decide)
  | literal => exact ne_of_neutral hc (by decide)

private theorem next_plain_of_neutral {c : Char} (hc : neutral c = true) (d : Nat) :
    (Scan.plain d).next c = .plain d := nextPlain_of_neutral hc d

/-- Where the reader rests once something neutral follows. -/
def Scan.rest : Scan → Scan
  | .comment d => .comment d
  | .plain d | .twoQuotes _ d | .inMultiline _ d _ => .plain d
  | s => s

private theorem next_of_closed {s : Scan} (hs : s.closed = true) {c : Char}
    (hc : neutral c = true) :
    s.next c = s.rest := by
  have hq := ne_quote_of_neutral hc
  cases s with
  | plain d => exact next_plain_of_neutral hc d
  | twoQuotes q d => simp [Scan.next, Scan.rest, hq q, nextPlain_of_neutral hc]
  | comment d => rfl
  | inMultiline q d run =>
    have hrun : 3 ≤ run := by
      simp only [Scan.closed, Bool.and_eq_true, decide_eq_true_eq] at hs
      exact hs.2
    simp [Scan.next, Scan.rest, hq q, hrun, nextPlain_of_neutral hc]
  | oneQuote q d => exact absurd hs (by simp [Scan.closed])
  | inString q d => exact absurd hs (by simp [Scan.closed])
  | escaped d => exact absurd hs (by simp [Scan.closed])
  | multilineEscaped d => exact absurd hs (by simp [Scan.closed])

private theorem next_rest {s : Scan} (hs : s.closed = true) {c : Char} (hc : neutral c = true) :
    s.rest.next c = s.rest := by
  cases s with
  | plain d => exact next_plain_of_neutral hc d
  | twoQuotes q d => exact next_plain_of_neutral hc d
  | comment d => rfl
  | inMultiline q d run => exact next_plain_of_neutral hc d
  | oneQuote q d => exact absurd hs (by simp [Scan.closed])
  | inString q d => exact absurd hs (by simp [Scan.closed])
  | escaped d => exact absurd hs (by simp [Scan.closed])
  | multilineEscaped d => exact absurd hs (by simp [Scan.closed])

private theorem scan_rest {s : Scan} (hs : s.closed = true) {w : Text} (hw : w.all neutral = true) :
    scan s.rest w = s.rest := by
  induction w with
  | nil => rfl
  | cons c w ih =>
    rw [List.all_cons, Bool.and_eq_true] at hw
    rw [scan_cons, next_rest hs hw.1, ih hw.2]

private theorem scan_of_closed {s : Scan} (hs : s.closed = true) {w : Text}
    (hw : w.all neutral = true)
    (hne : w ≠ []) : scan s w = s.rest := by
  cases w with
  | nil => exact absurd rfl hne
  | cons c w =>
    rw [List.all_cons, Bool.and_eq_true] at hw
    rw [scan_cons, next_of_closed hs hw.1, scan_rest hs hw.2]

private theorem closed_nextInString (q : Quote) (d : Nat) (c : Char) :
    (Scan.nextInString q d c).closed = false := by
  cases q with
  | basic =>
    by_cases hc : c = '\\' <;> simp [Scan.nextInString, hc, Scan.closed]
  | literal => rfl

private theorem closed_nextInMultiline (q : Quote) (d : Nat) (c : Char) :
    (Scan.nextInMultiline q d c).closed = false := by
  cases q with
  | basic =>
    by_cases hc : c = '\\' <;> simp [Scan.nextInMultiline, hc, Scan.closed]
  | literal => simp [Scan.nextInMultiline, Scan.closed]

private theorem closed_of_closed_next {s : Scan} {c : Char} (hc : neutral c = true)
    (h : (s.next c).closed = true) : s.closed = true := by
  have hq := ne_quote_of_neutral hc
  cases s with
  | plain d => rwa [next_plain_of_neutral hc] at h
  | twoQuotes q d =>
    simp only [Scan.next, hq q, if_false, nextPlain_of_neutral hc] at h
    exact h
  | comment d => exact h
  | inMultiline q d run =>
    by_cases hrun : 3 ≤ run
    · simpa [Scan.next, hq q, nextPlain_of_neutral hc, hrun, Scan.closed] using h
    · simp [Scan.next, hq q, hrun, closed_nextInMultiline] at h
  | oneQuote q d => simp [Scan.next, hq q, closed_nextInString] at h
  | inString q d => simp [Scan.next, hq q, closed_nextInString] at h
  | escaped d => exact absurd h (by simp [Scan.next, Scan.closed])
  | multilineEscaped d => exact absurd h (by simp [Scan.next, Scan.closed])

private theorem closed_of_closed_scan {s : Scan} {w : Text} (hw : w.all neutral = true)
    (h : (scan s w).closed = true) : s.closed = true := by
  induction w generalizing s with
  | nil => exact h
  | cons c w ih =>
    rw [List.all_cons, Bool.and_eq_true] at hw
    exact closed_of_closed_next hw.1 (ih hw.2 h)

private theorem all_neutral_of_blank {w : Text} (hw : w.all isWhitespace = true) :
    w.all neutral = true := by
  rw [List.all_eq_true] at hw ⊢
  intro c hc
  simp [neutral, hw c hc]

private theorem scan_blank {w : Text} (hw : w.all isWhitespace = true) (d : Nat) :
    scan (.plain d) w = .plain d := by
  induction w with
  | nil => rfl
  | cons c w ih =>
    rw [List.all_cons, Bool.and_eq_true] at hw
    have hc : neutral c = true := by simp [neutral, hw.1]
    rw [scan_cons, next_plain_of_neutral hc, ih hw.2]

theorem closes_blank_append {w : Text} (hw : w.all isWhitespace = true) (t : Text) :
    closes (w ++ t) = closes t := by
  rw [closes, scan_append, scan_blank hw, closes]

private theorem closes_of_append_blank {t w : Text} (hw : w.all isWhitespace = true)
    (h : closes (t ++ w) = true) : closes t = true := by
  rw [closes, scan_append] at h
  exact closed_of_closed_scan (all_neutral_of_blank hw) h

theorem closes_trim {t : Text} (h : closes t = true) : closes (trim t) = true := by
  obtain ⟨a, b, ha, hb, heq⟩ := exists_trim t
  rw [heq, List.append_assoc, closes_blank_append ha] at h
  exact closes_of_append_blank hb h

theorem closes_entryLine_trim {k v : Text} (hk : closes k = true)
    (h : closes (k ++ '=' :: v) = true) : closes (entryLine (trim k) (trim v)) = true := by
  obtain ⟨a, b, ha, hb, hkey⟩ := exists_trim k
  obtain ⟨a', b', ha', hb', hvalue⟩ := exists_trim v
  have hkey' := closes_trim hk
  have hblanks : scan (scan (.plain 0) (trim k)) (b ++ '=' :: a') =
      (scan (.plain 0) (trim k)).rest := by
    refine scan_of_closed hkey' ?_ (by simp)
    have hb := all_neutral_of_blank hb
    have ha' := all_neutral_of_blank ha'
    rw [List.all_append, List.all_cons, hb, ha']
    rfl
  have hequals : scan (scan (.plain 0) (trim k)) ['='] = (scan (.plain 0) (trim k)).rest :=
    scan_of_closed hkey' rfl (by simp)
  have hsplit : k ++ '=' :: v = a ++ (trim k ++ ((b ++ '=' :: a') ++ (trim v ++ b'))) := by
    conv_lhs => rw [hkey, hvalue]
    simp
  rw [hsplit, closes_blank_append ha, closes, scan_append, scan_append, hblanks, ← hequals,
    scan_append] at h
  have hclosed := closed_of_closed_scan (all_neutral_of_blank hb') h
  rw [closes, entryLine, show trim k ++ '=' :: trim v = trim k ++ (['='] ++ trim v) from rfl,
    scan_append, scan_append]
  exact hclosed

/-- What a bare key is made of. -/
def bareChar (c : Char) : Bool := c.isAlphanum || c == '_' || c == '-'

private theorem next_plain_of_bareChar {c : Char} (hc : bareChar c = true) (d : Nat) :
    (Scan.plain d).next c = .plain d := by
  have hne : ∀ e, bareChar e = false → c ≠ e := by
    rintro e he rfl
    rw [hc] at he
    exact absurd he (by decide)
  simp [Scan.next, Scan.nextPlain, hne '"' (by decide), hne '\'' (by decide),
    hne '[' (by decide), hne '{' (by decide), hne ']' (by decide), hne '}' (by decide),
    hne '#' (by decide)]

private theorem scan_bare {k : Text} (hk : k.all bareChar = true) (d : Nat) :
    scan (.plain d) k = .plain d := by
  induction k with
  | nil => rfl
  | cons c k ih =>
    rw [List.all_cons, Bool.and_eq_true] at hk
    rw [scan_cons, next_plain_of_bareChar hk.1, ih hk.2]

theorem closes_bare {k : Text} (hk : k.all bareChar = true) : closes k = true := by
  rw [closes, scan_bare hk]
  rfl

theorem closes_entryLine_bare {k k' : Text} (hk : k.all bareChar = true)
    (hk' : k'.all bareChar = true) (v : Text) :
    closes (entryLine k v) = closes (entryLine k' v) := by
  rw [closes, closes, entryLine, entryLine, scan_append, scan_append, scan_bare hk, scan_bare hk']

end LocalDesktop.Core.TomlScan
