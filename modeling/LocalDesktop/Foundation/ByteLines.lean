/- GID: LocalDesktop/Foundation/ByteLines
   generality: G
   digest: A stream of bytes read line by line as UTF-8, and the lines of the text it encodes. -/

import LocalDesktop.Foundation.Strings

set_option autoImplicit false
set_option relaxedAutoImplicit false

namespace LocalDesktop.Foundation.ByteLines

open Strings

abbrev Bytes := List UInt8

def newline : UInt8 := 10

def carriageReturn : UInt8 := 13

/-! UTF-8. -/

def encode (t : Text) : Bytes := t.flatMap String.utf8EncodeChar

/-- `String::from_utf8`. -/
def decode (b : Bytes) : Option Text := b.toByteArray.utf8Decode?.map Array.toList

variable {b b' : Bytes} {t t' : Text} {c : Char}

@[simp] theorem encode_nil : encode [] = [] := rfl

private theorem encode_cons (c : Char) (t : Text) : encode
    (c :: t) = String.utf8EncodeChar c ++ encode t :=
  List.flatMap_cons

@[simp] theorem encode_append (t t' : Text) : encode (t ++ t') = encode t ++ encode t' :=
  List.flatMap_append

private theorem encode_flatten (ts : List Text) : encode ts.flatten = (ts.map encode).flatten := by
  induction ts with
  | nil => rfl
  | cons t ts ih => simp [ih]

theorem decode_encode (t : Text) : decode (encode t) = some t := by
  rw [decode, encode, ← List.utf8Encode, List.utf8Decode?_utf8Encode]
  rfl

private theorem decode_eq_some_iff : decode b = some t ↔ encode t = b := by
  constructor
  · intro hdecode
    obtain ⟨a, ha, rfl⟩ := Option.map_eq_some_iff.mp hdecode
    obtain ⟨t, ht⟩ := ByteArray.isSome_utf8Decode?_iff.mp (Option.isSome_of_eq_some ha)
    rw [ht, List.utf8Decode?_utf8Encode] at ha
    cases ha
    have hbytes := congrArg (fun b => b.data.toList) ht
    simpa [List.utf8Encode, encode] using hbytes.symm
  · rintro rfl
    exact decode_encode t

theorem decode_isSome_iff : (decode b).isSome = true ↔ ∃ t, encode t = b := by
  simp only [Option.isSome_iff_exists, decode_eq_some_iff]

private theorem utf8EncodeChar_ascii (hc : c.toNat < 128) :
    String.utf8EncodeChar c = [UInt8.ofNat c.toNat] := by
  have hle : c.val.toNat ≤ 127 := Nat.le_of_lt_succ hc
  rw [String.utf8EncodeChar, if_pos hle]
  rfl

private theorem mem_utf8EncodeChar {byte : UInt8} (hmem : byte ∈ String.utf8EncodeChar c) :
    byte.toNat = c.toNat ∧ c.toNat < 128 ∨ 128 ≤ byte.toNat ∧ byte.toNat < 248 := by
  by_cases hc : c.toNat < 128
  · rw [utf8EncodeChar_ascii hc, List.mem_singleton] at hmem
    rw [hmem, UInt8.toNat_ofNat', Nat.mod_eq_of_lt (by omega)]
    exact Or.inl ⟨rfl, hc⟩
  · have hle : ¬c.val.toNat ≤ 127 := fun hle => hc (Nat.lt_succ_of_le hle)
    refine Or.inr ?_
    revert byte
    rw [String.utf8EncodeChar, if_neg hle]
    split
    · simp
      omega
    · split
      · simp
        omega
      · simp
        omega

private theorem utf8EncodeChar_of_mem {byte : UInt8} (hbyte : byte < 128)
    (hmem : byte ∈ String.utf8EncodeChar c) : c.toNat = byte.toNat := by
  have hsmall : byte.toNat < 128 := UInt8.lt_iff_toNat_lt.mp hbyte
  rcases mem_utf8EncodeChar hmem with ⟨hsame, -⟩ | ⟨hlarge, -⟩
  · exact hsame.symm
  · omega

theorem decode_cons_eq_none {byte : UInt8} (hbyte : 248 ≤ byte.toNat) (b : Bytes) :
    decode (byte :: b) = none := by
  rw [← Option.not_isSome_iff_eq_none, decode_isSome_iff]
  rintro ⟨t, ht⟩
  cases t with
  | nil => cases ht
  | cons c t =>
    rw [encode_cons] at ht
    have hmem : byte ∈ String.utf8EncodeChar c := by
      cases hbytes : String.utf8EncodeChar c with
      | nil => exact absurd hbytes String.utf8EncodeChar_ne_nil
      | cons first others =>
        rw [hbytes, List.cons_append, List.cons.injEq] at ht
        rw [ht.1]
        exact List.mem_cons_self
    have hlt := mem_utf8EncodeChar hmem
    omega

/-! Reading. -/

/-- `BufRead::read_until`: up to the separator and with it, or to the end; and what is left. -/
def readUntil (sep : UInt8) : Bytes → Bytes × Bytes
  | [] => ([], [])
  | byte :: unread =>
    if byte = sep then ([byte], unread)
    else (byte :: (readUntil sep unread).1, (readUntil sep unread).2)

/-- `Lines::next`: nothing at the end; a line that is no UTF-8 is read, but is not a text. -/
def nextLine (unread : Bytes) : Option (Option Text) × Bytes :=
  let (line, rest) := readUntil newline unread
  (if line = [] then none else some ((decode line).map stripEnding), rest)

def chopEnding (line : Bytes) : Bytes :=
  if line.getLast? = some newline then
    if line.dropLast.getLast? = some carriageReturn then line.dropLast.dropLast else line.dropLast
  else line

def byteLines (b : Bytes) : List Bytes := (splitAfter newline b).map chopEnding

private theorem splitAfter_eq_readUntil {sep : UInt8} (h : b ≠ []) :
    splitAfter sep b = (readUntil sep b).1 :: splitAfter sep (readUntil sep b).2 := by
  induction b with
  | nil => exact absurd rfl h
  | cons byte b ih =>
    rw [splitAfter, readUntil]
    split
    · rfl
    · cases b with
      | nil => rfl
      | cons next b =>
        rw [ih (List.cons_ne_nil _ _)]
        rfl

private theorem readUntil_ne_nil {sep : UInt8} (h : b ≠ []) : (readUntil sep b).1 ≠ [] := by
  cases b with
  | nil => exact absurd rfl h
  | cons byte b =>
    rw [readUntil]
    split <;> simp

theorem nextLine_of_splitAfter {line : Bytes} {lines : List Bytes}
    (h : splitAfter newline b = line :: lines) :
    ∃ rest, nextLine b = (some ((decode line).map stripEnding), rest) ∧
      splitAfter newline rest = lines := by
  have hne : b ≠ [] := by
    rintro rfl
    cases h
  rw [splitAfter_eq_readUntil hne, List.cons.injEq] at h
  obtain ⟨rfl, rfl⟩ := h
  refine ⟨_, ?_, rfl⟩
  simp only [nextLine, if_neg (readUntil_ne_nil hne)]

theorem eq_nil_of_splitAfter {sep : UInt8} (h : splitAfter sep b = []) : b = [] := by
  by_contra hne
  rw [splitAfter_eq_readUntil hne] at h
  cases h

/-! The lines of an encoded text. -/

private theorem flatten_splitAfter {α : Type} [DecidableEq α] (sep : α) (l : List α) :
    (splitAfter sep l).flatten = l := by
  induction l with
  | nil => rfl
  | cons a l ih =>
    rw [splitAfter]
    split
    · simp [ih]
    · conv_rhs => rw [← ih]
      cases splitAfter sep l <;> simp [glue]

private theorem splitAfter_append {α : Type} [DecidableEq α] {sep : α} {front : List α} (l : List α)
    (hne : front ≠ []) (h : sep ∉ front) :
    splitAfter sep (front ++ l) = glue front (splitAfter sep l) := by
  induction front with
  | nil => exact absurd rfl hne
  | cons a front ih =>
    simp only [List.mem_cons, not_or] at h
    rw [List.cons_append, splitAfter, if_neg (Ne.symm h.1)]
    cases front with
    | nil => rfl
    | cons a' front =>
      rw [ih (List.cons_ne_nil _ _) h.2]
      cases splitAfter sep l <;> rfl

theorem splitAfter_encode (t : Text) :
    splitAfter newline (encode t) = (splitAfter '\n' t).map encode := by
  induction t with
  | nil => rfl
  | cons c t ih =>
    rw [encode_cons, splitAfter]
    by_cases hc : c = '\n'
    · have hbytes : String.utf8EncodeChar c = [newline] := by
        rw [hc]
        rfl
      rw [if_pos hc, hbytes, List.singleton_append, splitAfter, if_pos rfl, ih, hc]
      rfl
    · have hnot : newline ∉ String.utf8EncodeChar c := by
        intro hmem
        have hnewline : c.toNat = '\n'.toNat := utf8EncodeChar_of_mem (by decide) hmem
        exact hc (Char.toNat_inj.mp hnewline)
      rw [if_neg hc, splitAfter_append _ String.utf8EncodeChar_ne_nil hnot, ih]
      cases splitAfter '\n' t <;> simp [glue, encode_cons]

private theorem getLast?_encode {byte : UInt8} {d : Char} (hbyte : byte < 128)
    (hd : String.utf8EncodeChar d = [byte]) (t : Text) :
    (encode t).getLast? = some byte ↔ t.getLast? = some d := by
  induction t using List.reverseRecOn with
  | nil => simp
  | append_singleton t c ih =>
    rw [encode_append, encode_cons, encode_nil, List.append_nil, List.getLast?_concat,
      Option.some.injEq]
    constructor
    · intro hlast
      have hmem : byte ∈ String.utf8EncodeChar c := by
        rw [List.getLast?_append_of_ne_nil _ String.utf8EncodeChar_ne_nil] at hlast
        exact List.mem_of_getLast? hlast
      have hsame := utf8EncodeChar_of_mem hbyte (c := d) (hd ▸ List.mem_singleton_self byte)
      exact Char.toNat_inj.mp ((utf8EncodeChar_of_mem hbyte hmem).trans hsame.symm)
    · rintro rfl
      rw [hd, List.getLast?_concat]

private theorem encode_dropLast {byte : UInt8} {d : Char} (hd : String.utf8EncodeChar d = [byte])
    (hlast : t.getLast? = some d) : encode t.dropLast = (encode t).dropLast := by
  conv_rhs => rw [← List.dropLast_append_getLast? d hlast]
  rw [encode_append, encode_cons, encode_nil, List.append_nil, hd, List.dropLast_concat]

private theorem encode_stripEnding (t : Text) : encode (stripEnding t) = chopEnding (encode t) := by
  have hnewline := @getLast?_encode newline '\n' (by decide) rfl
  have hreturn := @getLast?_encode carriageReturn '\r' (by decide) rfl
  rw [stripEnding, chopEnding]
  by_cases hlast : t.getLast? = some '\n'
  · have hdrop : encode t.dropLast = (encode t).dropLast := encode_dropLast rfl hlast
    rw [if_pos hlast, if_pos ((hnewline t).mpr hlast), stripCarriageReturn, ← hdrop]
    by_cases hbefore : t.dropLast.getLast? = some '\r'
    · rw [if_pos hbefore, if_pos ((hreturn _).mpr hbefore)]
      exact encode_dropLast rfl hbefore
    · rw [if_neg hbefore, if_neg fun h => hbefore ((hreturn _).mp h)]
  · rw [if_neg hlast, if_neg fun h => hlast ((hnewline t).mp h)]

theorem byteLines_encode (t : Text) : byteLines (encode t) = (lines t).map encode := by
  rw [byteLines, splitAfter_encode, lines_eq, List.map_map, List.map_map]
  exact List.map_congr_left fun l _ => (encode_stripEnding l).symm

private theorem texts_or_garbled (lines : List Bytes) : (∃ ts : List Text, lines = ts.map encode) ∨
    ∃ (ts : List Text) (line : Bytes) (later : List Bytes),
      lines = ts.map encode ++ line :: later ∧ decode line = none := by
  induction lines with
  | nil => exact Or.inl ⟨[], rfl⟩
  | cons line lines ih =>
    cases hline : decode line with
    | none => exact Or.inr ⟨[], line, lines, rfl, hline⟩
    | some t =>
      obtain rfl := decode_eq_some_iff.mp hline
      rcases ih with ⟨ts, rfl⟩ | ⟨ts, garbled, later, rfl, hgarbled⟩
      · exact Or.inl ⟨t :: ts, rfl⟩
      · exact Or.inr ⟨t :: ts, garbled, later, rfl, hgarbled⟩

theorem exists_garbled (h : decode b = none) : ∃ (ts : List Text) (line : Bytes)
    (later : List Bytes), splitAfter newline b = ts.map encode ++ line :: later ∧
      decode line = none := by
  rcases texts_or_garbled (splitAfter newline b) with ⟨ts, hts⟩ | hgarbled
  · have hwhole : b = encode ts.flatten := by
      rw [encode_flatten, ← hts, flatten_splitAfter]
    rw [hwhole, decode_encode] at h
    cases h
  · exact hgarbled

end LocalDesktop.Foundation.ByteLines
