/- GID: LocalDesktop/Android/Proot/Forwarding
   generality: G
   digest: What becomes of the bytes that a child writes while its lines are logged. -/

import LocalDesktop.Foundation.ByteLines
import LocalDesktop.Foundation.Served
import LocalDesktop.Android.Proot.Process

set_option autoImplicit false
set_option relaxedAutoImplicit false

namespace LocalDesktop.Android.Proot.Process

open Foundation.Strings Foundation.ByteLines Foundation.Effects Platform Core.Config

/-- How the bytes that a child has written answer for its next line. -/
def fromOutput (c : Command) : Service Op Res Bytes
  | .outputLine root other, unread =>
    if root = archFsRoot ∧ other = c then
      some ((nextLine unread).1.map fun line => line.elim .garbled .text, (nextLine unread).2)
    else none
  | _, _ => none

/-- Nobody else reads the output of the child. -/
def Unread (c : Command) (log : Text → App Unit) : Prop :=
  ∀ line, (log line).All (fun o => ∀ unread, fromOutput c o unread = none) fun _ => True

/-- The log function is called once for each line in order, and the output is read to its end. -/
def Forwarded (turns : Nat) (c : Command) (output : Bytes) : Prop :=
  ∃ texts : List Text, texts.map encode = byteLines output ∧
    ∀ log, Unread c log → (withLog turns c log).served (fromOutput c) output =
      (forM texts log).bind fun _ => .pure ((), [])

variable {turns : Nat} {c : Command} {output line : Bytes} {lines : List Bytes} {ts : List Text}
  {t : Text} {log : Text → App Unit}

private theorem withLog_succ (turns : Nat) (c : Command) (log : Text → App Unit) :
    withLog (turns + 1) c log = .op (.outputLine archFsRoot c) fun line =>
      match line with
      | none => .pure ()
      | some .garbled => .panic garbledLine
      | some (.text l) => (log l).bind fun _ => withLog turns c log := by
  rw [withLog, Program.iterate]
  simp only [Program.bind_eq, Program.issue_bind, perform, Program.op_bind]
  congr 1
  funext line
  cases line with
  | none => rfl
  | some line =>
    cases line with
    | garbled => rfl
    | text l =>
      rw [Program.bind_assoc]
      rfl

private theorem fromOutput_nextLine (c : Command) (output : Bytes) :
    fromOutput c (.outputLine archFsRoot c) output =
      some ((nextLine output).1.map fun line => line.elim .garbled .text, (nextLine output).2) :=
  if_pos ⟨rfl, rfl⟩

private theorem served_end : (withLog (turns + 1) c log).served (fromOutput c) [] = .pure
    ((), []) := by
  rw [withLog_succ, Program.served_op _ (fromOutput_nextLine c [])]
  rfl

private theorem served_garbled (hsplit : splitAfter newline output = line :: lines)
    (hline : decode line = none) :
    (withLog (turns + 1) c log).served (fromOutput c) output = .panic garbledLine := by
  obtain ⟨rest, hnext, -⟩ := nextLine_of_splitAfter hsplit
  rw [withLog_succ, Program.served_op _ (fromOutput_nextLine c output), hnext, hline]
  rfl

private theorem served_text (hlog : Unread c log)
    (hsplit : splitAfter newline output = encode t :: lines) :
    ∃ rest, splitAfter newline rest = lines ∧
      (withLog (turns + 1) c log).served (fromOutput c) output =
        (log (stripEnding t)).bind fun _ => (withLog turns c log).served (fromOutput c) rest := by
  obtain ⟨rest, hnext, hrest⟩ := nextLine_of_splitAfter hsplit
  refine ⟨rest, hrest, ?_⟩
  rw [withLog_succ, Program.served_op _ (fromOutput_nextLine c output), hnext, decode_encode]
  simp only [Option.map_some, Option.elim_some]
  rw [Program.served_bind, Program.served_unused (hlog _), Program.bind_assoc]
  rfl

private theorem forM_pure {α : Type} (texts : List Text) (next : Unit → App α) :
    (forM texts fun _ => (.pure () : App Unit)).bind next = next () := by
  induction texts with
  | nil => rfl
  | cons l texts ih =>
    rw [List.forM_cons]
    exact ih

private theorem served_texts (hlog : Unread c log)
    (hsplit : splitAfter newline output = ts.map encode ++ lines) :
    ∃ rest, splitAfter newline rest = lines ∧
      (withLog (ts.length + turns) c log).served (fromOutput c) output =
        (forM (ts.map stripEnding) log).bind fun _ =>
          (withLog turns c log).served (fromOutput c) rest := by
  induction ts generalizing output with
  | nil =>
    refine ⟨output, hsplit, ?_⟩
    rw [List.length_nil, Nat.zero_add]
    rfl
  | cons t ts ih =>
    obtain ⟨middle, hmiddle, hfirst⟩ := @served_text (ts.length + turns) _ _ _ _ _ hlog hsplit
    obtain ⟨rest, hrest, hothers⟩ := ih hmiddle
    refine ⟨rest, hrest, ?_⟩
    rw [List.length_cons, Nat.add_right_comm, hfirst, hothers, List.map_cons, List.forM_cons,
      Program.bind_eq, Program.bind_assoc]

/-- Everything is forwarded if and only if the output as a whole is UTF-8. -/
theorem with_log_forwards_iff (hturns : (byteLines output).length < turns) :
    Forwarded turns c output ↔ (decode output).isSome = true := by
  rw [byteLines, List.length_map] at hturns
  constructor
  · rintro ⟨texts, -, hall⟩
    by_contra hnone
    obtain ⟨ts, line, later, hsplit, hline⟩ := exists_garbled (Option.not_isSome_iff_eq_none.mp hnone)
    rw [hsplit, List.length_append, List.length_map] at hturns
    obtain ⟨n, rfl⟩ : ∃ n, turns = ts.length + (n + 1) := by
      refine ⟨turns - ts.length - 1, ?_⟩
      omega
    have hquiet : Unread c fun _ => .pure () := fun _ => trivial
    obtain ⟨rest, hrest, htexts⟩ := @served_texts (n + 1) _ _ _ _ _ hquiet hsplit
    have hend := hall _ hquiet
    rw [htexts, served_garbled hrest hline, forM_pure, forM_pure] at hend
    cases hend
  · intro hsome
    obtain ⟨t, rfl⟩ := decode_isSome_iff.mp hsome
    refine ⟨Foundation.Strings.lines t, (byteLines_encode t).symm, fun log hlog => ?_⟩
    rw [splitAfter_encode, List.length_map] at hturns
    obtain ⟨n, rfl⟩ : ∃ n, turns = (splitAfter '\n' t).length + (n + 1) := by
      refine ⟨turns - (splitAfter '\n' t).length - 1, ?_⟩
      omega
    have hsplit : splitAfter newline (encode t) = (splitAfter '\n' t).map encode ++ [] := by
      rw [splitAfter_encode, List.append_nil]
    obtain ⟨rest, hrest, htexts⟩ := @served_texts (n + 1) _ _ _ _ _ hlog hsplit
    obtain rfl := eq_nil_of_splitAfter hrest
    rw [htexts, served_end, lines_eq]

theorem with_log_forwards_text : Forwarded 3 ⟨"ls".toList, "root".toList⟩ [97, 13, 10, 98] := by
  refine (with_log_forwards_iff (by decide)).mpr (decode_isSome_iff.mpr ⟨['a', '\r', '\n', 'b'], ?_⟩)
  decide

/-- A child writes a line of one byte that is not UTF-8. -/
theorem with_log_stops_at_garbled_line : ¬∀ (turns : Nat) (c : Command) (output : Bytes),
    (byteLines output).length < turns → Forwarded turns c output := by
  intro hall
  have hforwarded := hall 2 ⟨[], []⟩ [255, 10] (by decide)
  obtain ⟨texts, -, hlog⟩ := hforwarded
  have hquiet : Unread ⟨[], []⟩ fun _ => .pure () := fun _ => trivial
  have hend := hlog _ hquiet
  have hgarbled : decode [255, 10] = none := decode_cons_eq_none (by decide) _
  rw [forM_pure, served_garbled rfl hgarbled] at hend
  cases hend

end LocalDesktop.Android.Proot.Process
