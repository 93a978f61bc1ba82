/- GID: LocalDesktop/Core/LineToml
   generality: G
   digest: A reader of line-oriented TOML that satisfies what is assumed of the toml crate. -/

import LocalDesktop.Core.TomlLayout

set_option autoImplicit false
set_option relaxedAutoImplicit false

namespace LocalDesktop.Core.LineToml

open Foundation.Strings Config ConfigLines TomlScan TomlLayout

def bareKey (k : Text) : Bool :=
  decide (k ≠ []) && k.all bareChar

/-- A basic string without escapes, a decimal integer or a boolean. -/
def readValue (v : Text) : Option Value :=
  match v with
  | '"' :: rest =>
      match splitOnce '"' rest with
      | some (s, []) => if s.contains '\\' then none else some (.string s)
      | _ => none
  | _ =>
      if v = "true".toList then some (.boolean true)
      else if v = "false".toList then some (.boolean false)
      else if v ≠ [] ∧ v.all Char.isDigit = true then
        some (.integer (v.foldl (fun n c => 10 * n + (c.toNat - '0'.toNat)) 0))
      else none

/-- The tables read so far, and the name and the entries of the open one. -/
structure Reading where
  root : Document
  tables : Document
  opened : Option (Text × List (Text × Value))

def Reading.close (r : Reading) : Document :=
  match r.opened with
  | none => r.root ++ r.tables
  | some (name, entries) => r.root ++ r.tables ++ [(name, .table entries)]

def hasKey {α : Type} (entries : List (Text × α)) (k : Text) : Bool := (entries.lookup k).isSome

/-- A header `[name]` opens a table, an entry goes to the open table; a key or a table that is
there twice makes the document invalid. -/
def readLine (r : Reading) (line : Text) : Option Reading :=
  match splitOnce '=' line with
  | some (k, v) => do
      let value ← readValue v
      match r.opened with
      | none =>
          if bareKey k && !hasKey r.root k then some ⟨r.root ++ [(k, value)], r.tables, none⟩
          else none
      | some (name, entries) =>
          if bareKey k && !hasKey entries k then
            some ⟨r.root, r.tables, some (name, entries ++ [(k, value)])⟩
          else none
  | none =>
      match line with
      | '[' :: rest =>
          match splitOnce ']' rest with
          | some (name, []) =>
              if bareKey name && !hasKey r.close name then
                some ⟨[], r.close, some (name, [])⟩
              else none
          | _ => none
      | _ => none

def readLines (ls : List Text) : Option Document :=
  (ls.foldlM readLine ⟨[], [], none⟩).map Reading.close

def content (ls : List Text) : List Text := (ls.filter significant).map tidy

def lineToml : Toml where
  parse t := readLines (content (lines t))
  toString config := unlines (savedLines config)

private theorem content_visible (ls : List Text) :
    content ((ls.map trim).filter (· ≠ [])) = content ls := by
  induction ls with
  | nil => rfl
  | cons l ls ih =>
    by_cases hblank : trim l = []
    · have hsig : significant l = false := by simp [significant, hblank]
      simpa [content, hblank, hsig] using ih
    · have hkeep : ((l :: ls).map trim).filter (· ≠ []) =
          trim l :: (ls.map trim).filter (· ≠ []) := by
        simp [hblank]
      rw [hkeep]
      by_cases hsig : significant l = true
      · simpa [content, hsig] using ih
      · simpa [content, hsig] using ih

private theorem content_lines_join {ls : List Text} (h : ∀ l ∈ ls, '\n' ∉ l) :
    content (lines (join ls)) = content ls := by
  have hvisible := visible_lines_join h
  have hleft := content_visible (lines (join ls))
  rw [← hleft, hvisible, content_visible]

private theorem content_layout {ls ls' : List Text}
    (hsame : ls'.filter significant = (ls.filter significant).map tidy) :
    content ls' = content ls := by
  rw [content, hsame, List.map_map, content]
  apply List.map_congr_left
  intro l _
  exact tidy_tidy l

set_option maxRecDepth 2000 in
private theorem fromStr_savedDefault :
    lineToml.fromStr savedDefault = some LocalConfig.default := by
  simp only [savedDefault, savedLines, LocalConfig.default, CommandConfig.default]
  rw [show defaultCheck = _ from String.toList_ofList,
    show defaultInstall = _ from String.toList_ofList,
    show defaultLaunch = _ from String.toList_ofList]
  decide +kernel

theorem laws_lineToml : Laws lineToml where
  layout ls ls' doc hsingle htrimmed hsame hparse := by
    have hls : ∀ l ∈ ls, '\n' ∉ l := fun l hl => (hsingle l hl).1
    have hls' : ∀ l ∈ ls', '\n' ∉ l := fun l hl => (htrimmed l hl).1
    have hcontent : content (lines (join ls')) = content (lines (join ls)) := by
      rw [content_lines_join hls', content_lines_join hls, content_layout hsame]
    simpa only [lineToml, hcontent] using hparse
  saved := rfl
  readsBack := fromStr_savedDefault

end LocalDesktop.Core.LineToml
