/- GID: LocalDesktop/Android/Proot/XkbSymlink
   generality: G
   digest: Where the link to the keyboard data leads after it has been made relative. -/

import LocalDesktop.Core.ConfigRun
import LocalDesktop.Foundation.RelativePath
import LocalDesktop.Android.Proot.Stages

set_option autoImplicit false
set_option relaxedAutoImplicit false

namespace LocalDesktop.Android.Proot.XkbSymlink

open Foundation.FileTree Foundation.RelativePath Foundation.Effects Platform Core.Config
  Core.ConfigRun Stages

def xkbDir : Path := ["usr", "share", "X11"]

def xkbPath : Path := inRoot ["usr", "share", "X11", "xkb"]

/-- The target that the stage writes down for every link. -/
def xkbTarget : Path := ["usr", "share", "xkeyboard-config-2"]

/-- `pathdiff::diff_paths`: a relative path that leads from the second path to the first. -/
def LeadsBack (diffPaths : Path → Path → Option Path) : Prop :=
  ∀ path dir, Plain path → Plain dir →
    ∃ way, diffPaths path dir = some way ∧ walkInside dir way = some path

/-- The link is relative, and names this path of the host. -/
def LinkNames (t : Tree) (link named : Path) : Prop :=
  ∃ way, t.get link = some (.symlink ⟨false, way⟩) ∧ walk link.dropLast way = named

variable {diffPaths : Path → Path → Option Path} {sv : Served} {t : Tree} {target way : Path}

private theorem exec_fixXkbSymlink_relative (hlink : t.get xkbPath = some (.symlink ⟨false, way⟩)) :
    exec (succeed sv) (fixXkbSymlink diffPaths) t = (.returned none, t) := by
  have hread : succeed sv (.readLink xkbPath) t = (some ⟨false, way⟩, t) := by
    simp [succeed, hlink]
  show exec (succeed sv) (.op (.readLink xkbPath) _) t = _
  rw [exec_op, hread]
  rfl

private theorem exec_fixXkbSymlink (hlink : t.get xkbPath = some (.symlink ⟨true, target⟩))
    (hway : diffPaths xkbTarget xkbDir = some way) :
    exec (succeed sv) (fixXkbSymlink diffPaths) t =
      (.returned none, (unlink t xkbPath).set xkbPath (.symlink ⟨false, way⟩)) := by
  have hread : succeed sv (.readLink xkbPath) t = (some ⟨true, target⟩, t) := by
    simp [succeed, hlink]
  unfold xkbPath at hread
  unfold xkbTarget xkbDir at hway
  simp only [fixXkbSymlink, Program.bind_eq, perform, Program.issue_bind, exec_op, hread]
  simp only [succeed, hway]
  rfl

private theorem LinkNames.unique {link named named' : Path} (h : LinkNames t link named)
    (h' : LinkNames t link named') : named = named' := by
  obtain ⟨way, hway, rfl⟩ := h
  obtain ⟨way', hway', rfl⟩ := h'
  rw [hway] at hway'
  cases hway'
  rfl

private theorem linkNames_remade (t : Tree) (hway : walkInside xkbDir way = some xkbTarget) :
    LinkNames ((unlink t xkbPath).set xkbPath (.symlink ⟨false, way⟩)) xkbPath
      (inRoot xkbTarget) := by
  have hdir : xkbPath.dropLast = archFsRoot ++ xkbDir := by decide
  refine ⟨way, get_set_self _ _ _, ?_⟩
  rw [hdir, inRoot]
  exact walk_of_walkInside hway

/-- The stage makes every absolute link lead to one and the same target, and then keeps it. -/
theorem xkb_link_leads_to_fixed_target (hdiff : LeadsBack diffPaths)
    (hlink : t.get xkbPath = some (.symlink ⟨true, target⟩)) :
    ∃ t', exec (succeed sv) (fixXkbSymlink diffPaths) t = (.returned none, t') ∧
      LinkNames t' xkbPath (inRoot xkbTarget) ∧
      (LinkNames t' xkbPath (inRoot (walk [] target)) ↔ walk [] target = xkbTarget) ∧
      exec (succeed sv) (fixXkbSymlink diffPaths) t' = (.returned none, t') := by
  obtain ⟨way, hway, hinside⟩ := hdiff xkbTarget xkbDir (by decide) (by decide)
  have hnames := linkNames_remade t hinside
  refine ⟨_, exec_fixXkbSymlink hlink hway, hnames, ⟨fun htarget => ?_, fun htarget => ?_⟩,
    exec_fixXkbSymlink_relative (get_set_self _ _ _)⟩
  · exact List.append_cancel_left (htarget.unique hnames)
  · rwa [htarget]

private theorem leadsBack_relative : LeadsBack fun path dir => some (relative path dir) := by
  intro path dir hpath _
  exact ⟨_, rfl, walkInside_relative [] dir hpath⟩

def linkedTo (target : Path) : Tree := ⟨[(xkbPath, .symlink ⟨true, target⟩)]⟩

theorem xkb_link_kept_for_its_own_target : ∃ t',
    exec (succeed nothingServed) (fixXkbSymlink fun path dir => some (relative path dir))
      (linkedTo xkbTarget) = (.returned none, t') ∧
    LinkNames t' xkbPath (inRoot (walk [] xkbTarget)) := by
  have hlink : (linkedTo xkbTarget).get xkbPath = some (.symlink ⟨true, xkbTarget⟩) := rfl
  obtain ⟨t', hfirst, -, hiff, -⟩ := @xkb_link_leads_to_fixed_target _ nothingServed _ _
    leadsBack_relative hlink
  exact ⟨t', hfirst, hiff.mpr (by decide)⟩

/-- A later version of the keyboard data is linked by the stage to the one before it. -/
theorem xkb_link_changes_its_target :
    ¬∀ (diffPaths : Path → Path → Option Path) (sv : Served) (t t' : Tree) (target : Path),
      LeadsBack diffPaths → t.get xkbPath = some (.symlink ⟨true, target⟩) →
      exec (succeed sv) (fixXkbSymlink diffPaths) t = (.returned none, t') →
      LinkNames t' xkbPath (inRoot (walk [] target)) := by
  intro hall
  have hlink : (linkedTo ["usr", "share", "xkeyboard-config-3"]).get xkbPath =
      some (.symlink ⟨true, ["usr", "share", "xkeyboard-config-3"]⟩) := rfl
  have hclaimed := hall _ nothingServed _ _ _ leadsBack_relative hlink
    (exec_fixXkbSymlink hlink rfl)
  have hsame := hclaimed.unique (linkNames_remade _ (by decide))
  exact absurd hsame (by decide)

end LocalDesktop.Android.Proot.XkbSymlink
