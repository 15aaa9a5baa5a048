import CommentIndex.Proofs.Cache.Replacing
import CommentIndex.Proofs.Session.Sources

/-!
# Replacing a file by itself

When a document is replaced while nothing else happens, what is cached for its file is the outline
of its text, under every path of the file, or what was cached before if the text cannot be read or
has no outline. The other files keep their outlines, and the cache stays coherent: `run_replace`.
-/

namespace CommentIndex

open Activity

namespace Workspace

variable {path : Path}

/-- A document at an unusable path is not replaced. -/
theorem stretch_replace_of_unusable (workspace : Workspace) (hpath : path.isUnusable) :
    (replace path).stretch (fun _ => false) workspace =
      (.finished (.error .unusablePath), workspace) :=
  stretch_fileAt_of_unusable hpath _

/-- What a replacement in which nothing else happens does to a workspace. Only the cache changes.
Under every path of the file there is the outline of its text, or what was cached before if it has
none. The other files have what they had, the path is the only one with an outline of the file, the
cache is coherent, and the path is not being read. -/
structure Replaces (path : Path) (before after : Workspace) : Prop where
  only_cache : after = { before with cache := after.cache }
  fresh : ∀ outline, before.outlineAt? path = some outline → ∀ other, other.isUnusable = false →
    before.disk.real other = before.disk.real path → after.lookup? other = .ok (some outline)
  restored : before.outlineAt? path = none → ∀ other,
    before.disk.real other = before.disk.real path →
    after.lookup? other = (before.lookup? other).map fun known => some (known.getD .empty)
  others : ∀ other, before.disk.real other ≠ before.disk.real path →
    after.lookup? other = before.lookup? other
  once : after.cache.outlines.keys.filter
    (fun key => before.disk.real key = before.disk.real path) = [path]
  coherent : Traffic.Coherent before.disk.real after.cache
  ended : ∀ other, after.cache.inFlight.find? other =
    if other = path then none else before.cache.inFlight.find? other

theorem Replaces.disk {before after : Workspace} (h : Replaces path before after) :
    after.disk = before.disk := by
  rw [h.only_cache]

theorem Replaces.matcher {before after : Workspace} (h : Replaces path before after) :
    after.matcher = before.matcher := by
  rw [h.only_cache]

/-- What is told of a path is told of the file that it names. -/
theorem map_fileAt_congr {α : Type} (workspace : Workspace) {f g : Path → α}
    (h : f (workspace.disk.real path) = g (workspace.disk.real path)) :
    (workspace.fileAt path).map f = (workspace.fileAt path).map g := by
  unfold fileAt
  split
  · rfl
  · exact congrArg Except.ok h

/-- The cache of a replacement in which nothing else happens is as it should be. -/
theorem replaces_replaced (workspace : Workspace) (path : Path)
    (hcoherent : Traffic.Coherent workspace.disk.real workspace.cache) :
    Replaces path workspace
      { workspace with
        cache :=
          workspace.cache.replaced path (workspace.disk.real path)
            (workspace.outlineAt? path) } := by
  have hwrites := workspace.cache.writes_replaced path (workspace.disk.real path)
    (workspace.outlineAt? path)
  have hreplaced := hcoherent.replaced path (workspace.outlineAt? path)
  constructor
  case only_cache => rfl
  case fresh =>
    intro outline houtline other husable hfile
    rw [lookup?_of_usable husable]
    show Except.ok (Cache.lookup? _ (workspace.disk.real other)) = _
    rw [hfile, hwrites.lookup_file, houtline, Option.getD_some]
  case restored =>
    intro hnone other hfile
    have hkept : (workspace.cache.replaced path (workspace.disk.real path)
        (workspace.outlineAt? path)).lookup? (workspace.disk.real other) =
          some ((workspace.cache.lookup? (workspace.disk.real other)).getD .empty) := by
      rw [hfile, hwrites.lookup_file, hnone, Option.getD_none]
    refine (workspace.map_fileAt_congr (g := fun file =>
      some ((workspace.cache.lookup? file).getD .empty)) hkept).trans ?_
    unfold lookup?
    cases workspace.fileAt other <;> rfl
  case others =>
    intro other hfile
    have hsound := (Traffic.coherent_iff.mp hcoherent).1
    exact workspace.map_fileAt_congr (hsound.lookup_replaced hfile _)
  case once => exact hreplaced.filter_keys ((hwrites.holder _).trans (if_pos rfl))
  case coherent => exact hreplaced
  case ended => exact workspace.cache.inFlight_replaced path _ _

end Workspace

namespace Session

/-- A document is replaced while nothing else happens, from a coherent cache and with something to
search for. At an unusable path that is an error, and nothing changes. At every other path it ends
with a result, and what it does to the workspace is told by `Workspace.Replaces`. -/
theorem run_replace (session : Session) (hmatcher : session.workspace.matcher.isSome)
    (hcoherent : Traffic.Coherent session.workspace.disk.real session.workspace.cache)
    (path : Path) :
    let outcome := (run (Workspace.replace path) session).1
    let after := (run (Workspace.replace path) session).2.workspace
    (path.isUnusable = true → outcome = .error .unusablePath ∧ after = session.workspace) ∧
      (path.isUnusable = false →
        (∃ found, outcome = .ok found) ∧ Workspace.Replaces path session.workspace after) := by
  intro outcome after
  have hprompt := Workspace.isPrompt_replace path
  have hafter : after =
      ((Workspace.replace path).stretch (fun _ => false) session.workspace).2 :=
    (run_eq_stretch hprompt session).workspace
  have houtcome : _ = Progress.finished outcome := stretch_eq_finished hprompt session
  constructor
  · intro hpath
    rw [session.workspace.stretch_replace_of_unusable hpath] at hafter houtcome
    exact ⟨(Progress.finished.inj houtcome).symm, hafter⟩
  · intro husable
    obtain ⟨found, hstretch⟩ := session.workspace.stretch_replace_alone husable hmatcher
    rw [hstretch] at hafter houtcome
    exact ⟨⟨found, (Progress.finished.inj houtcome).symm⟩,
      hafter ▸ session.workspace.replaces_replaced path hcoherent⟩

/-- A session with a document that has a second path, which is a link to the first one. -/
def withLink : Session :=
  { withFile with
    workspace :=
      { withFile.workspace with
        disk := { tree := withFile.workspace.disk.tree.put ["b.py"] (.link "a.py") } } }

/-- A document is read under one of its paths and then replaced under the other one. Under the first
path there is the outline of its text, although it is kept under the second one alone. -/
theorem run_replace_through_link :
    let read := (run (Workspace.replace firstDocument) withLink).2
    let after := (run (Workspace.replace secondDocument) read).2.workspace
    let texts (outline : Outline) := outline.flatten.map (·.facts.text)
    read.workspace.cache.outlines.keys = [firstDocument] ∧
      (after.lookup? firstDocument).toOption.join.map texts = some ["disk"] ∧
      after.cache.outlines.keys.filter (fun key =>
        read.workspace.disk.real key = read.workspace.disk.real secondDocument) =
          [secondDocument] := by
  intro read after texts
  have hempty : Traffic.Coherent withLink.workspace.disk.real withLink.workspace.cache :=
    Traffic.coherent_iff.mpr ⟨Traffic.sound_empty _ 0, Traffic.held_empty _ 0⟩
  have hread := ((run_replace withLink rfl hempty firstDocument).2 (by decide)).2
  have hmatcher : read.workspace.matcher.isSome := hread.matcher ▸ rfl
  have hcoherent : Traffic.Coherent read.workspace.disk.real read.workspace.cache :=
    hread.disk ▸ hread.coherent
  have hafter := ((run_replace read hmatcher hcoherent secondDocument).2 (by decide)).2
  have hfile : read.workspace.disk.real firstDocument = read.workspace.disk.real secondDocument :=
    hread.disk ▸ (by decide +kernel)
  have htext : (read.workspace.outlineAt? secondDocument).map texts = some ["disk"] := by
    decide +kernel
  obtain ⟨outline, houtline, htexts⟩ := Option.map_eq_some_iff.mp htext
  refine ⟨by decide +kernel, ?_, hafter.once⟩
  rw [hafter.fresh outline houtline firstDocument (by decide) hfile]
  exact congrArg some htexts

end Session

end CommentIndex
