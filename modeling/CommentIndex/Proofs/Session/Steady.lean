import CommentIndex.Proofs.Cache.Steady
import CommentIndex.Proofs.Session.Workshop

/-!
# While nothing changes

As long as no file, no buffer, and no setting changes, what is cached for a file is empty, or it is
what readings of the file find. `Recalls` says so of a workspace, and `keeps_run` that it stays so
whatever errands are under way, among them scans, rebuilds with the same settings, and others that
clear the cache.
-/

namespace CommentIndex

open Activity

/-- The one phase that there is while nothing changes. -/
inductive Quiet
  | quiet

/-- It is not later than itself. -/
instance Quiet.preorder : Preorder Quiet where
  le _ _ := True
  le_refl _ := trivial
  le_trans _ _ _ _ _ := trivial

/-- It is like itself. -/
instance Quiet.setoid : Setoid Quiet where
  r := Eq
  iseqv := eq_equivalence

namespace Workspace

/-- A workspace in which the same is read as at the start, and in which nothing is cached for a file
but the given outline and the empty one. -/
structure Recalls (start : Workspace) (target : Path) (outline : Outline) (_ : Quiet)
    (workspace : Workspace) : Prop where
  sources : start.SameSources workspace
  steady : workspace.cache.Steady start.disk.real target outline

/-- All readings of a file that succeed find the same outline, whatever name they go by. -/
def ReadsAs (start : Workspace) (target : Path) (outline : Outline) : Prop :=
  ∀ path found, start.disk.real path = target → start.outlineAt? path = some found →
    found = outline

/-- What is searched for is what the settings give. -/
structure IsBuilt (start : Workspace) : Prop where
  registry : start.registry = .ofSettings start.settings.tags.listed start.settings.tags.keyed
  matcher : ∃ matcher, start.matcher = some matcher ∧ Compiles start.settings matcher

variable {start workspace : Workspace} {target path : Path} {outline found : Outline} {ticket : Nat}
  {before : Option Outline}

/-- What is read of a document is the outline of its text. -/
theorem outlineAt?_eq_some_iff : workspace.outlineAt? path = some found ↔
    ∃ matcher text anchors, workspace.matcher = some matcher ∧ workspace.textAt path = .ok text ∧
      Outline.ofText matcher workspace.registry workspace.settings.tags.showTag text =
        .ok (found, anchors) := by
  unfold outlineAt?
  cases workspace.matcher with
  | none => simp
  | some matcher =>
      cases workspace.textAt path with
      | error error => simp [Except.toOption]
      | ok text =>
          cases hread : Outline.ofText matcher workspace.registry
            workspace.settings.tags.showTag text with
          | error error => simp [Except.toOption, hread]
          | ok read => simp [Except.toOption, hread, Prod.ext_iff, -Bool.exists_bool]

/-- What is read is what would have been read at the start. -/
theorem SameSources.outlineAt?_eq (h : start.SameSources workspace) (path : Path) :
    workspace.outlineAt? path = start.outlineAt? path := by
  unfold outlineAt?
  rw [h.matcher, h.registry, h.settings, textAt_congr h.buffers h.disk]

namespace Recalls

/-- The cache changes. -/
theorem withCache (h : Recalls start target outline .quiet workspace) {cache : Cache}
    (hcache : cache.Steady start.disk.real target outline) :
    Recalls start target outline .quiet { workspace with cache := cache } :=
  ⟨⟨h.sources.root, h.sources.disk, h.sources.buffers, h.sources.settings, h.sources.matcher,
    h.sources.registry⟩, hcache⟩

/-- What else changes makes no difference. -/
theorem congr (h : Recalls start target outline .quiet workspace) {after : Workspace}
    (hsources : workspace.SameSources after) (hcache : after.cache = workspace.cache) :
    Recalls start target outline .quiet after where
  sources :=
    { root := hsources.root.trans h.sources.root
      disk := hsources.disk.trans h.sources.disk
      buffers := hsources.buffers.trans h.sources.buffers
      settings := hsources.settings.trans h.sources.settings
      matcher := hsources.matcher.trans h.sources.matcher
      registry := hsources.registry.trans h.sources.registry }
  steady := hcache ▸ h.steady

/-- The file of a path is the one it had at the start. -/
theorem file_eq (h : Recalls start target outline .quiet workspace) {file : Path}
    (hfile : workspace.fileAt path = .ok file) : file = start.disk.real path := by
  unfold fileAt at hfile
  split at hfile
  · contradiction
  · rw [← h.sources.disk]
    exact (Except.ok.inj hfile).symm

/-! ## Readings -/

/-- A reading that fails gives up its ticket. -/
theorem giveUp (h : Recalls start target outline .quiet workspace)
    (hbefore : start.disk.real path = target → ∀ found ∈ before,
      found = .empty ∨ found = outline) (ticket : Nat) :
    (Workspace.giveUp path ticket before).Upholds (Recalls start target outline) .quiet
      workspace :=
  h.withCache (h.steady.giveUp hbefore ticket)

/-- A reading lands. -/
theorem land (h : Recalls start target outline .quiet workspace)
    (hfound : start.disk.real path = target → found = outline) (ticket : Nat) :
    (Workspace.land path ticket found).Upholds (Recalls start target outline) .quiet
      workspace := by
  simp only [Workspace.land, bind_eq, upholds_workspace]
  split
  · refine upholds_ask h fun file hfile => ?_
    rw [upholds_change, h.file_eq hfile]
    have hlanded := h.withCache (h.steady.land hfound ticket)
    split
    · exact hlanded
    · exact hlanded
  · exact h

/-- A reading ends that began while nothing changed. -/
theorem endReading (h : Recalls start target outline .quiet workspace)
    (hreads : start.ReadsAs target outline) {matcher : Matcher}
    (hmatcher : start.matcher = some matcher)
    (hbefore : start.disk.real path = target → ∀ found ∈ before,
      found = .empty ∨ found = outline) (ticket : Nat) :
    (Workspace.endReading matcher start.registry path ticket before (start.textAt path)).Upholds
      (Recalls start target outline) .quiet workspace := by
  cases htext : start.textAt path with
  | error error => exact h.giveUp hbefore ticket
  | ok text =>
      simp only [Workspace.endReading, bind_eq, upholds_workspace]
      rw [h.sources.settings]
      split
      · exact h.giveUp hbefore ticket
      · next found anchors hread =>
          refine (h.land (fun hpath => ?_) ticket).bind fun _ => upholdsFrom_done _
          exact hreads path found hpath
            (outlineAt?_eq_some_iff.mpr ⟨matcher, text, anchors, hmatcher, htext, hread⟩)

/-- A reading begins and ends. -/
theorem readUnder (h : Recalls start target outline .quiet workspace)
    (hreads : start.ReadsAs target outline) (path : Path)
    (hbefore : start.disk.real path = target → ∀ found ∈ before,
      found = .empty ∨ found = outline) :
    (Workspace.readUnder path before).Upholds (Recalls start target outline) .quiet
      workspace := by
  simp only [Workspace.readUnder, bind_eq, upholds_workspace]
  split
  · next matcher hmatcher =>
      simp only [readOutline, bind_eq, upholds_workspace, upholds_change]
      have hissued := h.withCache (h.steady.issue path)
      refine upholds_readText hissued path le_rfl rfl hissued ?_
      intro _ after _ hknown
      have hend := hknown.endReading hreads (h.sources.matcher ▸ hmatcher) hbefore
        workspace.cache.nextTicket
      rwa [← h.sources.registry,
        ← textAt_congr hissued.sources.buffers hissued.sources.disk] at hend
  · exact h

/-- All that is done to the cache upholds what is known. -/
theorem upkeep (hreads : start.ReadsAs target outline) :
    Upkeep (Recalls start target outline) where
  congr := fun h => h.congr
  replace := fun {_ workspace} h path => by
    simp only [Workspace.replace, bind_eq]
    refine upholds_ask h fun file hfile => ?_
    rw [upholds_workspace, upholds_change, h.file_eq hfile]
    refine (h.withCache (h.steady.displace path)).readUnder hreads path fun hpath found hfound => ?_
    exact h.steady.lookup (hpath ▸ hfound)
  refresh := fun {_ workspace} h path => by
    simp only [Workspace.refresh, bind_eq]
    refine upholds_ask h fun file _ => ?_
    exact h.readUnder hreads _ fun hpath found hfound => h.steady.kept _ found hpath hfound
  remove := fun {_ workspace} h path => by
    simp only [Workspace.remove, bind_eq]
    refine upholds_ask h fun file hfile => ?_
    rw [h.file_eq hfile]
    exact h.withCache (h.steady.remove path)
  clear := fun h => h.withCache (Cache.steady_clear ..)

/-- What the same settings give to search for is what is searched for. -/
theorem build (h : Recalls start target outline .quiet workspace) (hbuilt : start.IsBuilt) :
    Workspace.build.Upholds (Recalls start target outline) .quiet workspace := by
  obtain ⟨matcher, hmatcher, hcompiles⟩ := hbuilt.matcher
  simp only [Workspace.build, bind_eq, upholds_workspace]
  rw [h.sources.settings, hcompiles, upholds_change, ← hbuilt.registry]
  have hsame : Recalls start target outline .quiet
      { workspace with registry := start.registry, matcher := some matcher } :=
    h.congr ⟨rfl, rfl, rfl, rfl, hmatcher.symm.trans h.sources.matcher.symm,
      h.sources.registry.symm⟩ rfl
  cases delayOf start.settings with
  | ok delay => exact hsame.congr ⟨rfl, rfl, rfl, rfl, rfl, rfl⟩ rfl
  | error error => exact hsame

end Recalls

end Workspace

namespace Workshop

open Workspace

variable {start : Workspace} {target : Path} {outline : Outline} {workshop : Workshop}

/-- A turn that leaves the folder, the files, the buffers, and the settings as they are. -/
structure Turn.IsQuiet (start : Workspace) (next : Turn) : Prop where
  root : (next.prepare start).root = start.root
  disk : (next.prepare start).disk = start.disk
  buffers : (next.prepare start).buffers = start.buffers
  settings : (next.prepare start).settings = start.settings
  given : ∀ settings, next = .begin (.survey (.rebuild (some settings))) → settings = start.settings

/-- A quiet turn gives nothing but what there is. -/
theorem Turn.IsQuiet.prepare {next : Turn} (hquiet : next.IsQuiet start) {workspace : Workspace}
    (h : Recalls start target outline .quiet workspace) :
    Recalls start target outline .quiet (next.prepare workspace) := by
  have hbuffers : (next.prepare workspace).buffers = start.buffers := by
    rw [← hquiet.buffers]
    cases next with
    | begin errand =>
        cases errand <;>
          simp only [Turn.prepare, Errand.prepare, withBuffer, h.sources.buffers]
    | goOn index => exact h.sources.buffers
    | outside next => rfl
  obtain ⟨hcache, hmatcher, hregistry⟩ := next.prepare_keeps workspace
  refine h.congr ⟨?_, ?_, hbuffers.trans h.sources.buffers.symm, ?_, hmatcher, hregistry⟩ hcache
  · cases next with
    | begin errand => cases errand <;> rfl
    | goOn index => rfl
    | outside next => exact hquiet.root.trans h.sources.root.symm
  · cases next with
    | begin errand => cases errand <;> rfl
    | goOn index => rfl
    | outside next => exact hquiet.disk.trans h.sources.disk.symm
  · cases next with
    | begin errand => cases errand <;> rfl
    | goOn index => rfl
    | outside next => exact hquiet.settings.trans h.sources.settings.symm

/-- An errand that begins with a quiet turn upholds what is known. -/
theorem Turn.IsQuiet.upholds {errand : Errand} (hquiet : (Turn.begin errand).IsQuiet start)
    (hbuilt : start.IsBuilt) (hreads : start.ReadsAs target outline) {workspace : Workspace}
    (h : Recalls start target outline .quiet workspace) :
    errand.activity.Upholds (Recalls start target outline) .quiet workspace := by
  refine errand.upholds_of_upkeep (Recalls.upkeep hreads) (hquiet.prepare h) fun hbuilds => ?_
  cases errand with
  | build => exact (h.build hbuilt).bind fun _ => upholdsFrom_done _
  | survey kind =>
      cases kind with
      | scan => contradiction
      | rebuild given =>
          have hsettings : given.getD workspace.settings = workspace.settings := by
            cases given with
            | none => rfl
            | some settings => exact (hquiet.given settings rfl).trans h.sources.settings.symm
          have hset : Recalls start target outline .quiet
              { workspace with settings := given.getD workspace.settings, isScanned := false } :=
            h.congr ⟨rfl, rfl, rfl, hsettings, rfl, rfl⟩ rfl
          exact ((Recalls.upkeep hreads).rebuild (hset.build hbuilt)).bind
            fun _ => upholdsFrom_done _
  | _ => contradiction

/-- What is known at the start is known as long as all turns are quiet. -/
theorem keeps_run (hbuilt : start.IsBuilt) (hreads : start.ReadsAs target outline)
    (holds : Pause → Bool) {turns : List Turn} (hturns : ∀ next ∈ turns, next.IsQuiet start)
    (h : Keeps (Recalls start target outline) .quiet workshop) :
    Keeps (Recalls start target outline) .quiet (workshop.run holds turns) := by
  induction turns generalizing workshop with
  | nil => exact h
  | cons next rest ih =>
      obtain ⟨hnext, hrest⟩ := List.forall_mem_cons.mp hturns
      obtain ⟨_, -, -, hturn⟩ := h.turn (hnext.prepare h.knows)
        (fun errand hbegin => (hbegin ▸ hnext).upholds hbuilt hreads h.knows) holds
      exact ih hrest hturn

end Workshop

end CommentIndex
