import CommentIndex.Proofs.Cache.Renewed
import CommentIndex.Proofs.Session.Upkeep

/-!
# What is known of a workspace since it was rebuilt

A rebuild gives a workspace something new to search for, and then clears its cache. `Phase` says how
far it has got, and `Reader.Knows` what is known of the workspace: what is searched for in it, and
once the cache is cleared, that all outlines in it are allowed if those are that are found from then
on. Everything that may be done to a workspace upholds this, but for another rebuild.
-/

namespace CommentIndex

open Activity

/-- How far a rebuild has got. -/
structure Phase where
  /-- So many tickets have been given out. Once the cache is cleared, none of them counts. -/
  floor : Nat
  /-- What is searched for is what the rebuild has given. -/
  isBuilt : Bool
  isCleared : Bool
  built_of_cleared : isCleared = true → isBuilt = true

/-- A later phase. -/
instance Phase.preorder : Preorder Phase where
  le phase later :=
    phase.floor ≤ later.floor ∧ (phase.isBuilt = true → later.isBuilt = true) ∧
      (phase.isCleared = true → later.isCleared = true)
  le_refl phase := ⟨Nat.le_refl _, id, id⟩
  le_trans _ _ _ h hnext :=
    ⟨Nat.le_trans h.1 hnext.1, fun hbuilt => hnext.2.1 (h.2.1 hbuilt),
      fun hcleared => hnext.2.2 (h.2.2 hcleared)⟩

/-- Two phases in which a rebuild has got equally far. -/
instance Phase.setoid : Setoid Phase where
  r phase other := phase.isBuilt = other.isBuilt ∧ phase.isCleared = other.isCleared
  iseqv :=
    { refl := fun _ => ⟨rfl, rfl⟩
      symm := fun h => ⟨h.1.symm, h.2.symm⟩
      trans := fun h hnext => ⟨h.1.trans hnext.1, h.2.trans hnext.2⟩ }

namespace Phase

/-- Before the rebuild. -/
def unbuilt : Phase := ⟨0, false, false, id⟩

/-- The rebuild has given something to search for. -/
def built (floor : Nat) : Phase := ⟨floor, true, false, fun _ => rfl⟩

/-- The rebuild has cleared the cache. -/
def cleared (floor : Nat) : Phase := ⟨floor, true, true, fun _ => rfl⟩

variable {phase : Phase} {floor : Nat}

/-- Something to search for is given before the cache is cleared. -/
theorem le_built (hfloor : phase.floor ≤ floor) (hphase : phase.isCleared = false) :
    phase ≤ built floor :=
  ⟨hfloor, fun _ => rfl, fun hcleared => absurd (hphase.symm.trans hcleared) (by simp)⟩

/-- The cache is cleared last of all. -/
theorem le_cleared (hfloor : phase.floor ≤ floor) : phase ≤ cleared floor :=
  ⟨hfloor, fun _ => rfl, fun _ => rfl⟩

/-- A cache that is cleared is not cleared before something to search for is given. -/
theorem uncleared_of_unbuilt (h : phase.isBuilt = false) : phase.isCleared = false :=
  eq_false_of_ne_true fun hcleared =>
    absurd (h.symm.trans (phase.built_of_cleared hcleared)) (by simp)

end Phase

/-- What outlines are read with, and which of them are allowed. -/
structure Reader where
  matcher : Matcher
  registry : Registry
  Allows : Outline → Prop
  allows_empty : Allows .empty

namespace Reader

variable (reader : Reader)

/-- The outlines of the texts of a workspace are allowed. -/
def Reads (workspace : Workspace) : Prop :=
  ∀ path text showTag outline found, workspace.textAt path = .ok text →
    Outline.ofText reader.matcher reader.registry showTag text = .ok (outline, found) →
    reader.Allows outline

/-- A workspace in which is searched for what a reader searches for. -/
structure Suits (workspace : Workspace) : Prop where
  matcher : workspace.matcher = some reader.matcher
  registry : workspace.registry = reader.registry

/-- What is known of a workspace in a phase. -/
structure Knows (phase : Phase) (workspace : Workspace) : Prop where
  floor : phase.floor ≤ workspace.cache.issued
  suits : phase.isBuilt = true → reader.Suits workspace
  reads : phase.isCleared = true → reader.Reads workspace
  renewed : phase.isCleared = true → workspace.cache.Renewed reader.Allows phase.floor

variable {reader} {phase : Phase} {workspace : Workspace} {path : Path}

/-- The same is known of other texts of which the outlines are allowed. -/
theorem Knows.withTexts (h : reader.Knows phase workspace) {after : Workspace}
    (hcache : after.cache = workspace.cache) (hmatcher : after.matcher = workspace.matcher)
    (hregistry : after.registry = workspace.registry)
    (hreads : phase.isCleared = true → reader.Reads after) : reader.Knows phase after where
  floor := hcache ▸ h.floor
  suits := fun hbuilt =>
    ⟨hmatcher.trans (h.suits hbuilt).matcher, hregistry.trans (h.suits hbuilt).registry⟩
  reads := hreads
  renewed := fun hcleared => hcache ▸ h.renewed hcleared

/-- What else changes makes no difference. -/
theorem Knows.congr (h : reader.Knows phase workspace) {after : Workspace}
    (hcache : after.cache = workspace.cache) (hmatcher : after.matcher = workspace.matcher)
    (hregistry : after.registry = workspace.registry)
    (htexts : after.textAt = workspace.textAt) : reader.Knows phase after :=
  h.withTexts hcache hmatcher hregistry fun hcleared path text showTag outline found htext =>
    h.reads hcleared path text showTag outline found (htexts ▸ htext)

/-- The same is known of another cache that gives out no fewer tickets and is renewed if the cache
was. -/
theorem Knows.withCache (h : reader.Knows phase workspace) {cache : Cache}
    (hissued : workspace.cache.issued ≤ cache.issued)
    (hrenewed : phase.isCleared = true → workspace.cache.Renewed reader.Allows phase.floor →
      cache.Renewed reader.Allows phase.floor) :
    reader.Knows phase { workspace with cache := cache } where
  floor := Nat.le_trans h.floor hissued
  suits := fun hbuilt => ⟨(h.suits hbuilt).matcher, (h.suits hbuilt).registry⟩
  reads := h.reads
  renewed := fun hcleared => hrenewed hcleared (h.renewed hcleared)

/-- Nothing need be known before a rebuild. -/
theorem knows_unbuilt (workspace : Workspace) : reader.Knows .unbuilt workspace where
  floor := Nat.zero_le _
  suits := fun hbuilt => (Bool.false_ne_true hbuilt).elim
  reads := fun hcleared => (Bool.false_ne_true hcleared).elim
  renewed := fun hcleared => (Bool.false_ne_true hcleared).elim

/-- All that need be known once something to search for is given is that it is searched for. -/
theorem Suits.knows_built (h : reader.Suits workspace) :
    reader.Knows (.built workspace.cache.issued) workspace where
  floor := Nat.le_refl _
  suits := fun _ => h
  reads := fun hcleared => (Bool.false_ne_true hcleared).elim
  renewed := fun hcleared => (Bool.false_ne_true hcleared).elim

/-- There is no outline in a cache that has been cleared now. -/
theorem Suits.knows_cleared (h : reader.Suits workspace) (hreads : reader.Reads workspace) :
    reader.Knows (.cleared workspace.cache.issued)
      { workspace with cache := workspace.cache.clear } where
  floor := Nat.le_refl _
  suits := fun _ => ⟨h.matcher, h.registry⟩
  reads := fun _ => hreads
  renewed := fun _ => Cache.renewed_clear reader.Allows workspace.cache

/-! ## Readings -/

/-- A reading may end in a phase: it began before the cache was cleared, or what it leaves is
allowed. -/
structure Harmless (reader : Reader) (phase : Phase) (ticket : Nat) (before : Option Outline)
    (matcher : Matcher) (registry : Registry) (text : Except FileError (List Char)) : Prop where
  before : phase.isCleared = true → ticket ≤ phase.floor ∨
    ∀ outline, before = some outline → reader.Allows outline
  outline : phase.isCleared = true → ticket ≤ phase.floor ∨
    ∀ characters showTag outline found, text = .ok characters →
      Outline.ofText matcher registry showTag characters = .ok (outline, found) →
      reader.Allows outline

/-- A reading that fails gives up its ticket. -/
theorem Knows.giveUp (h : reader.Knows phase workspace) {ticket : Nat} {before : Option Outline}
    (hbefore : phase.isCleared = true → ticket ≤ phase.floor ∨
      ∀ outline, before = some outline → reader.Allows outline) (path : Path) :
    (Workspace.giveUp path ticket before).Upholds reader.Knows phase workspace :=
  h.withCache (Nat.le_of_eq (Cache.issued_giveUp ..).symm) fun hcleared hrenewed =>
    hrenewed.giveUp (hbefore hcleared) path

/-- A reading lands. -/
theorem Knows.land (h : reader.Knows phase workspace) {ticket : Nat} {outline : Outline}
    (houtline : phase.isCleared = true → ticket ≤ phase.floor ∨ reader.Allows outline)
    (path : Path) :
    (Workspace.land path ticket outline).Upholds reader.Knows phase workspace := by
  simp only [Workspace.land, bind_eq, upholds_workspace]
  split
  · refine upholds_ask h fun file _ => ?_
    rw [upholds_change]
    have hlanded : reader.Knows phase
        { workspace with cache := workspace.cache.land path file ticket outline } :=
      h.withCache (Nat.le_of_eq (Cache.issued_land ..).symm) fun hcleared hrenewed =>
        hrenewed.land (houtline hcleared) path file
    split
    · exact hlanded
    · exact hlanded
  · exact h

/-- A reading ends. -/
theorem Knows.endReading (h : reader.Knows phase workspace) {matcher : Matcher}
    {registry : Registry} {ticket : Nat} {before : Option Outline}
    {text : Except FileError (List Char)}
    (hharmless : reader.Harmless phase ticket before matcher registry text) (path : Path) :
    (Workspace.endReading matcher registry path ticket before text).Upholds reader.Knows phase
      workspace := by
  cases text with
  | error error => exact h.giveUp hharmless.before path
  | ok characters =>
      simp only [Workspace.endReading, bind_eq, upholds_workspace]
      split
      · exact h.giveUp hharmless.before path
      · next outline found hread =>
          refine (h.land (fun hcleared => ?_) path).bind fun _ => upholdsFrom_done _
          exact (hharmless.outline hcleared).imp_right fun hallows =>
            hallows characters _ outline found rfl hread

/-- A reading that begins is harmless from then on: it has one of the tickets that do not count, or
it finds what is allowed. -/
theorem Knows.begins (h : reader.Knows phase workspace) {path : Path} {before : Option Outline}
    (hbefore : phase.isCleared = true → ∀ outline, before = some outline → reader.Allows outline)
    {matcher : Matcher} (hmatcher : workspace.matcher = some matcher) :
    ∃ paused, phase ≤ paused ∧ phase ≈ paused ∧
      reader.Knows paused { workspace with cache := workspace.cache.issue path } ∧
      ∀ later, paused ≤ later → reader.Harmless later workspace.cache.nextTicket before matcher
        workspace.registry (workspace.textAt path) := by
  have hissued : reader.Knows phase { workspace with cache := workspace.cache.issue path } :=
    h.withCache (Nat.le_succ _) fun _ hrenewed => hrenewed.issue path
  by_cases hcleared : phase.isCleared = true
  · refine ⟨phase, le_rfl, Setoid.refl _, hissued, fun later _ =>
      ⟨fun _ => .inr (hbefore hcleared), fun _ => .inr ?_⟩⟩
    intro characters showTag outline found htext hread
    obtain ⟨hsame, hregistry⟩ := h.suits (phase.built_of_cleared hcleared)
    obtain rfl : matcher = reader.matcher := Option.some.inj (hmatcher.symm.trans hsame)
    exact h.reads hcleared path characters showTag outline found htext (hregistry ▸ hread)
  · refine ⟨{ phase with floor := workspace.cache.nextTicket },
      ⟨Nat.le_succ_of_le h.floor, id, id⟩, ⟨rfl, rfl⟩,
      ⟨Nat.le_refl _, hissued.suits, hissued.reads, ?_⟩, ?_⟩
    · exact fun hnow => absurd hnow hcleared
    · exact fun later hlater => ⟨fun _ => .inl hlater.1, fun _ => .inl hlater.1⟩

/-- A reading begins and ends. -/
theorem Knows.readUnder (h : reader.Knows phase workspace) (path : Path) {before : Option Outline}
    (hbefore : phase.isCleared = true → ∀ outline, before = some outline →
      reader.Allows outline) :
    (Workspace.readUnder path before).Upholds reader.Knows phase workspace := by
  simp only [Workspace.readUnder, bind_eq, upholds_workspace]
  split
  · next matcher hmatcher =>
      simp only [Workspace.readOutline, bind_eq, upholds_workspace, upholds_change]
      have hissued : reader.Knows phase { workspace with cache := workspace.cache.issue path } :=
        h.withCache (Nat.le_succ _) fun _ hrenewed => hrenewed.issue path
      obtain ⟨paused, hpaused, hsame, hknows, hharmless⟩ := h.begins hbefore hmatcher
      exact Workspace.upholds_readText hissued path hpaused hsame hknows
        fun later after hlater hknown => hknown.endReading (hharmless later hlater) path
  · exact h

/-! ## What is done to the cache -/

/-- What is cached for a file is replaced. -/
theorem Knows.replace (h : reader.Knows phase workspace) (path : Path) :
    (Workspace.replace path).Upholds reader.Knows phase workspace := by
  simp only [Workspace.replace, bind_eq]
  refine upholds_ask h fun file _ => ?_
  rw [upholds_workspace, upholds_change]
  have hdisplaced : reader.Knows phase
      { workspace with cache := workspace.cache.displace path file } :=
    h.withCache (Nat.le_refl _) fun _ hrenewed =>
      hrenewed.displace reader.allows_empty path file
  exact hdisplaced.readUnder path fun hcleared outline hbefore =>
    (h.renewed hcleared).allowed_of_lookup hbefore

/-- What is cached for a file is refreshed. -/
theorem Knows.refresh (h : reader.Knows phase workspace) (path : Path) :
    (Workspace.refresh path).Upholds reader.Knows phase workspace := by
  simp only [Workspace.refresh, bind_eq]
  refine upholds_ask h fun file _ => ?_
  exact h.readUnder _ fun hcleared outline hbefore => (h.renewed hcleared).allowed _ outline hbefore

/-- What is cached for a path is removed. -/
theorem Knows.remove (h : reader.Knows phase workspace) (path : Path) :
    (Workspace.remove path).Upholds reader.Knows phase workspace := by
  simp only [Workspace.remove, bind_eq]
  refine upholds_ask h fun file _ => ?_
  exact h.withCache (Nat.le_refl _) fun _ hrenewed => hrenewed.remove path file

/-- The cache is cleared. -/
theorem Knows.clear (h : reader.Knows phase workspace) :
    Workspace.clear.Upholds reader.Knows phase workspace :=
  h.withCache (Nat.le_refl _) fun _ hrenewed => hrenewed.clear

/-- All that is done to the cache upholds what is known. -/
theorem upkeep (reader : Reader) : Upkeep reader.Knows where
  congr := fun h hsame hcache => h.congr hcache hsame.matcher hsame.registry
    (Workspace.textAt_congr hsame.buffers hsame.disk)
  replace := Knows.replace
  refresh := Knows.refresh
  remove := Knows.remove
  clear := Knows.clear

/-! ## Rebuilds -/

/-- Before a rebuild it does not matter what is searched for. -/
theorem Knows.unbuilt (h : reader.Knows phase workspace) (hphase : phase.isBuilt = false)
    {after : Workspace} (hcache : after.cache = workspace.cache) : reader.Knows phase after where
  floor := hcache ▸ h.floor
  suits := fun hbuilt => absurd (hphase.symm.trans hbuilt) (by simp)
  reads := fun hcleared => absurd (hphase.symm.trans (phase.built_of_cleared hcleared)) (by simp)
  renewed := fun hcleared => absurd (hphase.symm.trans (phase.built_of_cleared hcleared)) (by simp)

/-- Something new to search for is built. -/
theorem Knows.build (h : reader.Knows phase workspace) (hphase : phase.isBuilt = false) :
    Workspace.build.Upholds reader.Knows phase workspace := by
  simp only [Workspace.build, bind_eq, upholds_workspace]
  split
  · exact h
  · rw [upholds_change]
    cases Workspace.delayOf workspace.settings with
    | ok delay => exact h.unbuilt hphase rfl
    | error error => exact h.unbuilt hphase rfl

/-- Something new to search for is built, and the workspace is read again. -/
theorem Knows.rebuild (h : reader.Knows phase workspace) (hphase : phase.isBuilt = false)
    (settings : Option Settings) :
    (Workspace.rebuild settings).Upholds reader.Knows phase workspace := by
  have hset : reader.Knows phase
      { workspace with settings := settings.getD workspace.settings, isScanned := false } :=
    h.congr rfl rfl rfl rfl
  exact reader.upkeep.rebuild (hset.build hphase)

end Reader

end CommentIndex
