import CommentIndex.Proofs.Session.Steady
import CommentIndex.Target

/-!
# Links to ids

A link to an id asks for what is cached for its document, and has the document read if that is
nothing. It takes whatever is there for the outline: an empty one that stands in for a reading that
is under way, and nothing at all if its own reading does not land. While nothing changes, the link
therefore leads to its target or to no target, and `linkTarget_iff` says when it leads to the right
one.
-/

namespace CommentIndex

open Activity

/-- What a link to an id leads to in a document with the given outline. -/
def LinkTarget.ofId (path : Path) (id : String) (outline : Outline) : LinkTarget :=
  match outline.findId? id with
  | some anchor => { path := path, line := some anchor.facts.line, id := some id }
  | none => { path := path, id := some id, broken := some ("Anchor " ++ id ++ " not found") }

namespace LinkTarget

variable {path : Path} {id : String} {outline : Outline}

theorem findId?_empty (id : String) : Outline.empty.findId? id = none := rfl

/-- No target is there exactly if there is no anchor with the id. -/
theorem ofId_eq_empty_iff : ofId path id .empty = ofId path id outline ↔
    outline.findId? id = none := by
  unfold ofId
  rw [findId?_empty]
  cases outline.findId? id <;> simp

end LinkTarget

namespace Workspace

variable {holds : Pause → Bool} {workspace : Workspace} {path : Path} {id : String}

/-- A link to an id leads to what the outline that is found gives; finding none is as finding an
empty one. -/
theorem idTarget_eq (path : Path) (id : String) :
    idTarget path id = (outlineOf path).bind fun found =>
      .done (LinkTarget.ofId path id (found.getD .empty)) := by
  refine congrArg (outlineOf path).bind (funext fun found => ?_)
  cases found with
  | none => rfl
  | some outline =>
      unfold LinkTarget.ofId
      rw [Option.bind_some, Option.getD_some]
      cases outline.findId? id <;> rfl

/-- A link to an id in a document that is cached leads to what the cached outline gives. -/
theorem stretch_idTarget_of_cached (workspace : Workspace) (husable : path.isUnusable = false)
    {outline : Outline}
    (hcached : workspace.cache.lookup? (workspace.disk.real path) = some outline) (id : String) :
    (idTarget path id).stretch holds workspace =
      (.finished (.ok (LinkTarget.ofId path id outline)), workspace) := by
  rw [idTarget_eq, outlineOf, bind_eq, Activity.bind_assoc,
    stretch_ask holds workspace (lookup?_of_usable husable), hcached]
  rfl

/-- What is left of a link to an id once the text of its document is taken. -/
def restOfIdTarget (workspace : Workspace) (matcher : Matcher) (path : Path) (id : String) :
    Activity LinkTarget :=
  (endReading matcher workspace.registry path workspace.cache.nextTicket none
    (workspace.textAt path)).bind fun _ => (Activity.ask (·.lookup? path)).bind fun found =>
      .done (LinkTarget.ofId path id (found.getD .empty))

/-- A link to an id in a document that is not cached has the document read. -/
theorem stretch_idTarget_of_none (workspace : Workspace) (husable : path.isUnusable = false)
    {matcher : Matcher} (hmatcher : workspace.matcher = some matcher)
    (hnone : workspace.cache.lookup? (workspace.disk.real path) = none) (id : String) :
    (idTarget path id).stretch holds workspace =
      (Activity.pause (workspace.pauseAt path)
        (workspace.restOfIdTarget matcher path id)).stretch holds
          (workspace.readingBegun path) := by
  rw [idTarget_eq, outlineOf, bind_eq, Activity.bind_assoc,
    stretch_ask holds workspace (lookup?_of_usable husable), hnone, bind_eq, Activity.bind_assoc]
  refine (stretch_replace_pause workspace husable hmatcher _).trans ?_
  rw [hnone]
  rfl

/-- Once the text is there, the reading ends, and the link leads to what is cached then. -/
theorem stretch_restOfIdTarget {workspace resumed : Workspace} (husable : path.isUnusable = false)
    (hdisk : resumed.disk = workspace.disk) {matcher : Matcher} {text : List Char}
    (htext : workspace.textAt path = .ok text) {outline : Outline} {anchors : Bool}
    (hread : Outline.ofText matcher workspace.registry resumed.settings.tags.showTag text =
      .ok (outline, anchors)) (id : String) :
    ((workspace.restOfIdTarget matcher path id).stretch holds resumed).1 =
      .finished (.ok (LinkTarget.ofId path id
        (((resumed.cache.land path (workspace.disk.real path) workspace.cache.nextTicket
          outline).lookup? (workspace.disk.real path)).getD .empty))) := by
  have hnames : resumed.Names workspace.disk.real := fun _ _ => by rw [hdisk]
  rw [restOfIdTarget, htext, stretch_bind, stretch_endReading_of_outline hnames husable hread]
  dsimp only
  rw [stretch_ask _ _ (lookup?_of_usable husable)]
  dsimp only
  rw [hdisk]
  rfl

/-- The text of a link to an id leads there if its path has a document. -/
theorem stretch_linkTarget (workspace : Workspace) {text id : List Char} {source : Path}
    {link : LinkText} (hlink : LinkText.split? text = some link)
    (hid : link.parameter = '#' :: id)
    (hpath :
      Path.normalized (workspace.linkFolder source link) (.ofText (String.ofList link.path)) = path)
    (hexists : workspace.hasDocument path = .ok true) :
    (linkTarget text source).stretch holds workspace =
      (idTarget path (String.ofList id)).stretch holds workspace := by
  unfold linkTarget
  simp only [hlink, bind_eq, stretch_workspace, hpath]
  rw [stretch_ask holds workspace hexists]
  simp only [if_true, parameterTarget, hid]

end Workspace

namespace Workshop

open Workspace

variable {start : Workspace} {path : Path} {outline : Outline} {workshop : Workshop}
  {holds : Pause → Bool}

section

variable (holds) (workshop)

/-- How far an activity gets that begins in a workshop, if others have their turns at its first
pause. -/
def await {α : Type} (activity : Activity α) (between : List Turn) : Progress α :=
  match activity.stretch holds workshop.workspace with
  | (.held rest, after) =>
    (rest.stretch holds (run holds ⟨after, workshop.errands⟩ between).workspace).1
  | (progress, _) => progress

/-- The workspace in which the text is there for a reading that begins in a workshop in place of
what is cached, if others have their turns at its pause. -/
def readingEnds (path : Path) (between : List Turn) : Workspace :=
  let begun : Workshop := ⟨workshop.workspace.readingBegun path, workshop.errands⟩
  if holds (workshop.workspace.pauseAt path) then (begun.run holds between).workspace
  else begun.workspace

end

/-- An activity that ends at one stretch waits for nothing. -/
theorem await_of_finished {α : Type} {activity : Activity α} {outcome : Outcome α}
    {after : Workspace}
    (h : activity.stretch holds workshop.workspace = (.finished outcome, after))
    (between : List Turn) : workshop.await holds activity between = .finished outcome := by
  rw [await, h]

/-- An activity that has a document read and then ends sees the workspace in which the text is
there. -/
theorem await_of_reading {α : Type} {activity rest : Activity α} {between : List Turn}
    {outcome : Outcome α}
    (h : activity.stretch holds workshop.workspace =
      (Activity.pause (workshop.workspace.pauseAt path) rest).stretch holds
        (workshop.workspace.readingBegun path))
    (hrest : (rest.stretch holds (workshop.readingEnds holds path between)).1 =
      .finished outcome) :
    workshop.await holds activity between = .finished outcome := by
  rw [await, h, Activity.stretch]
  unfold readingEnds at hrest
  by_cases hpause : holds (workshop.workspace.pauseAt path)
  · rw [if_pos hpause] at hrest ⊢
    exact hrest
  · rw [if_neg hpause] at hrest ⊢
    generalize hresult : rest.stretch holds (workshop.workspace.readingBegun path) = result at hrest
    obtain ⟨progress, after⟩ := result
    obtain rfl : progress = .finished outcome := hrest
    rfl

/-- What is known at the start is known when the reading ends. -/
theorem recalls_readingEnds {target : Path} (hbuilt : start.IsBuilt)
    (hreads : start.ReadsAs target outline)
    (h : Keeps (Recalls start target outline) .quiet workshop) (path : Path) {between : List Turn}
    (hbetween : ∀ next ∈ between, next.IsQuiet start) :
    Recalls start target outline .quiet (workshop.readingEnds holds path between) := by
  have hcache : (workshop.workspace.readingBegun path).cache.Steady start.disk.real target
      outline := by
    unfold readingBegun
    rw [h.knows.sources.disk]
    exact (h.knows.steady.displace path).issue path
  have hbegun : Recalls start target outline .quiet (workshop.workspace.readingBegun path) :=
    h.knows.withCache hcache
  have hkeeps : Keeps (Recalls start target outline) .quiet
      ⟨workshop.workspace.readingBegun path, workshop.errands⟩ := ⟨hbegun, h.rests⟩
  unfold readingEnds
  dsimp only
  split
  · exact (keeps_run hbuilt hreads holds hbetween hkeeps).knows
  · exact hbegun

/-- What a link to an id leads to once it has found something for the outline, or nothing. -/
theorem ofId_eq_iff {found : Option Outline}
    (hfound : ∀ kept ∈ found, kept = .empty ∨ kept = outline) (path : Path) (id : String) :
    let target := LinkTarget.ofId path id (found.getD .empty)
    (target = LinkTarget.ofId path id outline ∨ target = LinkTarget.ofId path id .empty) ∧
      (target = LinkTarget.ofId path id outline ↔
        outline.findId? id = none ∨ found = some outline) := by
  intro target
  by_cases hsome : found = some outline
  · have htarget : target = LinkTarget.ofId path id outline := by simp [target, hsome]
    exact ⟨.inl htarget, iff_of_true htarget (.inr hsome)⟩
  · have hempty : found.getD .empty = .empty := by
      cases found with
      | none => rfl
      | some kept => exact (hfound kept rfl).resolve_right fun heq => hsome (heq ▸ rfl)
    have htarget : target = LinkTarget.ofId path id .empty :=
      congrArg (LinkTarget.ofId path id) hempty
    exact ⟨.inr htarget, by rw [htarget, LinkTarget.ofId_eq_empty_iff, or_iff_left hsome]⟩

/-- What a link to a document finds for its outline in the end: what is cached when it is called, or
else its own reading if that is still the latest, or else what is cached by then. -/
def foundAtLast (holds : Pause → Bool) (workshop : Workshop) (path : Path) (outline : Outline)
    (between : List Turn) : Option Outline :=
  let file := workshop.workspace.disk.real path
  let ending := workshop.readingEnds holds path between
  (workshop.workspace.cache.lookup? file).or
    (if ending.cache.isCurrent path workshop.workspace.cache.nextTicket then some outline
      else ending.cache.lookup? file)

/-- A link to an id leads to what the outline that it finds in the end gives. -/
theorem await_linkTarget {between : List Turn} {text id : List Char} {source : Path}
    {link : LinkText} (hlink : LinkText.split? text = some link)
    (hid : link.parameter = '#' :: id)
    (hpath : Path.normalized (start.linkFolder source link) (.ofText (String.ofList link.path)) =
      path) (husable : path.isUnusable = false) (hexists : start.hasDocument path = .ok true)
    (houtline : start.outlineAt? path = some outline)
    (hcalled : start.SameSources workshop.workspace)
    (hending : start.SameSources (workshop.readingEnds holds path between)) :
    workshop.await holds (linkTarget text source) between =
      .finished (.ok (.ofId path (String.ofList id)
        ((workshop.foundAtLast holds path outline between).getD .empty))) := by
  have hlinked : (linkTarget text source).stretch holds workshop.workspace =
      (idTarget path (String.ofList id)).stretch holds workshop.workspace := by
    refine stretch_linkTarget workshop.workspace hlink hid ?_ ?_
    · rw [← hpath, linkFolder, linkFolder, hcalled.root]
    · rw [← hexists, hasDocument, hasDocument, isOpen, isOpen, hcalled.disk, hcalled.buffers]
  unfold foundAtLast
  dsimp only
  cases hseen : workshop.workspace.cache.lookup? (workshop.workspace.disk.real path) with
  | some seen =>
      exact await_of_finished (hlinked.trans
        (stretch_idTarget_of_cached workshop.workspace husable hseen _)) between
  | none =>
      obtain ⟨matcher, words, anchors, hmatcher, htext, hread⟩ := outlineAt?_eq_some_iff.mp
        ((hcalled.outlineAt?_eq path).trans houtline)
      rw [hcalled.settings, ← hending.settings] at hread
      have hended := await_of_reading (hlinked.trans (stretch_idTarget_of_none workshop.workspace
        husable hmatcher hseen _)) (stretch_restOfIdTarget husable
          (hending.disk.trans hcalled.disk.symm) htext hread _)
      rw [Cache.lookup?_land] at hended
      exact hended

/-- A link to an id in a document that can be read always leads to some target, while nothing
changes: to the first anchor with the id, or to none. It leads to the right one exactly if there is
no such anchor, or the outline of the document is cached when the link is called, or nothing is
cached then and, when the text has been read for the link, its reading is still the latest of the
document or the outline has been cached meanwhile. So it is whatever has happened before the link is
called, and whatever happens between its call and the end of its reading. -/
theorem linkTarget_iff (holds : Pause → Bool) {earlier between : List Turn} {text id : List Char}
    {source : Path} {link : LinkText} (hlink : LinkText.split? text = some link)
    (hid : link.parameter = '#' :: id)
    (hpath : Path.normalized (start.linkFolder source link) (.ofText (String.ofList link.path)) =
      path) (husable : path.isUnusable = false) (hexists : start.hasDocument path = .ok true)
    (houtline : start.outlineAt? path = some outline)
    (hreads : start.ReadsAs (start.disk.real path) outline) (hbuilt : start.IsBuilt)
    (hcache : start.cache.Steady start.disk.real (start.disk.real path) outline)
    (hearlier : ∀ next ∈ earlier, next.IsQuiet start)
    (hbetween : ∀ next ∈ between, next.IsQuiet start) :
    let called := run holds { workspace := start } earlier
    let file := start.disk.real path
    let ending := called.readingEnds holds path between
    ∃ target, called.await holds (linkTarget text source) between = .finished (.ok target) ∧
      (target = .ofId path (String.ofList id) outline ∨
        target = .ofId path (String.ofList id) .empty) ∧
      (target = .ofId path (String.ofList id) outline ↔
        outline.findId? (String.ofList id) = none ∨
          called.workspace.cache.lookup? file = some outline ∨
          called.workspace.cache.lookup? file = none ∧
            (ending.cache.isCurrent path called.workspace.cache.nextTicket = true ∨
              ending.cache.lookup? file = some outline)) := by
  intro called file ending
  have hstart : Keeps (Recalls start file outline) .quiet { workspace := start } :=
    ⟨⟨⟨rfl, rfl, rfl, rfl, rfl, rfl⟩, hcache⟩, fun _ hmem => absurd hmem List.not_mem_nil⟩
  have hcalled : Keeps (Recalls start file outline) .quiet called :=
    keeps_run hbuilt hreads holds hearlier hstart
  have hending : Recalls start file outline .quiet ending :=
    recalls_readingEnds hbuilt hreads hcalled path hbetween
  have hfile : called.workspace.disk.real path = file := by rw [hcalled.knows.sources.disk]
  have hended := await_linkTarget hlink hid hpath husable hexists houtline hcalled.knows.sources
    hending.sources
  have hfound : ∀ kept ∈ called.foundAtLast holds path outline between,
      kept = .empty ∨ kept = outline := by
    intro kept hkept
    rw [foundAtLast, hfile, Option.mem_def, Option.or_eq_some_iff] at hkept
    rcases hkept with hseen | ⟨-, hlate⟩
    · exact hcalled.knows.steady.lookup hseen
    · split at hlate
      · exact .inr (Option.some.inj hlate).symm
      · exact hending.steady.lookup hlate
  obtain ⟨hcases, hiff⟩ := ofId_eq_iff hfound path (String.ofList id)
  refine ⟨_, hended, hcases, hiff.trans (or_congr_right ?_)⟩
  rw [foundAtLast, hfile, Option.or_eq_some_iff]
  refine or_congr_right (and_congr_right fun _ => ?_)
  by_cases hcurrent : ending.cache.isCurrent path called.workspace.cache.nextTicket = true
  · simp [hcurrent, ending]
  · simp [hcurrent, ending]

/-! ## One link -/

/-- A document that is linked to. -/
def linkedDocument : Path := .absolute ["ws", "b.py"]

/-- A workspace in which that document is open, with an anchor that has an id. -/
def linked : Workspace where
  root := .absolute ["ws"]
  settings := oneLeft
  disk := { tree := .empty }
  registry := .ofSettings oneLeft.tags.listed oneLeft.tags.keyed
  matcher := some oneLeftMatcher
  buffers := KeyedList.empty.insert linkedDocument "# FIXME[id=x]: here"
  isLoaded := true
  debouncer := .idle 500

/-- A link to the anchor in another document. -/
def link : Activity LinkTarget :=
  linkTarget "b.py#x".toList (.absolute ["ws", "a.py"])

/-- What comes of the link if others have their turns before it is called and at its pause. -/
def linkedTo (earlier between : List Turn) : Option LinkTarget :=
  match (run takesTime { workspace := linked } earlier).await takesTime link between with
  | .finished (.ok target) => some target
  | _ => none

/-- The link is broken while its document is being read, and if the cache is cleared while it waits,
although the anchor is there. -/
theorem link_broken_by_reading_and_clearing :
    ((linked.outlineAt? linkedDocument).bind (·.findId? "x")).map (·.facts.line) = some 1 ∧
      linkedTo [] [] = some { path := linkedDocument, line := some 1, id := some "x" } ∧
      linkedTo [.begin (.replace linkedDocument)] [] =
        some { path := linkedDocument, id := some "x", broken := some "Anchor x not found" } ∧
      linkedTo [] [.begin .clear] =
        some { path := linkedDocument, id := some "x", broken := some "Anchor x not found" } := by
  decide +kernel

/-- Nothing can be read on an empty disk. -/
theorem read_emptyTree (names : List String) (octets : List UInt8) :
    FileTree.empty.read names ≠ .ok octets := by
  unfold FileTree.read FileTree.stat
  cases FileTree.empty.follow names with
  | error error => nofun
  | ok reached =>
      by_cases hroot : reached = []
      · subst hroot
        nofun
      · have hitem : FileTree.empty.item? reached = none := if_neg hroot
        intro h
        simp only [Bind.bind, Except.bind, hitem] at h
        contradiction

/-- Only the document that is open can be read. -/
theorem eq_of_textAt_linked {other : Path} {text : List Char} (h : linked.textAt other = .ok text) :
    other = linkedDocument := by
  by_contra hne
  have hclosed : linked.buffers.find? other = none := KeyedList.find?_insert_ne _ hne _
  rw [textAt, hclosed] at h
  cases hread : FileTree.empty.read (linked.disk.names other) with
  | ok octets => exact read_emptyTree _ octets hread
  | error error =>
      have hdisk : linked.disk.readText other = .error error := by
        unfold Disk.readText Disk.read
        exact congrArg (Except.map _) hread
      rw [hdisk] at h
      contradiction

theorem isBuilt_linked : linked.IsBuilt where
  registry := rfl
  matcher := ⟨oneLeftMatcher, rfl, compiles_oneLeft⟩

/-- All that can be read of the document is the outline of its buffer. -/
theorem readsAs_linked {outline : Outline} (h : linked.outlineAt? linkedDocument = some outline)
    (target : Path) : linked.ReadsAs target outline := by
  intro other found _ hother
  obtain ⟨matcher, text, anchors, -, htext, -⟩ := outlineAt?_eq_some_iff.mp hother
  rw [eq_of_textAt_linked htext, h] at hother
  exact (Option.some.inj hother).symm

/-- The cache is cleared while the link waits, and its document is read again. The reading for the
link does not land, but the link leads to the anchor. -/
theorem linkTarget_iff_read_meanwhile :
    let between : List Turn := [.begin .clear, .begin (.replace linkedDocument), .goOn 1]
    ((run takesTime { workspace := linked } []).readingEnds takesTime linkedDocument
        between).cache.isCurrent linkedDocument 1 = false ∧
      linkedTo [] between = some { path := linkedDocument, line := some 1, id := some "x" } := by
  intro between
  let outline := (linked.outlineAt? linkedDocument).getD .empty
  have houtline : linked.outlineAt? linkedDocument = some outline := by decide +kernel
  let parts : LinkText := ⟨none, "b.py".toList, '#' :: "x".toList⟩
  have hlink : LinkText.split? "b.py#x".toList = some parts := by decide +kernel
  have hid : parts.parameter = '#' :: "x".toList := rfl
  have hpath : Path.normalized (linked.linkFolder (.absolute ["ws", "a.py"]) parts)
      (.ofText (String.ofList parts.path)) = linkedDocument := by decide +kernel
  have husable : linkedDocument.isUnusable = false := by decide +kernel
  have hexists : linked.hasDocument linkedDocument = .ok true := by decide +kernel
  have hcache : linked.cache.Steady linked.disk.real (linked.disk.real linkedDocument) outline :=
    Cache.steady_clear _ _ _ .empty
  have hbefore : ∀ next ∈ ([] : List Turn), next.IsQuiet linked :=
    fun _ hmem => absurd hmem List.not_mem_nil
  have hquiet : ∀ next ∈ between, next.IsQuiet linked := by
    simp only [between, List.forall_mem_cons]
    exact ⟨⟨rfl, rfl, rfl, rfl, fun _ heq => by simp at heq⟩,
      ⟨rfl, rfl, rfl, rfl, fun _ heq => by simp at heq⟩,
      ⟨rfl, rfl, rfl, rfl, fun _ heq => by simp at heq⟩, hbefore⟩
  have hresult := linkTarget_iff takesTime hlink hid hpath husable hexists houtline
    (readsAs_linked houtline _) isBuilt_linked hcache hbefore hquiet
  obtain ⟨target, hended, -, hiff⟩ := hresult
  have hright : target = .ofId linkedDocument (String.ofList "x".toList) outline :=
    hiff.mpr (.inr (.inr ⟨by decide +kernel, .inr (by decide +kernel)⟩))
  have htarget : LinkTarget.ofId linkedDocument (String.ofList "x".toList) outline =
      { path := linkedDocument, line := some 1, id := some "x" } := by decide +kernel
  refine ⟨by decide +kernel, ?_⟩
  unfold linkedTo link
  rw [hended, hright, htarget]

end Workshop

end CommentIndex
