import CommentIndex.Proofs.Debouncer.Expiry
import CommentIndex.Proofs.Session.Desk
import CommentIndex.Proofs.Session.Traffic

/-!
# Which edits are kept

Documents are opened and edited, the focus moves between them, and time passes. A document is read
when it gets the focus while nothing is cached for it, and when the timer of the latest edit expires
while it has the focus; at no other time. `cached_useAll` says so for whole runs, and
`edits_kept_iff` draws the conclusion: once every timer has expired, the outlines that are cached
are those of the latest texts if and only if each document was last read with a text of the same
outline.
-/

namespace CommentIndex

open Activity

namespace Session

/-- What may be done with the documents of a session. -/
inductive Use where
  | open (path : Path) (text : String)
  | edit (path : Path) (text : String)
  | focus (path : Path)
  | pass (milliseconds : Nat)
  | flush
deriving DecidableEq, Repr

/-- The session once something has been done with its documents. -/
def use (session : Session) : Use → Session
  | .open path text => (run (Workspace.openDocument path text true) session).2
  | .edit path text => (run (Workspace.edit path text) session).2
  | .focus path => (run (Workspace.setActive (some path)) session).2
  | .pass milliseconds => session.advance milliseconds
  | .flush => session.flush

/-- The session once all has been done in order. -/
def useAll (session : Session) (uses : List Use) : Session :=
  uses.foldl use session

/-- Whether a document is read by what is done. -/
def Use.reads (desk : Desk) (session : Session) (path : Path) : Use → Bool
  | .open opened _ | .focus opened =>
    opened = path && (desk.cached? session.workspace opened).isNone
  | .edit _ _ => false
  | .pass milliseconds =>
    session.workspace.active = some path &&
      session.workspace.debouncer.isDue (session.workspace.now + milliseconds)
  | .flush =>
    session.workspace.active = some path &&
      session.workspace.debouncer.timers.any session.workspace.debouncer.isCurrent

/-- Only documents of the desk are opened and edited, with texts that can be read, and only those
that are open get the focus. -/
def Use.Suits (desk : Desk) (session : Session) : Use → Prop
  | .open path text | .edit path text => desk.IsDocument path ∧ (desk.outline? text).isSome
  | .focus path => desk.IsDocument path ∧ session.workspace.isOpen path
  | .pass _ | .flush => True

/-- What is done in order suits the desk. -/
def Suits (desk : Desk) : Session → List Use → Prop
  | _, [] => True
  | session, next :: rest => next.Suits desk session ∧ Suits desk (session.use next) rest

/-- The outline with which a document was read last, or `known` if it was not read. -/
def lastRead (desk : Desk) (path : Path) (session : Session) (known : Option Outline) :
    List Use → Option Outline
  | [] => known
  | next :: rest =>
    let after := session.use next
    lastRead desk path after
      (if next.reads desk session path then desk.latest? after.workspace path else known) rest

variable {desk : Desk} {session : Session} {path : Path} {text : String}

/-! ## Timers -/

/-- Nothing is held in a session that does not hold its readings. -/
theorem holds_eq_false (h : session.holdsReads = false) : session.holds = fun _ => false := by
  funext reason
  simp [holds, h]

/-- What time does to a session of a desk: the texts and the focus stay, and the document that has
the focus is read if `due`. -/
structure Passes (desk : Desk) (due : Bool) (session after : Session) : Prop where
  holdsReads : after.holdsReads = false
  active : after.workspace.active = session.workspace.active
  buffers : after.workspace.buffers = session.workspace.buffers
  leads : desk.Leads (fun path => session.workspace.active = some path && due) session.workspace
    after.workspace

/-- Time passes, and then more time. -/
theorem Passes.trans {due later : Bool} {middle after : Session}
    (h : Passes desk due session middle) (hnext : Passes desk later middle after) :
    Passes desk (due || later) session after where
  holdsReads := hnext.holdsReads
  active := hnext.active.trans h.active
  buffers := hnext.buffers.trans h.buffers
  leads := (h.leads.trans hnext.leads hnext.buffers).congr fun path _ => by
    rw [h.active, Bool.and_or_distrib_left]

/-- When a timer expires whose request is the latest, the document that has the focus is read. -/
theorem expire_passes (h : desk.Serves session.workspace) (hreads : session.holdsReads = false)
    (timer : Timer Nat) (others : Debouncer Nat) :
    Passes desk (others.isCurrent timer) session (session.expire timer others) ∧
      (session.expire timer others).workspace.debouncer = others := by
  let timed : Session :=
    { session with workspace := { session.workspace with now := timer.due, debouncer := others } }
  have htimed : desk.Serves timed.workspace := h.timed timer.due others
  have hidle : desk.Leads (fun _ => false) session.workspace timed.workspace :=
    Desk.Leads.idle htimed rfl
  cases hcurrent : others.isCurrent timer with
  | false =>
      have hexpire : session.expire timer others = timed := by simp [expire, hcurrent, timed]
      rw [hexpire]
      exact ⟨⟨hreads, rfl, rfl, hidle.congr fun path _ => by simp⟩, rfl⟩
  | true =>
      obtain ⟨cache, hstretch, hleads⟩ := htimed.refreshActive
      let task : Activity (Option Bool) := Workspace.refreshActive.bind fun _ => .done none
      have htask : task.stretch timed.holds timed.workspace =
          (.finished (.ok none), { timed.workspace with cache := cache }) := by
        have hholds : timed.holds = fun _ => false := holds_eq_false hreads
        rw [hholds, stretch_bind, hstretch]
        rfl
      have hwork := runTask_finished timed htask none
      have hexpire : session.expire timer others = timed.runTask none task := by
        simp only [expire, hcurrent, if_true]
        rfl
      rw [hexpire]
      refine ⟨⟨hwork.holdsReads.trans hreads, ?_, ?_, ?_⟩, ?_⟩
      · rw [hwork.workspace]
      · rw [hwork.workspace]
      · rw [hwork.workspace]
        exact (hidle.trans hleads rfl).congr fun path _ => by simp [timed]
      · rw [hwork.workspace]

/-- Once every timer due by a time has expired, the document that has the focus is read if the
latest request was due by then. -/
theorem expireTo_passes (h : desk.Serves session.workspace) (hreads : session.holdsReads = false)
    (limit : Nat) {count : Nat} (hcount : session.workspace.debouncer.timers.length ≤ count) :
    Passes desk (session.workspace.debouncer.isDue limit) session
      (expireTo limit count session) := by
  have hnothing (hdue : session.workspace.debouncer.isDue limit = false) :
      Passes desk (session.workspace.debouncer.isDue limit) session session :=
    ⟨hreads, rfl, rfl, (Desk.Leads.idle h rfl).congr fun path _ => by simp [hdue]⟩
  induction count generalizing session with
  | zero =>
      refine hnothing ?_
      rw [Debouncer.isDue, List.length_eq_zero_iff.mp (Nat.le_zero.mp hcount)]
      rfl
  | succ count ih =>
      unfold expireTo
      cases hexpire : session.workspace.debouncer.expire? limit with
      | none => exact hnothing (Debouncer.isDue_of_expire?_none hexpire)
      | some found =>
          obtain ⟨timer, others⟩ := found
          obtain ⟨hpasses, hothers⟩ := expire_passes h hreads timer others
          have hlength := (Debouncer.expire?_perm hexpire).1.length_eq
          rw [List.length_cons] at hlength
          have hrest : Passes desk (others.isDue limit) (session.expire timer others)
              (expireTo limit count (session.expire timer others)) := by
            have hnext := ih hpasses.leads.serves hpasses.holdsReads (by rw [hothers]; omega)
            rw [hothers] at hnext
            refine hnext fun hdue => ?_
            exact ⟨hpasses.holdsReads, rfl, rfl,
              (Desk.Leads.idle hpasses.leads.serves rfl).congr fun path _ => by simp [hdue]⟩
          rw [Debouncer.isDue_of_expire? hexpire]
          exact hpasses.trans hrest

/-- By a later time the document that has the focus is read if the latest request was due by
then. -/
theorem advanceTo_passes (h : desk.Serves session.workspace) (hreads : session.holdsReads = false)
    (limit : Nat) :
    Passes desk (session.workspace.debouncer.isDue limit) session (session.advanceTo limit) := by
  have hpasses := expireTo_passes h hreads limit (Nat.le_refl _)
  exact ⟨hpasses.holdsReads, hpasses.active, hpasses.buffers,
    ⟨hpasses.leads.serves.timed limit _, hpasses.leads.cached⟩⟩

/-! ## One use after the other -/

/-- Opening a document gives it its text and then the focus. -/
theorem stretch_openDocument (holds : Pause → Bool) (workspace : Workspace) (path : Path)
    (text : String) :
    (Workspace.openDocument path text true).stretch holds workspace =
      (Workspace.setActive (some path)).stretch holds (workspace.withBuffer path text) := rfl

/-- What is done with the documents of a desk reads those that it is said to read. -/
theorem use_leads (h : desk.Serves session.workspace) (hreads : session.holdsReads = false)
    {next : Use} (hsuits : next.Suits desk session) :
    (session.use next).holdsReads = false ∧
      desk.Leads (fun path => next.reads desk session path) session.workspace
        (session.use next).workspace := by
  cases next with
  | «open» path text =>
      obtain ⟨hdocument, htext⟩ := hsuits
      have hbuffered : desk.Serves (session.workspace.withBuffer path text) := h.withBuffer htext
      have hopen : ((session.workspace.withBuffer path text).buffers.find? path).isSome := by
        simp [Workspace.withBuffer]
      obtain ⟨cache, hstretch, hleads⟩ := hbuffered.setActive hdocument hopen
      have hwork := run_eq_stretch (Workspace.isPrompt_openDocument path text true) session
      rw [stretch_openDocument, hstretch] at hwork
      refine ⟨hwork.holdsReads.trans hreads, ?_⟩
      rw [use, hwork.workspace]
      have hidle : desk.Leads (fun _ => false) session.workspace
          (session.workspace.withBuffer path text) := Desk.Leads.idle hbuffered rfl
      refine (hidle.trans hleads rfl).congr fun other _ => ?_
      simp [Use.reads, Desk.cached?, Workspace.withBuffer, eq_comm]
  | edit path text =>
      obtain ⟨hdocument, htext⟩ := hsuits
      have hprompt : (Workspace.edit path text).IsPrompt := isPrompt_change _
      have hwork := run_eq_stretch hprompt session
      refine ⟨hwork.holdsReads.trans hreads, ?_⟩
      rw [use, hwork.workspace]
      have hbuffered : desk.Serves (session.workspace.withBuffer path text) := h.withBuffer htext
      exact Desk.Leads.idle (hbuffered.timed _ _) rfl
  | focus path =>
      obtain ⟨hdocument, hopen⟩ := hsuits
      obtain ⟨cache, hstretch, hleads⟩ := h.setActive hdocument hopen
      have hwork := run_eq_stretch (Workspace.isPrompt_setActive (some path)) session
      rw [hstretch] at hwork
      refine ⟨hwork.holdsReads.trans hreads, ?_⟩
      rw [use, hwork.workspace]
      refine hleads.congr fun other _ => ?_
      simp [Use.reads, eq_comm]
  | pass milliseconds =>
      have hpasses := advanceTo_passes h hreads (session.workspace.now + milliseconds)
      exact ⟨hpasses.holdsReads, hpasses.leads⟩
  | flush =>
      let last := (session.workspace.debouncer.timers.map (·.due)).foldl max session.workspace.now
      have hlast : ∀ timer ∈ session.workspace.debouncer.timers, timer.due ≤ last :=
        fun timer htimer =>
          (Debouncer.le_foldl_max _ _).2 timer.due (List.mem_map_of_mem htimer)
      have hpasses := advanceTo_passes h hreads last
      rw [Debouncer.isDue_of_forall_le hlast] at hpasses
      exact ⟨hpasses.holdsReads, hpasses.leads⟩

/-- What is cached for a document in the end is the outline with which it was read last, or else
what was cached in the beginning. -/
theorem cached_useAll (h : desk.Serves session.workspace) (hreads : session.holdsReads = false)
    {uses : List Use} (hsuits : Suits desk session uses) (hdocument : desk.IsDocument path) :
    desk.cached? (session.useAll uses).workspace path =
      lastRead desk path session (desk.cached? session.workspace path) uses := by
  induction uses generalizing session with
  | nil => rfl
  | cons next rest ih =>
      obtain ⟨hafter, hleads⟩ := use_leads h hreads hsuits.1
      rw [useAll, List.foldl_cons, ← useAll, ih hleads.serves hafter hsuits.2, lastRead,
        hleads.cached path hdocument]

/-- A desk is served to the end. -/
theorem serves_useAll (h : desk.Serves session.workspace) (hreads : session.holdsReads = false)
    {uses : List Use} (hsuits : Suits desk session uses) :
    desk.Serves (session.useAll uses).workspace := by
  induction uses generalizing session with
  | nil => exact h
  | cons next rest ih =>
      obtain ⟨hafter, hleads⟩ := use_leads h hreads hsuits.1
      exact ih hleads.serves hafter hsuits.2

/-- Whatever is done with the documents of a desk, once every timer has expired the cached outline
of every open document is that of its latest text if and only if every open document was last read
with a text of the same outline. -/
theorem edits_kept_iff (h : desk.Serves session.workspace) (hreads : session.holdsReads = false)
    {uses : List Use} (hsuits : Suits desk session (uses ++ [.flush])) :
    let final := session.useAll (uses ++ [.flush])
    (∀ path text, desk.IsDocument path → final.workspace.buffers.find? path = some text →
        ∃ outline, desk.outline? text = some outline ∧
          final.workspace.lookup? path = .ok (some outline)) ↔
      ∀ path text, desk.IsDocument path → final.workspace.buffers.find? path = some text →
        lastRead desk path session (desk.cached? session.workspace path) (uses ++ [.flush]) =
          desk.outline? text := by
  intro final
  have hserves : desk.Serves final.workspace := serves_useAll h hreads hsuits
  refine forall₄_congr fun path text hdocument hopen => ?_
  have hlookup : final.workspace.lookup? path = .ok (lastRead desk path session
      (desk.cached? session.workspace path) (uses ++ [.flush])) := by
    rw [← cached_useAll h hreads hsuits hdocument, Workspace.lookup?,
      hserves.names.fileAt (desk.usable path hdocument)]
    rfl
  obtain ⟨outline, houtline⟩ :=
    Option.isSome_iff_exists.mp (hserves.texts path text hdocument hopen)
  rw [hlookup, houtline]
  constructor
  · rintro ⟨found, hfound, hread⟩
    rw [hfound]
    exact Except.ok.inj hread
  · intro hread
    exact ⟨outline, rfl, congrArg Except.ok hread⟩

/-! ## One tag and two documents -/

/-- What searches for one tag. -/
def oneTag : Matcher where
  marks := [['#']]
  tokens := ["TODO".toList]
  separators := [[':', ' ']]
  endTag := "!"
  matchCase := false

/-- A loaded session without documents, in which one tag is searched for. -/
def loaded : Session where
  workspace :=
    { root := .root
      settings := {}
      disk := { tree := .empty }
      registry := .ofTags [{ name := "TODO" }]
      matcher := some oneTag
      isLoaded := true
      debouncer := .idle 100 }

/-- Two documents. -/
def firstDocument : Path := .absolute ["a.py"]

@[inherit_doc firstDocument]
def secondDocument : Path := .absolute ["b.py"]

/-- The desk of two documents. -/
def pair : Desk where
  IsDocument := fun path => path = firstDocument ∨ path = secondDocument
  file := loaded.workspace.disk.real
  matcher := oneTag
  registry := .ofTags [{ name := "TODO" }]
  showTag := true
  usable := by
    rintro path (rfl | rfl) <;> decide
  distinct := by
    rintro path other (rfl | rfl) (rfl | rfl) h
    · rfl
    · exact absurd h (by decide +kernel)
    · exact absurd h (by decide +kernel)
    · rfl

/-- The edit of a document that has the focus is kept, although it gets the focus while it is
cached. -/
theorem edits_kept_with_focus :
    let uses : List Use :=
      [.open firstDocument "# TODO: one", .open secondDocument "", .focus firstDocument,
        .edit firstDocument "# TODO: two"]
    pair.Serves loaded.workspace ∧ Suits pair loaded (uses ++ [.flush]) ∧
      ∀ path text, pair.IsDocument path →
        (loaded.useAll (uses ++ [.flush])).workspace.buffers.find? path = some text →
        ∃ outline, pair.outline? text = some outline ∧
          (loaded.useAll (uses ++ [.flush])).workspace.lookup? path = .ok (some outline) := by
  intro uses
  have hserves : pair.Serves loaded.workspace :=
    { loaded := rfl
      matcher := rfl
      registry := rfl
      showTag := rfl
      names := fun _ _ => rfl
      holders := fun _ _ _ h => by contradiction
      texts := fun _ _ _ h => by contradiction
      active := fun _ h => by contradiction }
  have hsuits : Suits pair loaded (uses ++ [.flush]) :=
    ⟨⟨.inl rfl, by decide +kernel⟩, ⟨.inr rfl, by decide +kernel⟩, ⟨.inl rfl, by decide +kernel⟩,
      ⟨.inl rfl, by decide +kernel⟩, trivial, trivial⟩
  refine ⟨hserves, hsuits, (edits_kept_iff hserves rfl hsuits).mpr ?_⟩
  rintro path text (rfl | rfl) hopen
  · have htext : (loaded.useAll (uses ++ [.flush])).workspace.buffers.find? firstDocument =
        some "# TODO: two" := by
      decide +kernel
    obtain rfl := Option.some.inj (htext.symm.trans hopen)
    decide +kernel
  · have htext : (loaded.useAll (uses ++ [.flush])).workspace.buffers.find? secondDocument =
        some "" := by
      decide +kernel
    obtain rfl := Option.some.inj (htext.symm.trans hopen)
    decide +kernel

/-- A document is edited when another one has the focus. The timer has that one read, and when the
focus comes back, the edited document is already cached. -/
theorem edit_lost_without_focus :
    let final := loaded.useAll
      [.open firstDocument "# TODO: one", .open secondDocument "",
        .edit firstDocument "# TODO: two", .pass 100, .focus firstDocument, .flush]
    let texts (outline : Outline) := outline.flatten.map (·.facts.text)
    final.workspace.buffers.find? firstDocument = some "# TODO: two" ∧
      (pair.outline? "# TODO: two").map texts = some ["two"] ∧
      (final.workspace.lookup? firstDocument).toOption.join.map texts = some ["one"] := by
  decide +kernel

end Session

end CommentIndex
