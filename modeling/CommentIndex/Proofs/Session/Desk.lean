import CommentIndex.Proofs.Session.Prompt

/-!
# Documents on a desk

A `Desk` is the documents of a session that are opened and edited, and what their outlines are read
with. `Desk.Serves` is what stays true of its workspace, and `Desk.Leads` says what something that
happens there does to what is cached: the documents that are read have the outline of their text
from then on, and the others keep what they have.
-/

namespace CommentIndex

open Activity

/-- Documents of which each is the only one of its file, and what their outlines are read with. -/
structure Desk where
  IsDocument : Path → Prop
  file : Path → Path
  matcher : Matcher
  registry : Registry
  showTag : Bool
  usable : ∀ path, IsDocument path → path.isUnusable = false
  distinct : ∀ first second, IsDocument first → IsDocument second →
    file first = file second → first = second

namespace Desk

variable (desk : Desk)

/-- The outline of a text, if it can be read. -/
def outline? (text : String) : Option Outline :=
  (Outline.ofText desk.matcher desk.registry desk.showTag text.toList).toOption.map Prod.fst

/-- The outline that is cached for a document. -/
def cached? (workspace : Workspace) (path : Path) : Option Outline :=
  workspace.cache.lookup? (desk.file path)

/-- The outline of the text of an open document. -/
def latest? (workspace : Workspace) (path : Path) : Option Outline :=
  (workspace.buffers.find? path).bind desk.outline?

/-- A workspace that is loaded has the matcher of the desk, every text of a document can be read,
and a document that has the focus is open. -/
structure Serves (workspace : Workspace) : Prop where
  loaded : workspace.isLoaded = true
  matcher : workspace.matcher = some desk.matcher
  registry : workspace.registry = desk.registry
  showTag : workspace.settings.tags.showTag = desk.showTag
  names : workspace.Names desk.file
  holders : ∀ path, desk.IsDocument path → ∀ holder,
    workspace.cache.holders.find? (desk.file path) = some holder → holder = path
  texts : ∀ path text, desk.IsDocument path → workspace.buffers.find? path = some text →
    (desk.outline? text).isSome
  active : ∀ path, workspace.active = some path →
    desk.IsDocument path ∧ (workspace.buffers.find? path).isSome

/-- What happens to a workspace reads some documents of the desk and no others. -/
structure Leads (reads : Path → Bool) (before after : Workspace) : Prop where
  serves : desk.Serves after
  cached : ∀ path, desk.IsDocument path →
    desk.cached? after path = if reads path then desk.latest? after path
      else desk.cached? before path

variable {desk} {workspace middle after : Workspace} {path : Path} {reads others : Path → Bool}

/-- Nothing is read while the cache stays as it is. -/
theorem Leads.idle (h : desk.Serves after) (hcache : after.cache = workspace.cache) :
    desk.Leads (fun _ => false) workspace after :=
  ⟨h, fun path _ => by simp [cached?, hcache]⟩

/-- One thing after another, while the texts stay as they are. -/
theorem Leads.trans (h : desk.Leads reads workspace middle) (hnext : desk.Leads others middle after)
    (hbuffers : after.buffers = middle.buffers) :
    desk.Leads (fun path => reads path || others path) workspace after where
  serves := hnext.serves
  cached := fun path hdocument => by
    have hlatest : desk.latest? after path = desk.latest? middle path := by
      simp only [latest?, hbuffers]
    rw [hnext.cached path hdocument, h.cached path hdocument, hlatest]
    cases reads path <;> cases others path <;> rfl

/-- What is read may be told in other words. -/
theorem Leads.congr (h : desk.Leads reads workspace after)
    (hreads : ∀ path, desk.IsDocument path → others path = reads path) :
    desk.Leads others workspace after :=
  ⟨h.serves, fun path hdocument => by rw [h.cached path hdocument, hreads path hdocument]⟩

/-- The time and the timers make no difference to a desk. -/
theorem Serves.timed (h : desk.Serves workspace) (now : Nat) (debouncer : Debouncer Nat) :
    desk.Serves { workspace with now := now, debouncer := debouncer } :=
  { h with }

/-- A document of a desk gets a text that can be read. -/
theorem Serves.withBuffer (h : desk.Serves workspace) {text : String}
    (htext : (desk.outline? text).isSome) : desk.Serves (workspace.withBuffer path text) :=
  { h with
    texts := fun other found hother hfound => by
      rw [Workspace.withBuffer, KeyedList.find?_insert] at hfound
      split at hfound
      · exact Option.some.inj hfound ▸ htext
      · exact h.texts other found hother hfound
    active := fun other hother => by
      refine ⟨(h.active other hother).1, ?_⟩
      rw [Workspace.withBuffer, KeyedList.find?_insert]
      split
      · rfl
      · exact (h.active other hother).2 }

/-- The text of an open document of the desk is read with an outline. -/
theorem Serves.read (h : desk.Serves workspace) (hdocument : desk.IsDocument path)
    (hopen : (workspace.buffers.find? path).isSome) :
    ∃ text read, workspace.buffers.find? path = some text ∧
      Outline.ofText desk.matcher workspace.registry workspace.settings.tags.showTag
        text.toList = .ok read ∧ desk.latest? workspace path = some read.1 := by
  obtain ⟨text, htext⟩ := Option.isSome_iff_exists.mp hopen
  have hsome := h.texts path text hdocument htext
  unfold outline? at hsome
  cases hread : Outline.ofText desk.matcher desk.registry desk.showTag text.toList with
  | error error => simp [hread, Except.toOption] at hsome
  | ok read =>
      refine ⟨text, read, htext, by rw [h.registry, h.showTag, hread], ?_⟩
      simp [latest?, htext, outline?, hread, Except.toOption]

/-- The outline of one document is written and the others keep theirs. -/
theorem Serves.written (h : desk.Serves workspace) (hdocument : desk.IsDocument path)
    {cache : Cache} {outline : Outline}
    (hwrites : Cache.Writes workspace.cache cache path (desk.file path) outline)
    (houtline : desk.latest? workspace path = some outline) :
    desk.Leads (fun other => other = path) workspace { workspace with cache := cache } where
  serves :=
    { h with
      holders := fun other hother holder hholder => by
        rw [hwrites.holder] at hholder
        split at hholder
        · next hfile =>
            rw [desk.distinct other path hother hdocument hfile]
            exact (Option.some.inj hholder).symm
        · exact h.holders other hother holder hholder }
  cached := fun other hother => by
    by_cases heq : other = path
    · subst heq
      rw [if_pos (decide_eq_true rfl)]
      exact hwrites.lookup_file.trans houtline.symm
    · rw [if_neg (by simpa using heq)]
      refine hwrites.lookup_other (fun hfile => heq ?_) fun holder hholder => ?_
      · exact desk.distinct other path hother hdocument hfile
      · -- A holder is a document that is read under its own path.
        obtain rfl := h.holders other hother holder hholder
        exact ⟨heq, fun hsame => heq (h.holders path hdocument holder hsame)⟩

/-- The document that a refreshment reads is the one that has the focus. -/
theorem Serves.refreshActive (h : desk.Serves workspace) :
    ∃ cache, Workspace.refreshActive.stretch (fun _ => false) workspace =
        (.finished (.ok ()), { workspace with cache := cache }) ∧
      desk.Leads (fun path => workspace.active = some path) workspace
        { workspace with cache := cache } := by
  obtain hactive | ⟨path, hactive⟩ := Option.eq_none_or_eq_some workspace.active
  · have hstretch : Workspace.refreshActive.stretch (fun _ => false) workspace =
        (.finished (.ok ()), workspace) := by
      simp [Workspace.refreshActive, hactive]
    refine ⟨workspace.cache, hstretch, ?_⟩
    exact (Leads.idle h rfl).congr fun path _ => by simp [hactive]
  · obtain ⟨hdocument, hopen⟩ := h.active path hactive
    obtain ⟨text, read, htext, hread, hlatest⟩ := h.read hdocument hopen
    have hholder : workspace.cache.holderOr path (desk.file path) = path := by
      unfold Cache.holderOr
      cases hfound : workspace.cache.holders.find? (desk.file path) with
      | none => rfl
      | some holder => exact h.holders path hdocument holder hfound
    have hstretch : Workspace.refreshActive.stretch (fun _ => false) workspace =
        ((Workspace.refresh path).bind fun _ => done ()).stretch (fun _ => false) workspace := by
      simp [Workspace.refreshActive, hactive]
    refine ⟨workspace.cache.landed path (desk.file path) read.1, ?_, ?_⟩
    · rw [hstretch, stretch_bind, Workspace.stretch_refresh_now workspace h.names
        (desk.usable path hdocument) hholder rfl h.matcher htext hread]
      rfl
    · refine (h.written hdocument (Cache.writes_landed ..) hlatest).congr fun other _ => ?_
      simp [hactive, eq_comm]

/-- A document that gets the focus is read if nothing is cached for it. -/
theorem Serves.setActive (h : desk.Serves workspace) (hdocument : desk.IsDocument path)
    (hopen : (workspace.buffers.find? path).isSome) :
    ∃ cache, (Workspace.setActive (some path)).stretch (fun _ => false) workspace =
        (.finished (.ok ()), { workspace with active := some path, cache := cache }) ∧
      desk.Leads (fun other => other = path && (desk.cached? workspace path).isNone) workspace
        { workspace with active := some path, cache := cache } := by
  let focused : Workspace := { workspace with active := some path }
  have hfocused : desk.Serves focused :=
    { h with
      active := fun other hother => by
        obtain rfl := Option.some.inj hother
        exact ⟨hdocument, hopen⟩ }
  have hidle : desk.Leads (fun _ => false) workspace focused := Leads.idle hfocused rfl
  have hcached : workspace.isCached path = .ok (desk.cached? workspace path).isSome := by
    unfold Workspace.isCached Workspace.lookup?
    rw [h.names.fileAt (desk.usable path hdocument)]
    rfl
  have hstretch : (Workspace.setActive (some path)).stretch (fun _ => false) workspace = _ :=
    Workspace.stretch_setActive_some workspace h.loaded hcached
  obtain hnone | ⟨outline, hsome⟩ := Option.eq_none_or_eq_some (desk.cached? workspace path)
  · obtain ⟨text, read, htext, hread, hlatest⟩ := hfocused.read hdocument hopen
    refine ⟨(workspace.cache.displace path (desk.file path)).landed path (desk.file path) read.1,
      ?_, ?_⟩
    · rw [hstretch, hnone, Option.isSome_none, if_neg Bool.false_ne_true, stretch_bind,
        Workspace.stretch_replace_now focused hfocused.names (desk.usable path hdocument) rfl
          hfocused.matcher htext hread]
      rfl
    · have hwritten := hfocused.written hdocument (Cache.writes_displace_landed ..) hlatest
      exact (hidle.trans hwritten rfl).congr fun other _ => by simp [hnone]
  · refine ⟨workspace.cache, ?_, ?_⟩
    · rw [hstretch, hsome]
      rfl
    · exact hidle.congr fun other _ => by simp [hsome]

end Desk

end CommentIndex
