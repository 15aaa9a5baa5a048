import CommentIndex.Proofs.Outline.Stepping
import CommentIndex.Proofs.View.Scopes

/-!
# The mark of the cursor

Anchors are sorted by where they start, and the mark of the cursor is placed by their lines. No
anchor of a document lies on an earlier line than one that starts before it, so the mark parts the
entries into those at or above its line and those below: `ofFile_cursor`.
-/

namespace CommentIndex

/-- The roots that a filter keeps say what those say that pass the test. -/
theorem Anchor.facts_filterAll (keep : Facts → Bool) (anchors : List Anchor) :
    (filterAll (keep ·.facts) anchors).map Anchor.facts =
      (anchors.map Anchor.facts).filter keep := by
  induction anchors with
  | nil => rfl
  | cons anchor rest ih =>
      cases anchor with
      | mk facts closing children =>
          rw [filterAll, filter?_mk, List.map_cons, List.filter_cons, ← ih]
          cases hkeep : keep facts <;> simp [Anchor.facts, hkeep]

namespace Entry

/-- The entry of an anchor has the line of the anchor. -/
theorem line?_ofAnchor (path : Path) (showLine isExpanded : Bool) (anchor : Anchor) :
    (ofAnchor path showLine isExpanded anchor).line? = some anchor.facts.line := by
  cases anchor with
  | mk facts closing children =>
      rw [ofAnchor]
      split <;> rfl

/-- The entries of a forest have the lines of its roots. -/
theorem line?_ofAnchors (path : Path) (showLine isExpanded : Bool) (anchors : List Anchor) :
    (ofAnchors path showLine isExpanded anchors).map line? =
      (anchors.map (·.facts.line)).map some := by
  induction anchors with
  | nil => rfl
  | cons anchor rest ih =>
      rw [ofAnchors, List.map_cons, line?_ofAnchor, ih, List.map_cons, List.map_cons]

/-- Whether an entry with a line is below another line. -/
theorem any_line?_iff {line : Int} {entry : Entry} {n : Nat} (h : entry.line? = some n) :
    (entry.line?.any fun n => decide (line < Int.ofNat n)) = true ↔ line < n := by
  rw [h, Option.any_some, decide_eq_true_eq, Int.ofNat_eq_natCast]

/-- The mark is left out if no entry is below its line. -/
theorem withCursor_eq_self {line : Int} {lines : List Nat} {entries : List Entry}
    (hlines : entries.map line? = lines.map some) (h : ∀ n ∈ lines, ¬ line < n) :
    withCursor line entries = entries := by
  induction entries generalizing lines with
  | nil => rfl
  | cons entry rest ih =>
      obtain ⟨n, others, rfl, hentry, hothers⟩ := List.map_eq_cons_iff.mp hlines.symm
      obtain ⟨hn, hrest⟩ := List.forall_mem_cons.mp h
      rw [withCursor, if_neg (mt (any_line?_iff hentry.symm).mp hn), ih hothers.symm hrest]

/-- Among entries in the order of their lines the mark is in front of those below its line, if there
are any. -/
theorem withCursor_eq_append {line : Int} {lines : List Nat} {entries : List Entry}
    (hlines : entries.map line? = lines.map some) (hsorted : lines.Pairwise (· ≤ ·))
    (hbelow : ∃ n ∈ lines, line < n) :
    ∃ before after, entries = before ++ after ∧
      withCursor line entries = before ++ .cursor line :: after ∧
      (∀ entry ∈ before, ∃ n ∈ entry.line?, (n : Int) ≤ line) ∧
      ∀ entry ∈ after, ∃ n ∈ entry.line?, line < n := by
  induction entries generalizing lines with
  | nil =>
      obtain ⟨n, hn, -⟩ := hbelow
      obtain rfl : lines = [] := List.map_eq_nil_iff.mp hlines.symm
      contradiction
  | cons entry rest ih =>
      obtain ⟨n, others, rfl, hentry, hothers⟩ := List.map_eq_cons_iff.mp hlines.symm
      obtain ⟨hleast, hrest⟩ := List.pairwise_cons.mp hsorted
      by_cases hn : line < n
      · -- All further entries are below the line with the first one.
        have hfirst := (any_line?_iff hentry.symm).mpr hn
        refine ⟨[], entry :: rest, rfl, by rw [withCursor, if_pos hfirst]; rfl, by simp, ?_⟩
        intro other hother
        have hmem : other.line? ∈ (n :: others).map some :=
          hlines ▸ List.mem_map_of_mem hother
        obtain ⟨m, hm, hsome⟩ := List.mem_map.mp hmem
        refine ⟨m, hsome.symm, ?_⟩
        rcases List.mem_cons.mp hm with rfl | hm
        · exact hn
        · have := hleast m hm
          omega
      · have hfirst := mt (any_line?_iff hentry.symm).mp hn
        have hlater : ∃ n ∈ others, line < n := by
          obtain ⟨m, hm, hlt⟩ := hbelow
          rcases List.mem_cons.mp hm with rfl | hm
          · exact absurd hlt hn
          · exact ⟨m, hm, hlt⟩
        obtain ⟨before, after, rfl, hmark, hbefore, hafter⟩ := ih hothers.symm hrest hlater
        refine ⟨entry :: before, after, rfl, by rw [withCursor, if_neg hfirst, hmark]; rfl, ?_,
          hafter⟩
        intro other hother
        rcases List.mem_cons.mp hother with rfl | hother
        · exact ⟨n, hentry.symm, Int.not_lt.mp hn⟩
        · exact hbefore other hother

end Entry

namespace View

variable {workspace : Workspace} {outline : Outline} {line : Int}

/-- What the view of the active document shows in place of anchors, and the anchors it shows. -/
theorem ofFile_cases (hcurrent : workspace.current = .ok outline) :
    (∃ entry : Entry, (∀ mark, entry ≠ .cursor mark) ∧
      (∀ cursor, ofFile workspace cursor = .ok [entry]) ∧
      (workspace.isLoaded = false ∨ workspace.active = none ∨
        Anchor.filterAll (showsInFile ·.facts) outline.anchors = [])) ∨
    ∃ path entries, workspace.isLoaded = true ∧ workspace.active = some path ∧
      entries = Entry.ofAnchors path workspace.settings.tags.showLine
        workspace.settings.tags.expandRegions (workspace.settings.tags.sortMethod.sort
          (Anchor.filterAll (showsInFile ·.facts) outline.anchors)) ∧
      ofFile workspace none = .ok entries ∧
      ∀ line, ofFile workspace (some line) =
        .ok (if workspace.settings.showCursor then Entry.withCursor line entries else entries) := by
  have htest : (fun anchor : Anchor => !anchor.isHidden) = (showsInFile ·.facts) :=
    funext fun anchor => (decide_not ..).symm
  unfold ofFile
  simp only [hcurrent, htest, bind, Except.bind, pure, Except.pure]
  cases hloaded : workspace.isLoaded with
  | false => exact .inl ⟨.loading, nofun, fun cursor => rfl, .inl rfl⟩
  | true =>
      cases hactive : workspace.active with
      | none => exact .inl ⟨.error _, nofun, fun cursor => rfl, .inr (.inl rfl)⟩
      | some path =>
          cases hkept : Anchor.filterAll (showsInFile ·.facts) outline.anchors with
          | nil => exact .inl ⟨.error _, nofun, fun cursor => rfl, .inr (.inr rfl)⟩
          | cons root rest =>
              exact .inr ⟨path, _, rfl, rfl, rfl, rfl, fun line => rfl⟩

/-- The lines of the anchors that are shown, from the first one on. -/
def shownLines (outline : Outline) : List Nat :=
  (SortMethod.line.sort (Anchor.filterAll (showsInFile ·.facts) outline.anchors)).map (·.facts.line)

/-- The lines that are shown are those of the roots that are not hidden. -/
theorem mem_shownLines_iff {n : Nat} : n ∈ shownLines outline ↔
    ∃ anchor ∈ outline.anchors, anchor.facts.scope ≠ .hidden ∧ anchor.facts.line = n := by
  have hfacts := Anchor.facts_filterAll showsInFile outline.anchors
  constructor
  · intro h
    obtain ⟨kept, hkept, rfl⟩ := List.mem_map.mp h
    have hmem := List.mem_map_of_mem (f := Anchor.facts) (List.mem_mergeSort.mp hkept)
    rw [hfacts, List.mem_filter] at hmem
    obtain ⟨anchor, hanchor, hsame⟩ := List.mem_map.mp hmem.1
    exact ⟨anchor, hanchor, hsame ▸ of_decide_eq_true hmem.2, congrArg Facts.line hsame⟩
  · rintro ⟨anchor, hanchor, hscope, rfl⟩
    have hmem : anchor.facts ∈ (Anchor.filterAll (showsInFile ·.facts) outline.anchors).map
        Anchor.facts := by
      rw [hfacts, List.mem_filter]
      exact ⟨List.mem_map_of_mem hanchor, decide_eq_true hscope⟩
    obtain ⟨kept, hkept, hsame⟩ := List.mem_map.mp hmem
    exact List.mem_map.mpr ⟨kept, List.mem_mergeSort.mpr hkept, congrArg Facts.line hsame⟩

/-- The anchors of a document that are shown are in the order of their lines. -/
theorem pairwise_shownLines {matcher : Matcher} {registry : Registry} {showTag : Bool}
    {text : List Char} {events : List Outline.Event}
    (h : Outline.eventsOf matcher registry showTag text = .ok events) :
    (shownLines (Outline.ofEvents events)).Pairwise (· ≤ ·) := by
  have hsorted := List.pairwise_mergeSort SortMethod.line.le_trans SortMethod.line.le_total
    (Anchor.filterAll (showsInFile ·.facts) (Outline.ofEvents events).anchors)
  have hline : ∀ kept ∈ SortMethod.line.sort
      (Anchor.filterAll (showsInFile ·.facts) (Outline.ofEvents events).anchors),
      kept.facts.line = Text.lineOf (Text.lineStarts text) kept.facts.start := by
    intro kept hkept
    have hmem := List.mem_map_of_mem (f := Anchor.facts) (List.mem_mergeSort.mp hkept)
    rw [Anchor.facts_filterAll, List.mem_filter] at hmem
    obtain ⟨anchor, hanchor, hsame⟩ := List.mem_map.mp hmem.1
    rw [← hsame]
    exact Outline.line_ofEvents h (Anchor.mem_walkAll_of_mem hanchor)
  refine List.pairwise_map.mpr ((List.Pairwise.and_mem.mp hsorted).imp ?_)
  rintro first second ⟨hfirst, hsecond, hle⟩
  rw [hline first hfirst, hline second hsecond]
  exact Text.lineOf_mono _ (of_decide_eq_true hle)

/-- The view of the active document has a mark for a cursor: its anchors are shown, and so is the
cursor among them, and one of its roots that are not hidden is below the line. -/
def MarksCursor (workspace : Workspace) (outline : Outline) (line : Int) : Prop :=
  workspace.isLoaded = true ∧ workspace.active.isSome = true ∧
    workspace.settings.showCursor = true ∧
    ∃ anchor ∈ outline.anchors, anchor.facts.scope ≠ .hidden ∧ line < anchor.facts.line

/-- The view of a document that has been read, sorted by lines, differs by at most one mark if there
is a cursor. The mark is there if the settings show the cursor and a root that is not hidden is
below its line. Then all entries in front of it are at its line or above, and all behind it are
below. -/
theorem ofFile_cursor {matcher : Matcher} {registry : Registry} {showTag found : Bool}
    {text : List Char} (hread : Outline.ofText matcher registry showTag text = .ok (outline, found))
    (hcurrent : workspace.current = .ok outline)
    (hsort : workspace.settings.tags.sortMethod = .line) (line : Int) :
    ∃ entries, View.file.entries workspace none = .ok entries ∧
      (∀ mark, .cursor mark ∉ entries) ∧
      (¬ MarksCursor workspace outline line →
        View.file.entries workspace (some line) = .ok entries) ∧
      (MarksCursor workspace outline line → ∃ before after, entries = before ++ after ∧
        View.file.entries workspace (some line) = .ok (before ++ .cursor line :: after) ∧
        (∀ entry ∈ before, ∃ n ∈ entry.line?, (n : Int) ≤ line) ∧
        ∀ entry ∈ after, ∃ n ∈ entry.line?, line < n) := by
  obtain ⟨events, hevents, rfl, -⟩ := Outline.ofText_eq_ok_iff.mp hread
  have hbelow : (∃ n ∈ shownLines (Outline.ofEvents events), line < n) ↔
      ∃ anchor ∈ (Outline.ofEvents events).anchors,
        anchor.facts.scope ≠ .hidden ∧ line < anchor.facts.line := by
    constructor
    · rintro ⟨n, hn, hlt⟩
      obtain ⟨anchor, hanchor, hscope, rfl⟩ := mem_shownLines_iff.mp hn
      exact ⟨anchor, hanchor, hscope, hlt⟩
    · rintro ⟨anchor, hanchor, hscope, hlt⟩
      exact ⟨_, mem_shownLines_iff.mpr ⟨anchor, hanchor, hscope, rfl⟩, hlt⟩
  rcases ofFile_cases hcurrent with ⟨entry, hmark, hview, hwhy⟩ |
    ⟨path, entries, hloaded, hactive, hentries, hplain, hview⟩
  · -- Nothing is marked where no anchors are shown.
    have hnot : ¬ MarksCursor workspace (Outline.ofEvents events) line := by
      rintro ⟨hloaded, hactive, -, hroot⟩
      rcases hwhy with hwhy | hwhy | hwhy
      · exact absurd hloaded (by simp [hwhy])
      · exact absurd hactive (by simp [hwhy])
      · obtain ⟨n, hn, -⟩ := hbelow.mpr hroot
        exact absurd hn (by simp [shownLines, hwhy, SortMethod.sort])
    exact ⟨[entry], hview none, fun mark hmem => hmark mark (List.mem_singleton.mp hmem).symm,
      fun _ => hview (some line), fun hmarks => absurd hmarks hnot⟩
  · have hlines : entries.map Entry.line? = (shownLines (Outline.ofEvents events)).map some := by
      rw [hentries, Entry.line?_ofAnchors, hsort, shownLines]
    refine ⟨entries, hplain, fun mark hmem => ?_, fun hnot => ?_, fun hmarks => ?_⟩
    · have hnone : (none : Option Nat) ∈ (shownLines (Outline.ofEvents events)).map some :=
        hlines ▸ List.mem_map_of_mem (f := Entry.line?) hmem
      simp at hnone
    · refine (hview line).trans (congrArg Except.ok (ite_eq_right_iff.mpr fun hshow => ?_))
      refine Entry.withCursor_eq_self hlines fun n hn hlt => hnot ⟨hloaded, ?_, hshow, ?_⟩
      · rw [hactive]
        rfl
      · exact hbelow.mp ⟨n, hn, hlt⟩
    · obtain ⟨-, -, hshow, hroot⟩ := hmarks
      obtain ⟨before, after, hsplit, hmark, hbefore, hafter⟩ :=
        Entry.withCursor_eq_append hlines (pairwise_shownLines hevents) (hbelow.mpr hroot)
      refine ⟨before, after, hsplit, (hview line).trans (congrArg Except.ok ?_), hbefore, hafter⟩
      rw [← hmark]
      exact if_pos hshow

/-! ### A cursor among anchors -/

/-- The tags of a document, one of them hidden. -/
def browsedTags : Registry :=
  Registry.ofTags
    [{ name := "T" }, { name := "Re", behavior := .region }, { name := "H", scope := .hidden }]

/-- What the document is searched for. -/
def browsedMatcher : Matcher where
  marks := [['#']]
  tokens := ["!Re", "Re", "T", "H"].map String.toList
  separators := [": ".toList]
  endTag := "!"
  matchCase := false

/-- A region with an anchor in it, and a hidden anchor. -/
def browsedText : List Char :=
  "# T: a\n# Re: b\n# T: c\n# !Re\n# H: d\n# T: e".toList

/-- The outline of the document. -/
def browsedOutline : Outline :=
  ((Outline.ofText browsedMatcher browsedTags true browsedText).toOption.getD default).1

/-- A workspace in which the document is active. -/
def browsed (showCursor : Bool) : Workspace where
  root := .absolute ["ws"]
  settings := { showCursor := showCursor }
  disk := { tree := .empty }
  cache := Cache.empty.keep (.absolute ["ws", "a.py"]) (.absolute ["ws", "a.py"]) browsedOutline
  active := some (.absolute ["ws", "a.py"])
  isLoaded := true
  debouncer := .idle 0

/-- The outline has been read from the document. -/
theorem ofText_browsed :
    Outline.ofText browsedMatcher browsedTags true browsedText = .ok (browsedOutline, true) := by
  decide +kernel

/-- It is that of the active document. -/
theorem current_browsed (showCursor : Bool) :
    (browsed showCursor).current = .ok browsedOutline := by
  cases showCursor <;> decide +kernel

/-- Between the lines of two roots, the mark parts them; the anchor inside the region is in front of
it though it is below. At the line of the last root there is none. -/
theorem ofFile_cursor_browsed :
    (∃ before after, View.file.entries (browsed true) none = .ok (before ++ after) ∧
      View.file.entries (browsed true) (some 2) = .ok (before ++ .cursor 2 :: after) ∧
      (∀ entry ∈ before, ∃ n ∈ entry.line?, (n : Int) ≤ 2) ∧
      ∀ entry ∈ after, ∃ n ∈ entry.line?, (2 : Int) < n) ∧
    View.file.entries (browsed true) (some 6) = View.file.entries (browsed true) none := by
  have hmarks : MarksCursor (browsed true) browsedOutline 2 :=
    ⟨rfl, rfl, rfl, by decide +kernel⟩
  have hnot : ¬ MarksCursor (browsed true) browsedOutline 6 := by
    have hnone : ¬ ∃ anchor ∈ browsedOutline.anchors,
        anchor.facts.scope ≠ .hidden ∧ (6 : Int) < anchor.facts.line := by
      decide +kernel
    exact fun h => hnone h.2.2.2
  constructor
  · obtain ⟨entries, hplain, -, -, hmarked⟩ :=
      ofFile_cursor ofText_browsed (current_browsed true) rfl 2
    obtain ⟨before, after, rfl, hbetween⟩ := hmarked hmarks
    exact ⟨before, after, hplain, hbetween⟩
  · obtain ⟨entries, hplain, -, hunmarked, -⟩ :=
      ofFile_cursor ofText_browsed (current_browsed true) rfl 6
    rw [hunmarked hnot, hplain]

/-- A cursor that the settings do not show makes no difference. -/
theorem ofFile_of_not_showCursor (h : workspace.settings.showCursor = false)
    (cursor : Option Int) : ofFile workspace cursor = ofFile workspace none := by
  cases cursor with
  | none => rfl
  | some line => simp [ofFile, h]

/-- Where the settings do not show the cursor there is no mark, though there are anchors below its
line. -/
theorem cursor_not_shown :
    Outline.ofText browsedMatcher browsedTags true browsedText = .ok (browsedOutline, true) ∧
      (browsed false).current = .ok browsedOutline ∧ (browsed false).isLoaded = true ∧
      (browsed false).settings.tags.sortMethod = .line ∧
      (∃ anchor ∈ browsedOutline.anchors,
        anchor.facts.scope ≠ .hidden ∧ (2 : Int) < anchor.facts.line) ∧
      View.file.entries (browsed false) (some 2) = View.file.entries (browsed false) none := by
  have hshow : (browsed false).settings.showCursor = false := rfl
  exact ⟨ofText_browsed, current_browsed false, rfl, rfl, by decide +kernel,
    ofFile_of_not_showCursor hshow (some 2)⟩

end View

end CommentIndex
