import CommentIndex.Proofs.Outline.Nesting
import CommentIndex.Proofs.Session.Edits
import CommentIndex.Proofs.Text.LineFeeds
import CommentIndex.Target

/-!
# Jumps to anchors

A jump to the line of an anchor looks whether the document has such a line, and counts its lines by
line feeds alone, while the line of the anchor was counted by line ends of all kinds. So a jump to
an anchor of the very text that is counted may be broken: by `locateLine_place` it is if and only if
more lone carriage returns stand before the anchor than line feeds behind. The text of a file has no
carriage returns when it has been read, so only jumps into open documents are broken in this way.
-/

namespace CommentIndex

open Activity

/-! ## Places of anchors -/

/-- Where an anchor stands, and its end tag if its region is closed. -/
def Anchor.places (anchor : Anchor) : List Outline.Piece :=
  .ofFacts anchor.facts :: (anchor.closing.map .ofClosing).toList

/-- The line of each place of an outline is that on which it starts. -/
theorem Outline.line_places {matcher : Matcher} {registry : Registry} {showTag found : Bool}
    {text : List Char} {outline : Outline} {anchor : Anchor} {place : Piece}
    (hread : ofText matcher registry showTag text = .ok (outline, found))
    (hanchor : anchor ∈ outline.flatten) (hplace : place ∈ anchor.places) :
    place.line = Text.lineOf (Text.lineStarts text) place.start := by
  obtain ⟨events, hevents, rfl, -⟩ := ofText_eq_ok_iff.mp hread
  refine line_of_mem_tell hevents hanchor ?_
  rcases List.mem_cons.mp hplace with rfl | hend
  · exact anchor.ofFacts_mem_pieces
  · obtain ⟨closing, hclosing, rfl⟩ := Option.map_eq_some_iff.mp (Option.mem_toList.mp hend)
    exact Anchor.ofClosing_mem_pieces hclosing

/-! ## Jumps -/

namespace Session

variable {session : Session} {path : Path} {text : List Char}

/-- One activity after another is run to its end where the first one ends. -/
theorem run_bind {α β : Type} (first : Activity α) (second : α → Activity β) (session : Session) :
    run (first.bind second) session =
      match run first session with
      | (.ok result, after) => run (second result) after
      | (.error error, after) => (.error error, after) := by
  induction first generalizing session with
  | done result => rfl
  | fail error => rfl
  | act update next ih => exact ih session.workspace _
  | tell signal next ih => exact ih (session.hear signal)
  | pause reason next ih =>
      cases reason with
      | rest milliseconds => exact ih (session.advance milliseconds)
      | buffer => exact ih session
      | file => exact ih session
      | listing => exact ih session

/-- A jump to a line leads there if the line feeds of the text make so many lines. -/
theorem locateLine_of_text (htext : (run (Workspace.readText path) session).1 = .ok (.ok text))
    (line : Int) :
    (run (Workspace.locateLine path line) session).1 =
      .ok ⟨path, line, if 1 ≤ line ∧ line ≤ Workspace.lineCount text then none
        else some ("Line " ++ toString line ++ " out of range")⟩ := by
  rw [Workspace.locateLine, bind_eq, run_bind]
  generalize run (Workspace.readText path) session = read at htext ⊢
  obtain ⟨outcome, after⟩ := read
  obtain rfl : outcome = .ok (.ok text) := htext
  dsimp only
  split <;> rfl

/-- The text of a document that is not open has no carriage returns. -/
theorem return_notMem_of_closed (hclosed : session.workspace.isOpen path = false)
    (htext : (run (Workspace.readText path) session).1 = .ok (.ok text)) : '\r' ∉ text := by
  have hbuffer : session.workspace.buffers.find? path = none :=
    Option.not_isSome_iff_eq_none.mp (ne_true_of_eq_false hclosed)
  have hfile : session.workspace.disk.readText path = .ok text := by
    simp only [Workspace.readText, bind_eq, run_bind, Activity.workspace, run, hbuffer] at htext
    split at htext
    · contradiction
    · simpa [wait, run_bind, run] using htext
  rw [Disk.readText] at hfile
  cases hoctets : session.workspace.disk.read path with
  | error error => simp [hoctets, Except.map] at hfile
  | ok octets =>
      rw [hoctets] at hfile
      obtain rfl := Except.ok.inj hfile
      exact Text.return_notMem_withLineFeeds _

/-- A jump to the line of an anchor or of its end tag, in the very text that the anchor was read
from, leads there if and only if no more lone carriage returns stand before that place than line
feeds behind it. If the document is not open, then no lone carriage returns stand in it. -/
theorem locateLine_place {matcher : Matcher} {registry : Registry} {showTag found : Bool}
    {outline : Outline}
    (htext : (run (Workspace.readText path) session).1 = .ok (.ok text))
    (hread : Outline.ofText matcher registry showTag text = .ok (outline, found)) :
    (∀ anchor ∈ outline.flatten, ∀ place ∈ anchor.places,
      (run (Workspace.locateLine path place.line) session).1 =
        .ok ⟨path, place.line,
          if Text.loneReturnsBefore text place.start ≤ (text.drop place.start).count '\n' then none
          else some ("Line " ++ toString (place.line : Int) ++ " out of range")⟩) ∧
      (session.workspace.isOpen path = false →
        ∀ offset, Text.loneReturnsBefore text offset = 0) := by
  refine ⟨fun anchor hanchor place hplace => ?_, fun hclosed offset =>
    Text.loneReturnsBefore_eq_zero (return_notMem_of_closed hclosed htext) offset⟩
  rw [locateLine_of_text htext]
  have hline := Outline.line_places hread hanchor hplace
  have hpositive := Text.lineOf_pos text place.start
  have hcount := Text.lineOf_le_iff text place.start
  rw [← hline] at hpositive hcount
  have hiff : (1 ≤ (place.line : Int) ∧ (place.line : Int) ≤ Workspace.lineCount text) ↔
      Text.loneReturnsBefore text place.start ≤ (text.drop place.start).count '\n' := by
    rw [← hcount, Workspace.lineCount]
    omega
  simp only [hiff]

/-- A buffer with lone carriage returns, of which one is made up for by a line feed. -/
theorem locateLine_place_mixed :
    let text := "# TODO: a\r# TODO: b\r# TODO: c\n"
    let session := loaded.useAll [.open firstDocument text]
    ∃ outline,
      (run (Workspace.readText firstDocument) session).1 = .ok (.ok text.toList) ∧
      Outline.ofText oneTag session.workspace.registry true text.toList = .ok (outline, true) ∧
      (outline.flatten.map fun anchor =>
          (run (Workspace.locateLine firstDocument anchor.facts.line) session).1) =
        [.ok ⟨firstDocument, 1, none⟩, .ok ⟨firstDocument, 2, none⟩,
          .ok ⟨firstDocument, 3, some "Line 3 out of range"⟩] := by
  intro text session
  let outline : Outline :=
    ((Outline.ofText oneTag session.workspace.registry true text.toList).toOption.getD default).1
  have htext : (run (Workspace.readText firstDocument) session).1 = .ok (.ok text.toList) := by
    decide +kernel
  have hread : Outline.ofText oneTag session.workspace.registry true text.toList =
      .ok (outline, true) := by
    decide +kernel
  obtain ⟨hjumps, -⟩ := locateLine_place htext hread
  refine ⟨outline, htext, hread, (List.map_congr_left fun anchor hanchor =>
    hjumps anchor hanchor _ List.mem_cons_self).trans ?_⟩
  decide +kernel

/-- An anchor behind a lone carriage return in the last line of a buffer. -/
theorem jump_broken_behind_carriage_return :
    let text := "x\r# TODO: y"
    let session := loaded.useAll [.open firstDocument text]
    (run (Workspace.readText firstDocument) session).1 = .ok (.ok text.toList) ∧
      (session.workspace.lookup? firstDocument).toOption.join.map
        (fun outline => outline.flatten.map (·.facts.line)) = some [2] ∧
      (run (Workspace.locateLine firstDocument 2) session).1 =
        .ok ⟨firstDocument, 2, some "Line 2 out of range"⟩ := by
  decide +kernel

end Session

end CommentIndex
