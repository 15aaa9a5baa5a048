import CommentIndex.Text.Blank
import Mathlib.Data.List.DropRight

/-!
# What stripping leaves

How blanks are removed from a text of several pieces. A piece that keeps something at its end keeps
all that stands in front of it (`stripEndBy_append_of_ne_nil`), one that keeps nothing leaves it to
the piece in front (`stripEndBy_append_of_all`), and blanks behind a text make no difference to what
`strip` leaves (`strip_append_blanks`).
-/

namespace CommentIndex.Text

variable {drop : Char → Bool} {front text blanks : List Char}

/-- Nothing is left of a text if and only if all of it is dropped. -/
theorem stripEndBy_eq_nil_iff : stripEndBy drop text = [] ↔ ∀ c ∈ text, drop c = true :=
  List.rdropWhile_eq_nil_iff

/-- A piece of which anything is left keeps what is in front of it. -/
theorem stripEndBy_append_of_ne_nil (front : List Char) (h : stripEndBy drop text ≠ []) :
    stripEndBy drop (front ++ text) = front ++ stripEndBy drop text := by
  have hrest : ¬ (text.reverse.dropWhile drop).isEmpty = true := by
    simpa [stripEndBy] using h
  unfold stripEndBy
  rw [List.reverse_append, List.dropWhile_append, if_neg hrest, List.reverse_append,
    List.reverse_reverse]

/-- A piece that does not end in what is dropped stays, with what is in front of it. -/
theorem stripEndBy_append_of_eq (front : List Char) (hne : text ≠ [])
    (h : stripEndBy drop text = text) : stripEndBy drop (front ++ text) = front ++ text := by
  rw [stripEndBy_append_of_ne_nil front (by rwa [h]), h]

/-- A piece that is dropped altogether leaves what is in front of it to be dropped. -/
theorem stripEndBy_append_of_all (front : List Char) (h : ∀ c ∈ text, drop c = true) :
    stripEndBy drop (front ++ text) = stripEndBy drop front := by
  unfold stripEndBy
  rw [List.reverse_append, List.dropWhile_append_of_pos fun c hc => h c (List.mem_reverse.mp hc)]

/-- Behind the first piece, as much is left as is left of the second piece by itself. -/
theorem drop_stripEndBy_append (drop : Char → Bool) (front text : List Char) :
    (stripEndBy drop (front ++ text)).drop front.length = stripEndBy drop text := by
  by_cases h : stripEndBy drop text = []
  · rw [stripEndBy_append_of_all front (stripEndBy_eq_nil_iff.mp h), h, List.drop_eq_nil_iff]
    exact (stripEndBy_isStart drop front).length_le
  · rw [stripEndBy_append_of_ne_nil front h, List.drop_left]

/-- A piece that does not begin with blanks stays, with what is left of those in front of it. -/
theorem stripStart_append_of_eq (front : List Char) (h : stripStart text = text) :
    stripStart (front ++ text) = stripStart front ++ text := by
  unfold stripStart at h ⊢
  rw [List.dropWhile_append]
  split
  · next hnone => rw [h, List.isEmpty_iff.mp hnone, List.nil_append]
  · rfl

/-- Blanks behind a text make no difference. -/
theorem strip_append_blanks (text : List Char) (h : ∀ c ∈ blanks, isBlank c = true) :
    strip (text ++ blanks) = strip text := by
  unfold strip stripStart
  rw [List.dropWhile_append]
  split
  · next hnone =>
      rw [List.isEmpty_iff.mp hnone, List.dropWhile_eq_nil_iff.mpr h]
  · exact stripEndBy_append_of_all _ h

/-- What is left when some of the blanks at the end are dropped is stripped as the whole text. -/
theorem strip_stripEndBy (hdrop : ∀ c, drop c = true → isBlank c = true) (text : List Char) :
    strip (stripEndBy drop text) = strip text := by
  conv_rhs => rw [← stripEndBy_append drop text]
  refine (strip_append_blanks _ fun c hc => hdrop c ?_).symm
  exact List.mem_takeWhile_imp (List.mem_reverse.mp hc)

/-- A piece without blanks at its ends stays, with what is left of those in front of it. -/
theorem strip_append_of_eq (front : List Char) (hne : text ≠ []) (hstart : stripStart text = text)
    (hend : stripEnd text = text) : strip (front ++ text) = stripStart front ++ text := by
  rw [strip, stripStart_append_of_eq front hstart]
  exact stripEndBy_append_of_eq _ hne hend

/-- A text is what is left of it between blanks. -/
theorem exists_blanks_strip (text : List Char) :
    ∃ before behind, text = before ++ (strip text ++ behind) ∧
      (∀ c ∈ before, isBlank c = true) ∧ ∀ c ∈ behind, isBlank c = true := by
  refine ⟨text.takeWhile isBlank, ((stripStart text).reverse.takeWhile isBlank).reverse, ?_,
    fun c => List.mem_takeWhile_imp, fun c hc => List.mem_takeWhile_imp (List.mem_reverse.mp hc)⟩
  rw [strip, stripEnd, stripEndBy_append, stripStart_append]

/-- Nothing is dropped at the start of a text without anything to drop. -/
theorem dropWhile_eq_self (h : ∀ c ∈ text, drop c = false) : text.dropWhile drop = text :=
  List.dropWhile_eq_self_iff.mpr fun _ => by simp [h _ (List.getElem_mem _)]

/-- Nothing is dropped at the end of such a text. -/
theorem stripEndBy_eq_self (h : ∀ c ∈ text, drop c = false) : stripEndBy drop text = text :=
  List.rdropWhile_eq_self_iff.mpr fun _ => by simp [h _ (List.getLast_mem _)]

/-- Nothing is stripped of a text without blanks. -/
theorem strip_eq_self (h : ∀ c ∈ text, isBlank c = false) : strip text = text := by
  rw [strip, stripStart, dropWhile_eq_self h]
  exact stripEndBy_eq_self h

/-- What is left of a text does not begin with a blank. -/
theorem stripStart_strip (text : List Char) : stripStart (strip text) = strip text := by
  cases hcons : strip text with
  | nil => rfl
  | cons first rest =>
      obtain ⟨behind, htext⟩ := stripEndBy_isStart isBlank (stripStart text)
      have hfirst : (stripStart text).head? = some first := by
        rw [← htext]
        exact congrArg (fun left => (left ++ behind).head?) hcons
      have hblank := List.head?_dropWhile_not isBlank text
      rw [show text.dropWhile isBlank = stripStart text from rfl, hfirst] at hblank
      exact List.dropWhile_cons_of_neg (by simpa using hblank)

/-- What has been stripped stays as it is. -/
theorem strip_strip (text : List Char) : strip (strip text) = strip text := by
  rw [strip, stripStart_strip]
  exact List.rdropWhile_idempotent isBlank (stripStart text)

/-- A text without blanks at its start has none there once its end is stripped. -/
theorem stripEnd_stripStart (text : List Char) : stripEnd (stripStart text) = strip text := rfl

/-- A space or a tab is a blank. -/
theorem isBlank_of_isSpaceOrTab (c : Char) (h : isSpaceOrTab c = true) : isBlank c = true := by
  rcases (by simpa [isSpaceOrTab] using h : c = ' ' ∨ c = '\t') with rfl | rfl <;> decide

end CommentIndex.Text
