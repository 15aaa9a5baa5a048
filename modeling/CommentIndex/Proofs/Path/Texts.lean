import CommentIndex.Path

/-!
# Paths written and read

A proper path has at most two slashes in front, and its names are what can stand between slashes.
What a text writes is such a path, and so is what normalizing makes of it; by `ofText_text` it is
read as it is written. So the written forms of proper paths differ if these do: `eq_of_text_eq`.
-/

namespace CommentIndex

namespace Text

variable {separator : Char}

/-- Separators in front make empty pieces. -/
theorem splitAtEach_replicate (count : Nat) (text : List Char) :
    splitAtEach separator (List.replicate count separator ++ text) =
      List.replicate count [] ++ splitAtEach separator text := by
  induction count with
  | zero => rfl
  | succ count ih =>
      rw [List.replicate_succ, List.replicate_succ, List.cons_append, List.cons_append, ← ih,
        splitAtEach, if_pos rfl]

end Text

namespace Path

variable {path first second : Path}

/-- What a path can be that a text writes. -/
structure IsProper (path : Path) : Prop where
  slashes : path.slashes ≤ 2
  names : ∀ name ∈ path.names, name ≠ "" ∧ name ≠ "." ∧ '/' ∉ name.toList

/-- A text writes a proper path. -/
theorem isProper_ofText (text : String) : (ofText text).IsProper where
  slashes := by
    show leadingSlashes _ ≤ 2
    unfold leadingSlashes
    dsimp only
    split <;> omega
  names name hname := by
    obtain ⟨hpiece, hkept⟩ := List.mem_filter.mp hname
    obtain ⟨piece, hmem, rfl⟩ := List.mem_map.mp hpiece
    rw [Bool.and_eq_true, decide_eq_true_eq, decide_eq_true_eq] at hkept
    refine ⟨hkept.1, hkept.2, ?_⟩
    rw [String.toList_ofList]
    exact Text.notMem_of_mem_splitAtEach hmem

/-- The names that are left once each `..` has been taken back were there before. -/
theorem mem_of_mem_collapse {name : String} {before names : List String}
    (h : name ∈ collapse before names) : name ∈ before ∨ name ∈ names := by
  induction names generalizing before with
  | nil => exact .inl (List.mem_reverse.mp h)
  | cons next names ih =>
      unfold collapse at h
      split at h
      · exact (ih h).imp List.mem_of_mem_tail (List.mem_cons_of_mem _)
      · rcases ih h with hbefore | hnames
        · rcases List.mem_cons.mp hbefore with rfl | hbefore
          · exact .inr List.mem_cons_self
          · exact .inl hbefore
        · exact .inr (List.mem_cons_of_mem _ hnames)

/-- A proper path that is started from a proper folder and normalized is proper. Outlines are kept
under normalized paths. -/
theorem IsProper.normalized {folder : Path} (hfolder : folder.IsProper) (hpath : path.IsProper) :
    (normalized folder path).IsProper where
  slashes := show 1 ≤ 2 by decide
  names name hname := by
    have hjoined : name ∈ (folder.join path).names :=
      (mem_of_mem_collapse hname).resolve_left List.not_mem_nil
    unfold join at hjoined
    split at hjoined
    · exact hpath.names name hjoined
    · exact (List.mem_append.mp hjoined).elim (hfolder.names name) (hpath.names name)

/-- The characters of the names of a path, with slashes between them. -/
def body (path : Path) : List Char :=
  Text.joinWith ['/'] (path.names.map String.toList)

/-- The written form of a path: a single dot if there is nothing else to write. -/
theorem toList_text (path : Path) : path.text.toList =
    if path.slashes = 0 ∧ path.names = [] then ['.']
    else List.replicate path.slashes '/' ++ path.body := by
  unfold text
  split
  · rfl
  · simp [Text.joinStrings, body]

/-- The names of a proper path are not empty and hold no slash, so they do not begin with one. -/
theorem IsProper.takeWhile_body (h : path.IsProper) :
    path.body.takeWhile (· = '/') = [] := by
  unfold body
  cases hnames : path.names with
  | nil => rfl
  | cons name names =>
      obtain ⟨hne, -, hslash⟩ := h.names name (hnames ▸ List.mem_cons_self)
      obtain ⟨c, rest, hname⟩ := List.exists_cons_of_ne_nil fun hnil =>
        hne (String.toList_eq_nil_iff.mp hnil)
      have hc : c ≠ '/' := by
        rintro rfl
        exact hslash (hname ▸ List.mem_cons_self)
      cases names <;> simp [Text.joinWith, hname, hc]

/-- The slashes in front of a proper path are those that it has. -/
theorem IsProper.leadingSlashes_text (h : path.IsProper) :
    leadingSlashes path.text.toList = path.slashes := by
  rw [toList_text]
  split
  · next hnothing => rw [hnothing.1]; rfl
  · have htake : (List.replicate path.slashes '/' ++ path.body).takeWhile (· = '/') =
        List.replicate path.slashes '/' := by
      rw [List.takeWhile_append_of_pos (by simp +contextual), h.takeWhile_body, List.append_nil]
    have hslashes := h.slashes
    rw [leadingSlashes, htake, List.length_replicate, if_pos hslashes]

/-- The names between the slashes of a proper path are those that it has. -/
theorem IsProper.namesOf_text (h : path.IsProper) : namesOf path.text = path.names := by
  have hkept : path.names.filter (fun name => name ≠ "" && name ≠ ".") = path.names :=
    List.filter_eq_self.mpr fun name hname => by
      obtain ⟨hne, hdot, -⟩ := h.names name hname
      simp [hne, hdot]
  have hbody : ((Text.splitAtEach '/' path.body).map String.ofList).filter
      (fun name => name ≠ "" && name ≠ ".") = path.names := by
    by_cases hnames : path.names = []
    · rw [body, hnames]
      decide
    · have hslash : ∀ piece ∈ path.names.map String.toList, '/' ∉ piece := by
        simpa using fun name hname => (h.names name hname).2.2
      rw [body, Text.splitAtEach_joinWith (by simpa using hnames) hslash, List.map_map]
      simpa [Function.comp_def] using hkept
  rw [namesOf, Text.splitString, toList_text]
  split
  · next hnothing =>
      rw [hnothing.2]
      decide
  · rw [Text.splitAtEach_replicate, List.map_append, List.filter_append, hbody]
    simp

/-- A proper path is read as it is written. -/
theorem IsProper.ofText_text (h : path.IsProper) : ofText path.text = path := by
  rw [ofText, h.leadingSlashes_text, h.namesOf_text]

/-- Proper paths that are written the same are the same. -/
theorem IsProper.eq_of_text_eq (hfirst : first.IsProper) (hsecond : second.IsProper)
    (h : first.text = second.text) : first = second := by
  rw [← hfirst.ofText_text, h, hsecond.ofText_text]

end Path

end CommentIndex
