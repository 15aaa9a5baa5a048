/-!
# Cutting and joining text

`splitAtEach` cuts a text at every occurrence of a character and `joinWith` puts pieces together
again; `join_splitAtEach` and `splitAtEach_joinWith` say that each undoes the other.
-/

namespace CommentIndex.Text

/-- The pieces of the text between the separators; there is always at least one. -/
def splitAtEach (separator : Char) : List Char → List (List Char)
  | [] => [[]]
  | c :: rest =>
    if c = separator then [] :: splitAtEach separator rest
    else match splitAtEach separator rest with
      | [] => [[c]]
      | piece :: pieces => (c :: piece) :: pieces

/-- The pieces with `between` put between each two. -/
def joinWith (between : List Char) : List (List Char) → List Char
  | [] => []
  | [piece] => piece
  | piece :: pieces => piece ++ between ++ joinWith between pieces

/-- The text before the first `separator` and, if there is one, the text behind it. -/
def cutAtFirst (separator : Char) : List Char → List Char × Option (List Char)
  | [] => ([], none)
  | c :: rest =>
    if c = separator then ([], some rest)
    else
      let (before, behind) := cutAtFirst separator rest
      (c :: before, behind)

/-- The text without the given start, if it starts so. -/
def afterStart? : List Char → List Char → Option (List Char)
  | [], text => some text
  | _ :: _, [] => none
  | c :: start, d :: text => if c = d then afterStart? start text else none

/-- The text without the given end, if it ends so. -/
def beforeEnd? (ending text : List Char) : Option (List Char) :=
  (afterStart? ending.reverse text.reverse).map List.reverse

/-- `splitAtEach` on strings. -/
def splitString (separator : Char) (text : String) : List String :=
  (splitAtEach separator text.toList).map String.ofList

/-- `joinWith` on strings. -/
def joinStrings (between : String) (pieces : List String) : String :=
  String.ofList (joinWith between.toList (pieces.map String.toList))

/-- There is always a first piece. -/
theorem splitAtEach_ne_nil (separator : Char) (text : List Char) :
    splitAtEach separator text ≠ [] := by
  cases text with
  | nil => simp [splitAtEach]
  | cons c rest =>
      unfold splitAtEach
      split
      · simp
      · split <;> simp

/-- What separates the pieces is in front of each but the first. -/
theorem joinWith_cons (between first : List Char) (others : List (List Char)) :
    joinWith between (first :: others) = first ++ others.flatMap (between ++ ·) := by
  induction others generalizing first with
  | nil => rw [joinWith, List.flatMap_nil, List.append_nil]
  | cons next others ih =>
      rw [joinWith, ih, List.flatMap_cons, List.append_assoc, List.append_assoc]
      exact List.cons_ne_nil _ _

/-- Joining the pieces with the separator gives the text back. -/
theorem join_splitAtEach (separator : Char) (text : List Char) :
    joinWith [separator] (splitAtEach separator text) = text := by
  induction text with
  | nil => rfl
  | cons c rest ih =>
      unfold splitAtEach
      cases h : splitAtEach separator rest with
      | nil => exact absurd h (splitAtEach_ne_nil separator rest)
      | cons piece pieces =>
          rw [h] at ih
          split
          · next hc => subst hc; simp [joinWith, ih]
          · cases pieces <;> simp_all [joinWith]

/-- A piece of a text has no characters but those of the text. -/
theorem mem_of_mem_splitAtEach {separator c : Char} {piece text : List Char}
    (hpiece : piece ∈ splitAtEach separator text) (hc : c ∈ piece) : c ∈ text := by
  induction text generalizing piece with
  | nil =>
      obtain rfl := List.mem_singleton.mp hpiece
      contradiction
  | cons d rest ih =>
      unfold splitAtEach at hpiece
      split at hpiece
      · rcases List.mem_cons.mp hpiece with rfl | hpiece
        · contradiction
        · exact List.mem_cons_of_mem _ (ih hpiece hc)
      · cases hrest : splitAtEach separator rest with
        | nil => exact absurd hrest (splitAtEach_ne_nil separator rest)
        | cons first pieces =>
            rw [hrest] at hpiece ih
            rcases List.mem_cons.mp hpiece with rfl | hpiece
            · rcases List.mem_cons.mp hc with rfl | hc
              · exact List.mem_cons_self
              · exact List.mem_cons_of_mem _ (ih List.mem_cons_self hc)
            · exact List.mem_cons_of_mem _ (ih (List.mem_cons_of_mem _ hpiece) hc)

/-- A text without separators is one piece. -/
theorem splitAtEach_of_notMem {separator : Char} {text : List Char} (h : separator ∉ text) :
    splitAtEach separator text = [text] := by
  induction text with
  | nil => rfl
  | cons c rest ih =>
      obtain ⟨hc, hrest⟩ := not_or.mp (mt List.mem_cons.mpr h)
      rw [splitAtEach, if_neg (Ne.symm hc), ih hrest]

/-- The first piece ends at the first separator. -/
theorem splitAtEach_append {separator : Char} {piece : List Char} (h : separator ∉ piece)
    (rest : List Char) :
    splitAtEach separator (piece ++ separator :: rest) = piece :: splitAtEach separator rest := by
  induction piece with
  | nil => rw [List.nil_append, splitAtEach, if_pos rfl]
  | cons c piece ih =>
      obtain ⟨hc, hpiece⟩ := not_or.mp (mt List.mem_cons.mpr h)
      rw [List.cons_append, splitAtEach, if_neg (Ne.symm hc), ih hpiece]

/-- Pieces that hold no separator are the pieces of the text that joins them. -/
theorem splitAtEach_joinWith {separator : Char} {pieces : List (List Char)} (hne : pieces ≠ [])
    (h : ∀ piece ∈ pieces, separator ∉ piece) :
    splitAtEach separator (joinWith [separator] pieces) = pieces := by
  induction pieces with
  | nil => contradiction
  | cons piece rest ih =>
      obtain ⟨hpiece, hrest⟩ := List.forall_mem_cons.mp h
      cases rest with
      | nil => exact splitAtEach_of_notMem hpiece
      | cons next rest =>
          have hpieces := ih (List.cons_ne_nil _ _) hrest
          rw [joinWith, List.append_assoc, List.singleton_append, splitAtEach_append hpiece,
            hpieces]
          simp

/-- There is no separator in a piece. -/
theorem notMem_of_mem_splitAtEach {separator : Char} {piece text : List Char}
    (h : piece ∈ splitAtEach separator text) : separator ∉ piece := by
  induction text generalizing piece with
  | nil =>
      obtain rfl := List.mem_singleton.mp h
      exact List.not_mem_nil
  | cons c rest ih =>
      unfold splitAtEach at h
      split at h
      · rcases List.mem_cons.mp h with rfl | h
        · exact List.not_mem_nil
        · exact ih h
      · next hc =>
          cases hrest : splitAtEach separator rest with
          | nil => exact absurd hrest (splitAtEach_ne_nil separator rest)
          | cons first pieces =>
              rw [hrest] at h ih
              rcases List.mem_cons.mp h with rfl | h
              · exact mt List.mem_cons.mp (not_or.mpr ⟨Ne.symm hc, ih List.mem_cons_self⟩)
              · exact ih (List.mem_cons_of_mem _ h)

/-- A text is cut at its first separator. -/
theorem cutAtFirst_append {separator : Char} {before : List Char} (h : separator ∉ before)
    (behind : List Char) :
    cutAtFirst separator (before ++ separator :: behind) = (before, some behind) := by
  induction before with
  | nil => rw [List.nil_append, cutAtFirst, if_pos rfl]
  | cons c before ih =>
      obtain ⟨hc, hbefore⟩ := not_or.mp (mt List.mem_cons.mpr h)
      rw [List.cons_append, cutAtFirst, if_neg (Ne.symm hc), ih hbefore]

/-- What is cut off is behind a separator. -/
theorem text_of_cutAtFirst {separator : Char} {text before behind : List Char}
    (h : cutAtFirst separator text = (before, some behind)) :
    text = before ++ separator :: behind := by
  induction text generalizing before with
  | nil => cases h
  | cons c rest ih =>
      unfold cutAtFirst at h
      split at h
      · next hc =>
          obtain ⟨rfl, hrest⟩ := Prod.mk.inj h
          rw [hc, Option.some.inj hrest, List.nil_append]
      · obtain ⟨rfl, hrest⟩ := Prod.mk.inj h
        rw [List.cons_append, ← ih (Prod.ext rfl hrest)]

/-- What is in front of the first separator holds none. -/
theorem notMem_of_cutAtFirst {separator : Char} {text before : List Char}
    {behind : Option (List Char)} (h : cutAtFirst separator text = (before, behind)) :
    separator ∉ before := by
  induction text generalizing before with
  | nil =>
      obtain ⟨rfl, -⟩ := Prod.mk.inj h
      exact List.not_mem_nil
  | cons c rest ih =>
      unfold cutAtFirst at h
      split at h
      · obtain ⟨rfl, -⟩ := Prod.mk.inj h
        exact List.not_mem_nil
      · next hc =>
          obtain ⟨rfl, hrest⟩ := Prod.mk.inj h
          exact mt List.mem_cons.mp (not_or.mpr ⟨Ne.symm hc, ih (Prod.ext rfl hrest)⟩)

/-- What `afterStart?` returns is the rest of the text. -/
theorem afterStart?_eq_some_iff (start text rest : List Char) :
    afterStart? start text = some rest ↔ text = start ++ rest := by
  induction start generalizing text with
  | nil => simp [afterStart?, eq_comm]
  | cons c start ih =>
      cases text with
      | nil => simp [afterStart?]
      | cons d text =>
          by_cases h : c = d
          · simp [afterStart?, h, ih]
          · simp [afterStart?, h, Ne.symm h]

/-- What `beforeEnd?` returns is the text up to the ending. -/
theorem beforeEnd?_eq_some_iff (ending text body : List Char) :
    beforeEnd? ending text = some body ↔ text = body ++ ending := by
  unfold beforeEnd?
  rw [Option.map_eq_some_iff]
  constructor
  · rintro ⟨reversed, hreversed, rfl⟩
    have htext := (afterStart?_eq_some_iff ..).mp hreversed
    simpa using congrArg List.reverse htext
  · rintro rfl
    exact ⟨body.reverse, (afterStart?_eq_some_iff ..).mpr (by simp), body.reverse_reverse⟩

end CommentIndex.Text
