import CommentIndex.Outline.Document
import CommentIndex.Proofs.Text.Stripping

/-!
# What a comment consists of

A comment may have a mark behind it that closes it, and before that a block of attributes.
`splitCloser_cases` and `endsInBlock_iff` say when these are taken off. A block right behind the tag
is read in the same way as one at the end of the comment: with either of the two an anchor says the
same, `factsOf_block_in_either_place`.
-/

namespace CommentIndex

namespace Comment

variable {comment front gap inner behind mark closer : List Char}

/-! ## Closing marks -/

/-- A mark has no blanks at its ends, and does not end as a block does. -/
structure IsMark (mark : List Char) : Prop where
  ne_nil : mark ≠ []
  stripStart_eq : Text.stripStart mark = mark
  stripEnd_eq : Text.stripEnd mark = mark
  stripEndBy_eq : Text.stripEndBy Text.isSpaceOrTab mark = mark
  noBracket : ¬ [']'] <:+ mark

/-- So it is with all that close a comment. -/
theorem isMark_of_mem_closers (h : mark ∈ closers) : IsMark mark := by
  have hall : ∀ mark ∈ closers, mark ≠ [] ∧ Text.stripStart mark = mark ∧
      Text.stripEnd mark = mark ∧ Text.stripEndBy Text.isSpaceOrTab mark = mark ∧
      ¬ [']'] <:+ mark := by
    decide
  obtain ⟨hne, hstart, hend, hspaces, hbracket⟩ := hall mark h
  exact ⟨hne, hstart, hend, hspaces, hbracket⟩

/-- No mark that closes a comment ends in another one. -/
theorem eq_of_suffix_of_mem_closers (h : mark ∈ closers) (hcloser : closer ∈ closers)
    (hends : mark <:+ closer) : mark = closer := by
  have hall : ∀ mark ∈ closers, ∀ closer ∈ closers, mark <:+ closer → mark = closer := by
    decide
  exact hall mark h closer hcloser hends

/-- Either a comment ends in a mark, which is taken off with the blanks in front of it, or it ends
in none and stays as it is. -/
theorem splitCloser_cases (comment : List Char) :
    (∃ mark ∈ closers, ∃ front, comment = front ++ mark ∧
      splitCloser comment = (Text.stripEnd front, some mark)) ∨
    (∀ mark ∈ closers, ¬ mark <:+ comment) ∧ splitCloser comment = (comment, none) := by
  unfold splitCloser
  cases hfind : closers.findSome? fun closer =>
      (Text.beforeEnd? closer comment).map fun body => (Text.stripEnd body, some closer) with
  | some split =>
      obtain ⟨mark, hmark, hsplit⟩ := List.exists_of_findSome?_eq_some hfind
      obtain ⟨front, hfront, rfl⟩ := Option.map_eq_some_iff.mp hsplit
      exact .inl ⟨mark, hmark, front, (Text.beforeEnd?_eq_some_iff ..).mp hfront, rfl⟩
  | none =>
      refine .inr ⟨fun mark hmark ⟨front, hfront⟩ => ?_, rfl⟩
      have hnone := List.findSome?_eq_none_iff.mp hfind mark hmark
      rw [(Text.beforeEnd?_eq_some_iff mark comment front).mpr hfront.symm] at hnone
      contradiction

/-- The mark at the end of a comment is taken off, with the blanks in front of it. -/
theorem splitCloser_append (h : mark ∈ closers) (front : List Char) :
    splitCloser (front ++ mark) = (Text.stripEnd front, some mark) := by
  rcases splitCloser_cases (front ++ mark) with
    ⟨closer, hcloser, body, htext, hsplit⟩ | ⟨hnone, -⟩
  · have hsame : mark = closer := by
      rcases List.suffix_or_suffix_of_suffix (List.suffix_append front mark)
        ⟨body, htext.symm⟩ with hends | hends
      · exact eq_of_suffix_of_mem_closers h hcloser hends
      · exact (eq_of_suffix_of_mem_closers hcloser h hends).symm
    subst hsame
    rw [hsplit, List.append_cancel_right htext]
  · exact absurd (List.suffix_append front mark) (hnone mark h)

/-- A comment that does not end in a mark stays as it is. -/
theorem splitCloser_eq_self (h : ∀ mark ∈ closers, ¬ mark <:+ comment) :
    splitCloser comment = (comment, none) := by
  rcases splitCloser_cases comment with ⟨mark, hmark, front, rfl, -⟩ | ⟨-, hself⟩
  · exact absurd (List.suffix_append front mark) (h mark hmark)
  · exact hself

/-- What may stand behind a comment to close it: a mark, or nothing if the comment does not end in a
mark itself. -/
def ClosedBy (comment closer : List Char) : Prop :=
  closer ∈ closers ∨ closer = [] ∧ ∀ mark ∈ closers, ¬ mark <:+ Text.strip comment

/-- With what closes it behind it, a comment is the same as by itself. -/
theorem splitCloser_strip (h : ClosedBy comment closer) :
    (splitCloser (Text.strip (comment ++ closer))).1 = Text.strip comment := by
  rcases h with hmem | ⟨rfl, hnone⟩
  · have hmark := isMark_of_mem_closers hmem
    rw [Text.strip_append_of_eq comment hmark.ne_nil hmark.stripStart_eq hmark.stripEnd_eq,
      splitCloser_append hmem]
    rfl
  · rw [List.append_nil, splitCloser_eq_self hnone]

/-! ## Blocks at the end -/

/-- The brackets with a block of attributes inside: a text in one line and without brackets, which
is blank or has a field. -/
structure IsTrailingBlock (inner : List Char) : Prop where
  inLine : ∀ c ∈ inner, isBlockChar c = true
  isBlock : isBlock inner = true

/-- A comment with a block of attributes at its end, and nothing but blanks behind. -/
def EndsInBlock (comment : List Char) : Prop :=
  ∃ front inner behind, comment = front ++ ('[' :: inner ++ ']' :: behind) ∧
    IsTrailingBlock inner ∧ ∀ c ∈ behind, Text.isBlank c = true

/-- Brackets at the end of a text are found from there. -/
theorem trailingBrackets?_append (hbehind : ∀ c ∈ behind, Text.isBlank c = true)
    (hinner : ∀ c ∈ inner, isBlockChar c = true) (front : List Char) :
    trailingBrackets? (behind ++ (']' :: (inner ++ '[' :: front))) = some (front, inner) := by
  have hdrop : (behind ++ (']' :: (inner ++ '[' :: front))).dropWhile Text.isBlank =
      ']' :: (inner ++ '[' :: front) := by
    rw [List.dropWhile_append_of_pos hbehind, List.dropWhile_cons_of_neg (by decide)]
  have htake : (inner ++ '[' :: front).takeWhile isBlockChar = inner := by
    rw [List.takeWhile_append_of_pos hinner, List.takeWhile_cons_of_neg (by decide),
      List.append_nil]
  simp only [trailingBrackets?, hdrop, htake, List.drop_left]

/-- Brackets that are found from the end of a text are there. -/
theorem text_of_trailingBrackets? {reversed : List Char}
    (h : trailingBrackets? reversed = some (front, inner)) :
    ∃ behind, reversed = behind ++ (']' :: (inner ++ '[' :: front)) ∧
      (∀ c ∈ behind, Text.isBlank c = true) ∧ ∀ c ∈ inner, isBlockChar c = true := by
  unfold trailingBrackets? at h
  split at h
  · next back hdrop =>
      dsimp only at h
      split at h
      · next before hbefore =>
          obtain ⟨rfl, rfl⟩ := Prod.mk.inj (Option.some.inj h)
          have hback := List.prefix_iff_eq_append.mp
            (List.takeWhile_prefix (l := back) isBlockChar)
          rw [hbefore] at hback
          refine ⟨reversed.takeWhile Text.isBlank, ?_, fun c => List.mem_takeWhile_imp,
            fun c => List.mem_takeWhile_imp⟩
          rw [hback, ← hdrop, List.takeWhile_append_dropWhile]
      · contradiction
  · contradiction

/-- A block at the end of a comment is taken off with the blanks around it. -/
theorem splitTrailingBlock_append (front : List Char) (h : IsTrailingBlock inner)
    (hbehind : ∀ c ∈ behind, Text.isBlank c = true) :
    splitTrailingBlock (front ++ ('[' :: inner ++ ']' :: behind)) =
      (Text.stripEnd front, some inner) := by
  have hreverse : (front ++ ('[' :: inner ++ ']' :: behind)).reverse =
      behind.reverse ++ (']' :: (inner.reverse ++ '[' :: front.reverse)) := by
    simp
  have hfound : trailingBrackets? (behind.reverse ++ (']' :: (inner.reverse ++ '[' ::
      front.reverse))) = some (front.reverse, inner.reverse) :=
    trailingBrackets?_append (fun c hc => hbehind c (List.mem_reverse.mp hc))
      (fun c hc => h.inLine c (List.mem_reverse.mp hc)) _
  simp only [splitTrailingBlock, hreverse, hfound, List.reverse_reverse, h.isBlock, if_true]

/-- A comment without such a block at its end stays as it is. -/
theorem splitTrailingBlock_eq_self (h : ¬ EndsInBlock comment) :
    splitTrailingBlock comment = (comment, none) := by
  unfold splitTrailingBlock
  cases hfind : trailingBrackets? comment.reverse with
  | none => rfl
  | some found =>
      obtain ⟨front, inner⟩ := found
      obtain ⟨behind, hreverse, hbehind, hinner⟩ := text_of_trailingBrackets? hfind
      refine if_neg fun hblock => h ⟨front.reverse, inner.reverse, behind.reverse, ?_,
        ⟨fun c hc => hinner c (List.mem_reverse.mp hc), hblock⟩,
        fun c hc => hbehind c (List.mem_reverse.mp hc)⟩
      simpa using congrArg List.reverse hreverse

/-- A block at the end of a comment is what is taken off of it. -/
theorem endsInBlock_iff : EndsInBlock comment ↔ (splitTrailingBlock comment).2.isSome = true := by
  constructor
  · rintro ⟨front, inner, behind, rfl, hinner, hbehind⟩
    rw [splitTrailingBlock_append front hinner hbehind]
    rfl
  · intro hsome
    by_contra hnone
    rw [splitTrailingBlock_eq_self hnone] at hsome
    contradiction

instance (comment : List Char) : Decidable (EndsInBlock comment) :=
  decidable_of_iff _ endsInBlock_iff.symm

/-- Stripping leaves nothing behind a block at the end of a comment. -/
theorem strip_append_block (front inner : List Char)
    (hbehind : ∀ c ∈ behind, Text.isBlank c = true) :
    Text.strip (front ++ ('[' :: inner ++ ']' :: behind)) =
      Text.stripStart front ++ ('[' :: inner ++ [']']) := by
  have hpieces : front ++ ('[' :: inner ++ ']' :: behind) =
      front ++ ('[' :: inner ++ [']']) ++ behind := by
    simp
  have hstart : Text.stripStart ('[' :: inner ++ [']']) = '[' :: inner ++ [']'] :=
    List.dropWhile_cons_of_neg (by decide)
  have hend : Text.stripEnd ('[' :: inner ++ [']']) = '[' :: inner ++ [']'] :=
    Text.stripEndBy_append_of_eq ('[' :: inner) (by simp) (by decide)
  rw [hpieces, Text.strip_append_blanks _ hbehind,
    Text.strip_append_of_eq front (by simp) hstart hend]

/-- What closes a comment also closes it with a block at its end. -/
theorem ClosedBy.append_block (h : ClosedBy comment closer)
    (hbehind : ∀ c ∈ behind, Text.isBlank c = true) :
    ClosedBy (comment ++ gap ++ ('[' :: inner ++ ']' :: behind)) closer := by
  rcases h with hmem | ⟨rfl, -⟩
  · exact .inl hmem
  · refine .inr ⟨rfl, fun mark hmark hends => ?_⟩
    have hshape := isMark_of_mem_closers hmark
    rw [strip_append_block _ inner hbehind, ← List.append_assoc] at hends
    rcases List.suffix_concat_iff.mp hends with rfl | ⟨rest, rfl, -⟩
    · exact hshape.ne_nil rfl
    · exact hshape.noBracket (List.suffix_append rest [']'])

end Comment

namespace Outline

open Comment (ClosedBy EndsInBlock IsTrailingBlock)

variable {comment gap block behind closer text : List Char} {hit hit' : Hit} {tag : Tag}
  {starts starts' : List Nat} {showTag : Bool}

/-- A hit with a block of attributes right behind its tag, and a comment behind that. -/
structure BlockAtTag (hit : Hit) (block comment closer : List Char) : Prop where
  block_eq : hit.block = some block
  comment_eq : hit.comment = some (comment ++ closer)

/-- A hit with a comment that has a block of attributes at its end. -/
structure BlockAtEnd (hit : Hit) (block comment gap behind closer : List Char) : Prop where
  block_eq : hit.block = none
  comment_eq : hit.comment = some (comment ++ gap ++ ('[' :: block ++ ']' :: behind) ++ closer)

/-- An anchor with a text, and with the attributes of a block. -/
structure HasRemark (showTag : Bool) (tag : Tag) (text block : List Char)
    (facts : Facts) : Prop where
  text_eq : facts.text = String.ofList text
  display_eq : facts.display = displayOf showTag tag text
  attributes_eq : facts.attributes = Attributes.read (some block) facts.line

/-- The text and the block of a comment are those of what is left when the mark that closes it is
taken off. -/
theorem remarkOf_eq_splitTrailingBlock {body : List Char}
    (h : (Comment.splitCloser (Text.strip (hit.comment.getD []))).1 = body) :
    ((remarkOf hit).text, (remarkOf hit).block) = Comment.splitTrailingBlock body := by
  rw [← h]
  rfl

/-- What an anchor says with a text and the block that gives its attributes. -/
theorem hasRemark_factsOf (htext : (remarkOf hit).text = text)
    (hblock : blockOf hit (remarkOf hit) = some block) :
    HasRemark showTag tag text block (factsOf starts showTag tag hit) := by
  refine ⟨congrArg String.ofList htext, congrArg (displayOf showTag tag) htext, ?_⟩
  simp only [factsOf, hblock]

/-- A block right behind the tag gives the anchor its attributes, and the comment its text. -/
theorem BlockAtTag.hasRemark (h : BlockAtTag hit block comment closer)
    (hcloser : ClosedBy comment closer) (hplain : ¬ EndsInBlock (Text.strip comment)) :
    HasRemark showTag tag (Text.strip comment) block (factsOf starts showTag tag hit) := by
  have hbody : (Comment.splitCloser (Text.strip (hit.comment.getD []))).1 = Text.strip comment := by
    rw [h.comment_eq]
    exact Comment.splitCloser_strip hcloser
  have hremark := remarkOf_eq_splitTrailingBlock hbody
  rw [Comment.splitTrailingBlock_eq_self hplain] at hremark
  obtain ⟨htext, hnone⟩ := Prod.mk.inj hremark
  refine hasRemark_factsOf htext ?_
  rw [blockOf, hnone, Option.isSome_none, Bool.and_false, h.block_eq]
  rfl

/-- So does a block at the end of the comment, if there is none behind the tag. -/
theorem BlockAtEnd.hasRemark (h : BlockAtEnd hit block comment gap behind closer)
    (hblock : IsTrailingBlock block) (hcloser : ClosedBy comment closer)
    (hgap : ∀ c ∈ gap, Text.isBlank c = true) (hbehind : ∀ c ∈ behind, Text.isBlank c = true) :
    HasRemark showTag tag (Text.strip comment) block (factsOf starts showTag tag hit) := by
  have hbody : (Comment.splitCloser (Text.strip (hit.comment.getD []))).1 =
      Text.stripStart (comment ++ gap) ++ ('[' :: block ++ [']']) := by
    rw [h.comment_eq, ← Comment.strip_append_block _ block hbehind]
    exact Comment.splitCloser_strip (hcloser.append_block hbehind)
  have hremark := remarkOf_eq_splitTrailingBlock hbody
  rw [Comment.splitTrailingBlock_append _ hblock (by simp), Text.stripEnd_stripStart,
    Text.strip_append_blanks _ hgap] at hremark
  obtain ⟨htext, hsome⟩ := Prod.mk.inj hremark
  refine hasRemark_factsOf htext ?_
  rw [blockOf, hsome, h.block_eq]
  rfl

/-- A block of attributes means the same right behind the tag as at the end of the comment, before
what closes it: two such anchors of a tag on one line have the same text, are displayed in the same
way and have the same attributes. The comment by itself has no block at its end. -/
theorem factsOf_block_in_either_place (h : BlockAtTag hit block comment closer)
    (h' : BlockAtEnd hit' block comment gap behind closer) (hblock : IsTrailingBlock block)
    (hcloser : ClosedBy comment closer) (hplain : ¬ EndsInBlock (Text.strip comment))
    (hgap : ∀ c ∈ gap, Text.isBlank c = true) (hbehind : ∀ c ∈ behind, Text.isBlank c = true)
    (hline : (factsOf starts showTag tag hit).line = (factsOf starts' showTag tag hit').line) :
    (factsOf starts showTag tag hit).text = (factsOf starts' showTag tag hit').text ∧
      (factsOf starts showTag tag hit).display = (factsOf starts' showTag tag hit').display ∧
      (factsOf starts showTag tag hit).attributes =
        (factsOf starts' showTag tag hit').attributes := by
  have hfirst : HasRemark showTag tag (Text.strip comment) block (factsOf starts showTag tag hit) :=
    h.hasRemark hcloser hplain
  have hsecond : HasRemark showTag tag (Text.strip comment) block
      (factsOf starts' showTag tag hit') :=
    h'.hasRemark hblock hcloser hgap hbehind
  refine ⟨hfirst.text_eq.trans hsecond.text_eq.symm,
    hfirst.display_eq.trans hsecond.display_eq.symm, ?_⟩
  rw [hfirst.attributes_eq, hsecond.attributes_eq, hline]

/-- A comment about a list, with brackets in its prose. -/
theorem factsOf_block_in_either_place_of_list :
    let tag : Tag := { name := "T" }
    let hit : Hit :=
      { start := 0, mark := "<!--".toList, gap := [' '], token := ['T']
        block := some "epic=a, seq=".toList, separator := ": ".toList
        comment := some "sort xs[0] [first] -->".toList }
    let hit' : Hit :=
      { start := 0, mark := "<!--".toList, gap := [' '], token := ['T'], block := none
        separator := ": ".toList
        comment := some "sort xs[0] [first]  [epic=a, seq=]-->".toList }
    (factsOf [0] true tag hit).text = (factsOf [0] true tag hit').text ∧
      (factsOf [0] true tag hit).display = (factsOf [0] true tag hit').display ∧
      (factsOf [0] true tag hit).attributes = (factsOf [0] true tag hit').attributes := by
  intro tag hit hit'
  let comment := "sort xs[0] [first] ".toList
  let block := "epic=a, seq=".toList
  have hfirst : BlockAtTag hit block comment "-->".toList := ⟨rfl, rfl⟩
  have hsecond : BlockAtEnd hit' block comment [' '] [] "-->".toList := ⟨rfl, rfl⟩
  have hblock : IsTrailingBlock block := ⟨List.all_eq_true.mp (by decide), by decide⟩
  exact factsOf_block_in_either_place hfirst hsecond hblock (.inl (by decide)) (by decide)
    (List.all_eq_true.mp (by decide)) (List.forall_mem_nil _) rfl

end Outline

end CommentIndex
