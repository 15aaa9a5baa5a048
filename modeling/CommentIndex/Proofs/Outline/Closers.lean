import CommentIndex.Proofs.Matcher.Pieces
import CommentIndex.Proofs.Outline.Highlights
import CommentIndex.Proofs.Outline.Remarks

/-!
# Closing marks in highlights

A mark that closes a comment is no part of the text of an anchor, and should be no part of what is
highlighted either. The text has all blanks removed from its ends before the mark is looked for, the
highlight only spaces and tabs. So the two agree if and only if there are no other blanks behind the
mark: `ofText_highlights_comments` says so of every comment in a text.
-/

namespace CommentIndex

namespace Comment

variable {comment front front' mark mark' blanks blanks' : List Char}

/-- A comment that is closed: it ends in a mark, with nothing but blanks behind. -/
structure Closed (comment front mark blanks : List Char) : Prop where
  eq : comment = front ++ (mark ++ blanks)
  mark : mark ∈ closers
  blanks : ∀ c ∈ blanks, Text.isBlank c = true

namespace Closed

/-- The pieces of a closed comment with something in front of it. -/
theorem append_eq (h : Closed comment front mark blanks) (lead : List Char) :
    lead ++ comment = (lead ++ front) ++ (mark ++ blanks) := by
  rw [h.eq, List.append_assoc]

/-- Stripping a closed comment leaves no blanks behind the mark. -/
theorem strip_eq (h : Closed comment front mark blanks) :
    Text.strip comment = Text.stripStart front ++ mark := by
  have hmark := isMark_of_mem_closers h.mark
  rw [h.eq, ← List.append_assoc, Text.strip_append_blanks _ h.blanks,
    Text.strip_append_of_eq front hmark.ne_nil hmark.stripStart_eq hmark.stripEnd_eq]

/-- The mark is taken off. -/
theorem splitCloser_eq (h : Closed comment front mark blanks) :
    splitCloser (Text.strip comment) = (Text.strip front, some mark) := by
  rw [h.strip_eq, splitCloser_append h.mark]
  rfl

/-- The comment up to the mark is what is left without the blanks at its end. -/
theorem stripEnd_eq (h : Closed comment front mark blanks) :
    Text.stripEnd comment = front ++ mark := by
  have hmark := isMark_of_mem_closers h.mark
  rw [h.eq, ← List.append_assoc, Text.stripEnd, Text.stripEndBy_append_of_all _ h.blanks]
  exact Text.stripEndBy_append_of_eq front hmark.ne_nil hmark.stripEnd_eq

/-- What stands behind the mark is told by the comment. -/
theorem blanks_unique (h : Closed comment front mark blanks)
    (h' : Closed comment front' mark' blanks') : blanks = blanks' := by
  have hwhole : (front ++ mark) ++ blanks = (front ++ mark) ++ blanks' := by
    rw [List.append_assoc, ← h.eq, ← h.stripEnd_eq, h'.stripEnd_eq, List.append_assoc, ← h'.eq]
  exact List.append_cancel_left hwhole

end Closed

/-- A comment that is not closed is only stripped. -/
theorem splitCloser_strip_of_not_closed
    (h : ∀ front mark blanks, ¬ Closed comment front mark blanks) :
    splitCloser (Text.strip comment) = (Text.strip comment, none) := by
  refine splitCloser_eq_self fun mark hmark ⟨front, hfront⟩ => ?_
  obtain ⟨before, behind, htext, -, hbehind⟩ := Text.exists_blanks_strip comment
  refine h (before ++ front) mark behind ⟨?_, hmark, hbehind⟩
  conv_lhs => rw [htext, ← hfront]
  simp only [List.append_assoc]

/-- There is nothing but spaces and tabs behind the mark that closes a comment, if any does. -/
def ClosedTightly (comment : List Char) : Prop :=
  ∀ front mark blanks, Closed comment front mark blanks →
    ∀ c ∈ blanks, Text.isSpaceOrTab c = true

/-- What stands behind the mark of one closed comment. -/
theorem Closed.closedTightly_iff (h : Closed comment front mark blanks) :
    ClosedTightly comment ↔ ∀ c ∈ blanks, Text.isSpaceOrTab c = true :=
  ⟨fun htight => htight front mark blanks h,
    fun hblanks _ _ _ h' => h.blanks_unique h' ▸ hblanks⟩

end Comment

namespace Outline

open Comment (Closed ClosedTightly IsMark)

variable {comment front mark blanks lead : List Char}

/-! ## The highlight behind the token -/

/-- A mark with spaces and tabs behind it is not highlighted. -/
theorem highlightedTail_of_spaces (lead : List Char) (hmark : IsMark mark)
    (h : ∀ c ∈ blanks, Text.isSpaceOrTab c = true) :
    highlightedTail (lead ++ (mark ++ blanks)) (some mark) =
      Text.stripEndBy Text.isSpaceOrTab lead := by
  have hshown : Text.stripEndBy Text.isSpaceOrTab (lead ++ (mark ++ blanks)) = lead ++ mark := by
    rw [← List.append_assoc, Text.stripEndBy_append_of_all _ h,
      Text.stripEndBy_append_of_eq lead hmark.ne_nil hmark.stripEndBy_eq]
  have hbody : Text.beforeEnd? mark (lead ++ mark) = some lead :=
    (Text.beforeEnd?_eq_some_iff ..).mpr rfl
  simp only [highlightedTail, hshown, Option.bind_some, hbody]

/-- A mark with another blank behind it is highlighted up to that. -/
theorem highlightedTail_of_blanks (lead : List Char) (hmark : IsMark mark)
    (hblanks : ∀ c ∈ blanks, Text.isBlank c = true)
    (h : ¬ ∀ c ∈ blanks, Text.isSpaceOrTab c = true) :
    highlightedTail (lead ++ (mark ++ blanks)) (some mark) =
      lead ++ (mark ++ Text.stripEndBy Text.isSpaceOrTab blanks) := by
  let left := Text.stripEndBy Text.isSpaceOrTab blanks
  have hleft : left ≠ [] := mt Text.stripEndBy_eq_nil_iff.mp h
  have hshown : Text.stripEndBy Text.isSpaceOrTab (lead ++ (mark ++ blanks)) =
      lead ++ (mark ++ left) := by
    rw [← List.append_assoc, Text.stripEndBy_append_of_ne_nil _ hleft, List.append_assoc]
  -- what is left ends in a blank, and so not in the mark
  have hnone : Text.beforeEnd? mark (lead ++ (mark ++ left)) = none := by
    rw [Option.eq_none_iff_forall_ne_some]
    intro body hbody
    have hends := (Text.beforeEnd?_eq_some_iff ..).mp hbody
    have hdropped : Text.stripEnd (lead ++ (mark ++ left)) = lead ++ mark := by
      rw [← List.append_assoc, Text.stripEnd, Text.stripEndBy_append_of_all _ fun c hc =>
        hblanks c ((Text.stripEndBy_isStart _ blanks).subset hc)]
      exact Text.stripEndBy_append_of_eq lead hmark.ne_nil hmark.stripEnd_eq
    have hkept : Text.stripEnd (body ++ mark) = body ++ mark :=
      Text.stripEndBy_append_of_eq body hmark.ne_nil hmark.stripEnd_eq
    rw [hends, hkept, ← hends, ← List.append_assoc] at hdropped
    exact hleft (List.append_right_eq_self.mp hdropped)
  simp only [highlightedTail, hshown, Option.bind_some, hnone]
  rfl

/-! ## The comment in its text -/

/-- The text of a hit between its token and its comment. -/
def leadOf (hit : Hit) : List Char :=
  Matcher.blockText hit.block ++ hit.separator

/-- The offset at which the comment of a hit begins. -/
def commentStart (hit : Hit) : Nat :=
  hit.stop - (hit.comment.getD []).length

/-- What is highlighted of a text for an anchor from the start of the comment on. -/
def shownComment (text : List Char) (hit : Hit) (facts : Facts) : List Char :=
  shown text { facts with start := commentStart hit }

variable {text : List Char} {hit : Hit} {matcher : Matcher} {closer : Option (List Char)}

/-- Behind the token there is the comment, with what leads to it in front. -/
theorem tail_of_comment (h : hit.comment = some comment) : hit.tail = leadOf hit ++ comment := by
  rw [Matcher.tail_eq, h]
  rfl

/-- The comment begins behind the token and what leads from there to it. -/
theorem commentStart_eq (hit : Hit) : commentStart hit = hit.tokenEnd + (leadOf hit).length := by
  rw [commentStart, Hit.stop, Matcher.tail_eq, List.length_append, leadOf]
  omega

/-- The comment of a hit stands in the text from its start on. -/
theorem exists_place_of_comment (h : hit ∈ matcher.hits text)
    (hcomment : hit.comment = some comment) :
    ∃ before after, text = before ++ (comment ++ after) ∧ commentStart hit = before.length := by
  obtain ⟨before, after, rfl, hstart⟩ := Matcher.exists_place_of_mem_hits h
  refine ⟨before ++ hit.mark ++ hit.gap ++ hit.token ++ leadOf hit, after, ?_, ?_⟩
  · rw [Hit.text, tail_of_comment hcomment]
    simp only [List.append_assoc]
  · rw [commentStart_eq, Hit.tokenEnd, Hit.tokenStart, hstart]
    simp only [List.length_append]

/-- What is highlighted of the comment is what is behind the lead of what is highlighted behind the
token. -/
theorem shownComment_eq (h : hit ∈ matcher.hits text) (hcomment : hit.comment = some comment)
    {facts : Facts} (hstop : facts.stop = hit.tokenEnd + (highlightedTail hit.tail closer).length) :
    shownComment text hit facts = (highlightedTail hit.tail closer).drop (leadOf hit).length := by
  let left := (highlightedTail hit.tail closer).drop (leadOf hit).length
  obtain ⟨before, after, rfl, hbefore⟩ := exists_place_of_comment h hcomment
  obtain ⟨rest, hrest⟩ : left <+: comment := by
    have hstarts := (highlightedTail_isStart hit.tail closer).drop (leadOf hit).length
    rwa [tail_of_comment hcomment, List.drop_left, ← tail_of_comment hcomment] at hstarts
  have hlength : facts.stop - before.length = left.length := by
    rw [← hbefore, commentStart_eq, hstop, List.length_drop]
    omega
  rw [shownComment, shown]
  dsimp only
  rw [hbefore, List.drop_left, hlength, ← hrest, List.append_assoc, List.take_left]

/-! ## What is highlighted of a comment -/

/-- A tightly closed comment is highlighted up to the mark, without the blanks in front of it. -/
theorem highlightedTail_of_tight (h : Closed comment front mark blanks)
    (htight : ClosedTightly comment) (lead : List Char) :
    highlightedTail (lead ++ comment) (some mark) =
      Text.stripEndBy Text.isSpaceOrTab (lead ++ front) := by
  rw [h.append_eq]
  exact highlightedTail_of_spaces _ (Comment.isMark_of_mem_closers h.mark)
    (h.closedTightly_iff.mp htight)

/-- A comment that is not tightly closed is highlighted with the mark and a blank behind. -/
theorem highlightedTail_of_loose (h : Closed comment front mark blanks)
    (hloose : ¬ ClosedTightly comment) (lead : List Char) :
    ∃ left, Closed (front ++ (mark ++ left)) front mark left ∧ left ≠ [] ∧
      highlightedTail (lead ++ comment) (some mark) = lead ++ (front ++ (mark ++ left)) := by
  let left := Text.stripEndBy Text.isSpaceOrTab blanks
  have hother : ¬ ∀ c ∈ blanks, Text.isSpaceOrTab c = true := mt h.closedTightly_iff.mpr hloose
  have hblanks := (Text.stripEndBy_isStart Text.isSpaceOrTab blanks).subset
  refine ⟨left, ⟨rfl, h.mark, fun c hc => h.blanks c (hblanks hc)⟩,
    mt Text.stripEndBy_eq_nil_iff.mp hother, ?_⟩
  rw [h.append_eq, highlightedTail_of_blanks _ (Comment.isMark_of_mem_closers h.mark) h.blanks
    hother, List.append_assoc]

/-- More is left of a closed comment than of what is in front of the mark. -/
theorem strip_ne_strip_front (h : Closed comment front mark blanks) :
    Text.strip comment ≠ Text.strip front := by
  rw [h.strip_eq]
  intro hsame
  have hmark := List.length_pos_iff.mpr (Comment.isMark_of_mem_closers h.mark).ne_nil
  have hlength := congrArg List.length hsame
  have hle : (Text.strip front).length ≤ (Text.stripStart front).length :=
    (Text.stripEndBy_isStart ..).length_le
  rw [List.length_append] at hlength
  omega

/-- What is highlighted of a comment, stripped, is the comment without the mark, if and only if the
comment is closed tightly. -/
theorem strip_drop_highlightedTail_iff (lead comment : List Char) :
    Text.strip ((highlightedTail (lead ++ comment)
        (Comment.splitCloser (Text.strip comment)).2).drop lead.length) =
      (Comment.splitCloser (Text.strip comment)).1 ↔ ClosedTightly comment := by
  by_cases hclosed : ∃ front mark blanks, Closed comment front mark blanks
  · obtain ⟨front, mark, blanks, hclosed⟩ := hclosed
    rw [hclosed.splitCloser_eq]
    by_cases htight : ClosedTightly comment
    · refine iff_of_true ?_ htight
      rw [highlightedTail_of_tight hclosed htight, Text.drop_stripEndBy_append,
        Text.strip_stripEndBy Text.isBlank_of_isSpaceOrTab]
    · obtain ⟨left, hleft, -, htail⟩ := highlightedTail_of_loose hclosed htight lead
      refine iff_of_false ?_ htight
      rw [htail, List.drop_left]
      exact strip_ne_strip_front hleft
  · push Not at hclosed
    rw [Comment.splitCloser_strip_of_not_closed hclosed]
    refine iff_of_true ?_ fun front mark blanks h => absurd h (hclosed front mark blanks)
    show Text.strip ((Text.stripEndBy Text.isSpaceOrTab (lead ++ comment)).drop lead.length) = _
    rw [Text.drop_stripEndBy_append, Text.strip_stripEndBy Text.isBlank_of_isSpaceOrTab]

/-- The highlight of a tightly closed comment stops in front of the mark. -/
theorem length_highlightedTail_le (h : Closed comment front mark blanks)
    (htight : ClosedTightly comment) (lead : List Char) :
    (highlightedTail (lead ++ comment) (some mark)).length ≤ lead.length + front.length := by
  rw [highlightedTail_of_tight h htight, ← List.length_append]
  exact (Text.stripEndBy_isStart ..).length_le

/-- The highlight of a comment that is not tightly closed stops behind the mark and a blank. -/
theorem lt_length_highlightedTail (h : Closed comment front mark blanks)
    (hloose : ¬ ClosedTightly comment) (lead : List Char) :
    lead.length + (front ++ mark).length <
      (highlightedTail (lead ++ comment) (some mark)).length := by
  obtain ⟨left, -, hne, htail⟩ := highlightedTail_of_loose h hloose lead
  have hleft := List.length_pos_iff.mpr hne
  rw [htail]
  simp only [List.length_append]
  omega

/-- How the highlight of an anchor and its text agree about a comment. -/
structure HighlightsComment (text : List Char) (hit : Hit) (comment : List Char)
    (facts : Facts) : Prop where
  stands : comment <+: text.drop (commentStart hit)
  /-- The text leaves out the mark, and then a block at the end. -/
  reads : facts.text = String.ofList
    (Comment.splitTrailingBlock (Comment.splitCloser (Text.strip comment)).1).1
  /-- As much is highlighted, but for blanks, as there is without the mark. -/
  agrees : Text.strip (shownComment text hit facts) = (Comment.splitCloser (Text.strip comment)).1 ↔
    ClosedTightly comment
  /-- The highlight stops in front of the mark, -/
  excluded : ∀ front mark blanks, Closed comment front mark blanks →
    (facts.stop ≤ commentStart hit + front.length ↔ ClosedTightly comment)
  /-- or behind it and a blank. -/
  kept : ∀ front mark blanks, Closed comment front mark blanks → ¬ ClosedTightly comment →
    commentStart hit + (front ++ mark).length < facts.stop

variable {tag : Tag} {starts : List Nat} {showTag found : Bool} {registry : Registry}
  {outline : Outline}

/-- Where the highlight of a comment stops. -/
theorem stop_factsOf (hcomment : hit.comment = some comment) (htag : tag.styleMode ≠ .tag)
    (hfull : tag.styleMode ≠ .full) :
    (factsOf starts showTag tag hit).stop =
      hit.tokenEnd + (highlightedTail hit.tail
        (Comment.splitCloser (Text.strip comment)).2).length := by
  have hcloser : (remarkOf hit).closer = (Comment.splitCloser (Text.strip comment)).2 := by
    rw [← Option.getD_some (a := comment) (b := []), ← hcomment]
    rfl
  rw [← hcloser]
  unfold factsOf span
  dsimp only
  split
  · contradiction
  · contradiction
  · rfl

/-- The comment of a hit, by what the anchor of the hit has for its text and its highlight. -/
theorem highlightsComment_factsOf (h : hit ∈ matcher.hits text)
    (hcomment : hit.comment = some comment) (htag : tag.styleMode ≠ .tag)
    (hfull : tag.styleMode ≠ .full) :
    HighlightsComment text hit comment (factsOf starts showTag tag hit) := by
  have hstop : (factsOf starts showTag tag hit).stop = _ := stop_factsOf hcomment htag hfull
  have hshown := shownComment_eq h hcomment hstop
  have hstart := commentStart_eq hit
  rw [tail_of_comment hcomment] at hstop hshown
  have hkept (front mark blanks : List Char) (hclosed : Closed comment front mark blanks)
      (hloose : ¬ ClosedTightly comment) :
      commentStart hit + (front ++ mark).length < (factsOf starts showTag tag hit).stop := by
    rw [hstop, hclosed.splitCloser_eq, hstart, Nat.add_assoc]
    exact Nat.add_lt_add_left (lt_length_highlightedTail hclosed hloose _) _
  refine ⟨?_, ?_, ?_, fun front mark blanks hclosed => ⟨fun hle => ?_, fun htight => ?_⟩, hkept⟩
  · obtain ⟨before, after, rfl, hbefore⟩ := exists_place_of_comment h hcomment
    rw [hbefore, List.drop_left]
    exact List.prefix_append ..
  · rw [← Option.getD_some (a := comment) (b := []), ← hcomment]
    rfl
  · rw [hshown]
    exact strip_drop_highlightedTail_iff ..
  · by_contra hloose
    have hlt := hkept front mark blanks hclosed hloose
    rw [List.length_append] at hlt
    omega
  · rw [hstop, hclosed.splitCloser_eq, hstart, Nat.add_assoc]
    exact Nat.add_le_add_left (length_highlightedTail_le hclosed htight _) _

/-- In every text, what is highlighted of the comment of an anchor is what the anchor has of it for
its text, if its tag is highlighted with the comment and the comment is closed tightly, and only
then. The mark that closes the comment is highlighted if and only if there is another blank than
spaces and tabs behind it. -/
theorem ofText_highlights_comments
    (h : ofText matcher registry showTag text = .ok (outline, found)) :
    List.Forall₂ (fun occurrence anchor =>
        occurrence.tag.styleMode ≠ .tag → occurrence.tag.styleMode ≠ .full →
          ∀ comment ∈ occurrence.hit.comment,
            HighlightsComment text occurrence.hit comment anchor.facts)
      (occurrences matcher registry text) outline.flatten := by
  have hall : List.Forall₂ (fun occurrence facts =>
      occurrence.tag.styleMode ≠ .tag → occurrence.tag.styleMode ≠ .full →
        ∀ comment ∈ occurrence.hit.comment, HighlightsComment text occurrence.hit comment facts)
      (occurrences matcher registry text) (outline.flatten.map Anchor.facts) := by
    rw [facts_flatten h, List.forall₂_map_right_iff, List.forall₂_same]
    intro occurrence hoccurrence htag hfull comment hcomment
    obtain ⟨hit, hhit, hstart⟩ := List.mem_filterMap.mp hoccurrence
    obtain ⟨tag, -, rfl⟩ := Option.map_eq_some_iff.mp hstart
    exact highlightsComment_factsOf hhit hcomment htag hfull
  rwa [List.forall₂_map_right_iff] at hall

/-- Two comments, one with a tab behind its mark and one with a no-break space. -/
theorem ofText_highlights_comments_tab_and_space :
    let registry := Registry.ofTags [{ name := "NOTE", styleMode := .comment }]
    let matcher : Matcher :=
      { marks := ["<!--", "/*"].map String.toList, tokens := ["NOTE".toList]
        separators := [": ".toList], endTag := "!", matchCase := true }
    let text := "<!-- NOTE: a -->\t\n/* NOTE: b */\u00a0".toList
    ∃ outline, ofText matcher registry true text = .ok (outline, true) ∧
      (occurrences matcher registry text).map (fun occurrence => occurrence.hit.comment) =
        [some "a -->\t".toList, some "b */\u00a0".toList] ∧
      ClosedTightly "a -->\t".toList ∧ ¬ ClosedTightly "b */\u00a0".toList ∧
      List.Forall₂ (fun occurrence anchor =>
          occurrence.tag.styleMode ≠ .tag → occurrence.tag.styleMode ≠ .full →
            ∀ comment ∈ occurrence.hit.comment,
              HighlightsComment text occurrence.hit comment anchor.facts)
        (occurrences matcher registry text) outline.flatten := by
  intro registry matcher text
  let outline : Outline := ((ofText matcher registry true text).toOption.getD default).1
  have hread : ofText matcher registry true text = .ok (outline, true) := by
    decide +kernel
  have hclosed : Closed "a -->\t".toList "a ".toList "-->".toList ['\t'] :=
    ⟨rfl, by decide, List.forall_mem_singleton.mpr (by decide)⟩
  have hclosed' : Closed "b */\u00a0".toList "b ".toList "*/".toList ['\u00a0'] :=
    ⟨rfl, by decide, List.forall_mem_singleton.mpr (by decide)⟩
  have htight : ClosedTightly "a -->\t".toList :=
    hclosed.closedTightly_iff.mpr (List.forall_mem_singleton.mpr (by decide))
  have hloose : ¬ ClosedTightly "b */\u00a0".toList := by
    rw [hclosed'.closedTightly_iff, List.forall_mem_singleton]
    decide
  exact ⟨outline, hread, by decide +kernel, htight, hloose, ofText_highlights_comments hread⟩

/-- A no-break space behind the mark of a comment: the mark is no part of the text, but it is
highlighted. -/
theorem closing_mark_highlighted :
    let tag : Tag := { name := "NOTE", styleMode := .comment }
    let grammar : Matcher.Grammar :=
      { registry := Registry.ofTags [tag], separators := [": "], marks := ["<!--"], endTag := "!"
        matchCase := true }
    let matcher : Matcher :=
      { marks := ["<!--".toList], tokens := ["NOTE".toList], separators := [": ".toList]
        endTag := "!", matchCase := true }
    let text := "<!-- NOTE: a -->\u00a0\n".toList
    let comment := "a -->\u00a0".toList
    ∃ outline hit anchor, grammar.compile = .ok matcher ∧
      ofText matcher grammar.registry true text = .ok (outline, true) ∧
      (occurrences matcher grammar.registry text).map Occurrence.hit = [hit] ∧
      outline.flatten = [anchor] ∧ hit.comment = some comment ∧
      Text.strip (shownComment text hit anchor.facts) = "a -->".toList ∧
      (Comment.splitCloser (Text.strip comment)).1 = "a".toList := by
  intro tag grammar matcher text comment
  let outline : Outline :=
    ((ofText matcher grammar.registry true text).toOption.getD default).1
  let hit : Hit :=
    { start := 0, mark := "<!--".toList, gap := [' '], token := "NOTE".toList, block := none
      separator := ": ".toList, comment := some comment }
  refine ⟨outline, hit, outline.flatten.headD default, by cbv, by decide +kernel,
    by decide +kernel, by decide +kernel, rfl, by decide +kernel, by decide +kernel⟩

end Outline

end CommentIndex
