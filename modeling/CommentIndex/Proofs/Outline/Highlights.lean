import CommentIndex.Proofs.Matcher.Resolution
import CommentIndex.Proofs.Outline.Stepping

/-!
# What is highlighted

An anchor is highlighted from its start to its stop, and how much that is depends on the style of
its tag. The anchors of a text are those of the hits whose tokens start one (`facts_flatten`), so
each is highlighted inside its hit: a tag shows the token alone, and a full highlight goes from the
mark to the end of the line (`highlights_factsOf`). With another style the same hits start the same
anchors, on the same lines, and what a tag shows is inside what a comment shows, which is inside a
full highlight: `ofText_highlights` says all of this of a text.
-/

namespace CommentIndex

/-! ## Tags in one style -/

/-- The tag in another style. -/
def Tag.inStyle (mode : StyleMode) (tag : Tag) : Tag :=
  { tag with styleMode := mode }

/-- The same tags, all in one style. -/
def Registry.inStyle (mode : StyleMode) (registry : Registry) : Registry :=
  ⟨⟨registry.tags.entries.map fun (key, tag) => (key, tag.inStyle mode)⟩⟩

namespace Registry

variable (mode : StyleMode) (registry : Registry)

/-- A name has the same tag, in the other style. -/
theorem find?_inStyle (name : String) :
    (registry.inStyle mode).find? name = (registry.find? name).map (Tag.inStyle mode) := by
  show KeyedList.findIn? _ (registry.tags.entries.map _) =
    (KeyedList.findIn? _ registry.tags.entries).map _
  induction registry.tags.entries with
  | nil => rfl
  | cons entry rest ih =>
      rw [List.map_cons, KeyedList.findIn?, KeyedList.findIn?, ih]
      split <;> rfl

/-- The tags are the same, in the other style. -/
theorem toList_inStyle :
    (registry.inStyle mode).toList = registry.toList.map (Tag.inStyle mode) := by
  show (registry.tags.entries.map _).map _ = (registry.tags.entries.map _).map _
  rw [List.map_map, List.map_map]
  rfl

end Registry

namespace Matcher

variable (mode : StyleMode) (registry : Registry)

/-- The style makes no difference to what is searched for. -/
theorem compile_inStyle (grammar : Grammar) :
    { grammar with registry := grammar.registry.inStyle mode }.compile = grammar.compile := by
  have hnames : (grammar.registry.inStyle mode).names = grammar.registry.names := by
    rw [Registry.names, Registry.toList_inStyle, List.map_map]
    rfl
  have hends : (grammar.registry.inStyle mode).endTokens grammar.endTag =
      grammar.registry.endTokens grammar.endTag := by
    rw [Registry.endTokens, Registry.toList_inStyle, List.filter_map, List.map_map]
    rfl
  unfold Grammar.compile Matcher.compile tokensOf
  rw [hnames, hends]

/-- A token starts an anchor of the same tag, in the other style. -/
theorem startTag?_inStyle (matcher : Matcher) (token : List Char) :
    matcher.startTag? (registry.inStyle mode) token =
      (matcher.startTag? registry token).map (Tag.inStyle mode) := by
  rw [startTag?, startTag?, Registry.find?_inStyle, Option.filter_map]
  rfl

/-- A token can be read with the other style if it can be read. -/
theorem read_inStyle (matcher : Matcher) (token : List Char) :
    matcher.read (registry.inStyle mode) token =
      (matcher.read registry token).map fun reading =>
        ⟨reading.tag.inStyle mode, reading.closes⟩ := by
  have hend : matcher.endTag? (registry.inStyle mode) token =
      (matcher.endTag? registry token).map (Tag.inStyle mode) := by
    rw [endTag?, endTag?, Registry.find?_inStyle]
    split
    · exact Option.filter_map ..
    · rfl
  rw [read, read, startTag?_inStyle, hend]
  cases matcher.startTag? registry token with
  | some tag => rfl
  | none => cases matcher.endTag? registry token <;> rfl

end Matcher

namespace Outline

variable {matcher : Matcher} {registry : Registry} {showTag found : Bool} {text : List Char}
  {grammar : Matcher.Grammar} {outline : Outline} {events : List Event} {hit : Hit} {tag : Tag}

/-! ## Occurrences -/

/-- A hit that starts an anchor, and the tag of that. -/
structure Occurrence where
  hit : Hit
  tag : Tag

/-- The hits of a text that start an anchor. -/
def occurrences (matcher : Matcher) (registry : Registry) (text : List Char) : List Occurrence :=
  (matcher.hits text).filterMap fun hit =>
    (matcher.startTag? registry hit.token).map (Occurrence.mk hit)

/-- What the anchor of an occurrence in a text says. -/
def Occurrence.facts (text : List Char) (showTag : Bool) (occurrence : Occurrence) : Facts :=
  factsOf (Text.lineStarts text) showTag occurrence.tag occurrence.hit

/-- The same occurrence of the tag in another style. -/
def Occurrence.inStyle (mode : StyleMode) (occurrence : Occurrence) : Occurrence :=
  ⟨occurrence.hit, occurrence.tag.inStyle mode⟩

/-- A hit is an anchor with what it says of its tag, if its token starts one. -/
theorem facts?_eventOf {starts : List Nat} {event : Event}
    (h : eventOf matcher registry starts showTag hit = .ok event) :
    event.facts? =
      (matcher.startTag? registry hit.token).map (factsOf starts showTag · hit) := by
  unfold eventOf Matcher.read at h
  cases hstart : matcher.startTag? registry hit.token with
  | some tag =>
      rw [hstart] at h
      obtain rfl := Except.ok.inj h
      rfl
  | none =>
      rw [hstart] at h
      cases hend : matcher.endTag? registry hit.token with
      | some region =>
          rw [hend] at h
          obtain rfl := Except.ok.inj h
          rfl
      | none =>
          rw [hend] at h
          contradiction

/-- What is chosen of results is what is chosen of the items that they come from. -/
theorem filterMap_of_forall₂ {α β γ : Type} {related : α → β → Prop} {items : List α}
    {results : List β} {choose : α → Option γ} {choose' : β → Option γ}
    (h : List.Forall₂ related items results)
    (hsame : ∀ item result, related item result → choose' result = choose item) :
    results.filterMap choose' = items.filterMap choose := by
  induction h with
  | nil => rfl
  | cons hitem _ ih => rw [List.filterMap_cons, List.filterMap_cons, hsame _ _ hitem, ih]

/-- The anchors of a text, in order, are those of its occurrences. -/
theorem facts_flatten (h : ofText matcher registry showTag text = .ok (outline, found)) :
    outline.flatten.map Anchor.facts =
      (occurrences matcher registry text).map (Occurrence.facts text showTag) := by
  obtain ⟨events, hevents, rfl, -⟩ := ofText_eq_ok_iff.mp h
  rw [(reads_ofEvents events).facts, occurrences, List.map_filterMap]
  refine filterMap_of_forall₂ (forall₂_of_mapM hevents) fun hit event hhit => ?_
  rw [facts?_eventOf hhit, Option.map_map]
  rfl

/-- With its tags in another style a text has the same occurrences, in that style. -/
theorem occurrences_inStyle (mode : StyleMode) :
    occurrences matcher (registry.inStyle mode) text =
      (occurrences matcher registry text).map (Occurrence.inStyle mode) := by
  rw [occurrences, occurrences, List.map_filterMap]
  refine List.filterMap_congr fun hit _ => ?_
  rw [Matcher.startTag?_inStyle, Option.map_map, Option.map_map]
  rfl

/-- If all items can be read in one way, and each that can in another one as well, then all can be
read in that way too. -/
theorem exists_mapM_eq_ok {α β ε : Type} {read read' : α → Except ε β} {items : List α}
    {results : List β} (h : items.mapM read = .ok results)
    (hread : ∀ item result, read item = .ok result → ∃ other, read' item = .ok other) :
    ∃ others, items.mapM read' = .ok others ∧ others.isEmpty = results.isEmpty := by
  have hitems := forall₂_of_mapM h
  clear h
  induction hitems with
  | nil => exact ⟨[], rfl, rfl⟩
  | cons hitem _ ih =>
      obtain ⟨other, hother⟩ := hread _ _ hitem
      obtain ⟨others, hothers, -⟩ := ih
      refine ⟨other :: others, ?_, rfl⟩
      rw [List.mapM_cons, hother, hothers]
      rfl

/-- A text that has an outline has one with its tags in another style. -/
theorem exists_ofText_inStyle (h : ofText matcher registry showTag text = .ok (outline, found))
    (mode : StyleMode) :
    ∃ other, ofText matcher (registry.inStyle mode) showTag text = .ok (other, found) := by
  obtain ⟨events, hevents, -, hfound⟩ := ofText_eq_ok_iff.mp h
  have hevent (hit : Hit) (event : Event)
      (hhit : eventOf matcher registry (Text.lineStarts text) showTag hit = .ok event) :
      ∃ other, eventOf matcher (registry.inStyle mode) (Text.lineStarts text) showTag hit =
        .ok other := by
    unfold eventOf at hhit ⊢
    rw [Matcher.read_inStyle]
    cases hread : matcher.read registry hit.token with
    | error error =>
        rw [hread] at hhit
        contradiction
    | ok reading => exact ⟨_, rfl⟩
  obtain ⟨others, hothers, hempty⟩ := exists_mapM_eq_ok hevents hevent
  exact ⟨ofEvents others, ofText_eq_ok_iff.mpr ⟨others, hothers, rfl, by rw [hempty, hfound]⟩⟩

/-! ## Stretches of a text -/

/-- What is highlighted of a text for an anchor. -/
def shown (text : List Char) (facts : Facts) : List Char :=
  (text.drop facts.start).take (facts.stop - facts.start)

/-- A hit has its place in a text: no end of a line is in it, but one is behind it, or the end of
the text, and its mark is one of the grammar. -/
structure Lies (grammar : Matcher.Grammar) (text : List Char) (hit : Hit)
    (before after : List Char) : Prop where
  eq : text = before ++ (hit.text ++ after)
  start : hit.start = before.length
  inside : Matcher.OneLine hit.text
  ends : Matcher.atLineEnd after = true
  mark : ∃ literal, grammar.IsMark literal ∧
    Matcher.Spells grammar.matchCase literal.toList hit.mark

/-- Every hit of a text has its place there. -/
theorem exists_lies_of_mem_hits (htries : matcher.Tries grammar) (hmatcher : matcher.InLine)
    (h : hit ∈ matcher.hits text) : ∃ before after, Lies grammar text hit before after := by
  obtain ⟨before, after, ⟨skipped, reading⟩, hline, hfits, rfl, -⟩ :=
    Matcher.exists_layout_of_mem_hits htries hmatcher h
  have htext : (reading.hit (before.length + skipped.length)).text = reading.text :=
    reading.text_hit _
  refine ⟨before ++ skipped, after, ?_, ?_, ?_, hline.ends, hfits.mark⟩
  · show text = before ++ skipped ++ ((reading.hit _).text ++ after)
    rw [htext, hline.eq, Matcher.Layout.text, List.append_assoc, List.append_assoc]
  · exact (List.length_append ..).symm
  · show Matcher.OneLine (reading.hit _).text
    rw [htext]
    exact hline.inside.of_append_right

/-- What stands between two offsets is what is highlighted between them. -/
theorem shown_eq {facts : Facts} {before middle after : List Char}
    (hstart : facts.start = before.length) (hstop : facts.stop = before.length + middle.length) :
    shown (before ++ (middle ++ after)) facts = middle := by
  rw [shown, hstart, hstop, List.drop_left, Nat.add_sub_cancel_left, List.take_left]

namespace Lies

variable {before after : List Char}

/-- The pieces of the text around the token of a hit. -/
theorem eq_token (h : Lies grammar text hit before after) :
    text = (before ++ (hit.mark ++ hit.gap)) ++ (hit.token ++ (hit.tail ++ after)) := by
  rw [h.eq, Hit.text]
  simp only [List.append_assoc]

/-- Where the token of a hit starts. -/
theorem tokenStart_eq (h : Lies grammar text hit before after) :
    hit.tokenStart = (before ++ (hit.mark ++ hit.gap)).length := by
  rw [Hit.tokenStart, h.start, List.length_append, List.length_append, Nat.add_assoc]

/-- From where the token of a hit starts to where it ends, the token is highlighted. -/
theorem shown_token (h : Lies grammar text hit before after) (facts : Facts)
    (hstart : facts.start = hit.tokenStart) (hstop : facts.stop = hit.tokenEnd) :
    shown text facts = hit.token := by
  conv_lhs => rw [h.eq_token]
  refine shown_eq (hstart.trans h.tokenStart_eq) ?_
  rw [← h.tokenStart_eq]
  exact hstop

/-- From where a hit starts to where it stops, all of it is highlighted, up to what is behind it. -/
theorem shown_hit (h : Lies grammar text hit before after) (facts : Facts)
    (hstart : facts.start = hit.start) (hstop : facts.stop = hit.stop) :
    shown text facts = hit.text ∧ text.drop facts.stop = after := by
  have hlast : facts.stop = before.length + hit.text.length := by
    rw [hstop, hit.stop_eq, h.start]
  constructor
  · conv_lhs => rw [h.eq]
    exact shown_eq (hstart.trans h.start) hlast
  · rw [hlast, h.eq, ← List.append_assoc, ← List.length_append, List.drop_left]

/-- The token of a hit is on the line on which the hit starts. -/
theorem lineOf_tokenStart (h : Lies grammar text hit before after) :
    Text.lineOf (Text.lineStarts text) hit.tokenStart =
      Text.lineOf (Text.lineStarts text) hit.start := by
  have htext : text = before ++ ((hit.mark ++ hit.gap) ++ (hit.token ++ (hit.tail ++ after))) := by
    rw [h.eq_token, List.append_assoc]
  have hinside : ∀ c ∈ hit.mark ++ hit.gap, c ≠ '\r' ∧ c ≠ '\n' := by
    intro c hc
    have hend := h.inside c (List.mem_append_left _ (List.mem_append_left _ hc))
    constructor <;> rintro rfl <;> exact absurd hend (by decide)
  rw [h.tokenStart_eq, h.start, List.length_append]
  conv_lhs => rw [htext]
  conv_rhs => rw [htext]
  exact Text.lineOf_eq_of_noLineEnd hinside

end Lies

/-! ## Highlights of occurrences -/

/-- What is highlighted of an anchor: the token alone, which spells the name of its tag, or
everything from a mark to the end of the line, depending on the style of the tag. -/
structure Highlights (grammar : Matcher.Grammar) (matcher : Matcher) (registry : Registry)
    (text : List Char) (occurrence : Occurrence) (facts : Facts) : Prop where
  hit : occurrence.hit ∈ matcher.hits text
  known : registry.find? (String.ofList occurrence.hit.token) = some occurrence.tag
  spelled : matcher.sameSpelling occurrence.tag.name.toList occurrence.hit.token = true
  named : facts.tag = occurrence.tag.name
  ofTag : occurrence.tag.styleMode = .tag →
    facts.start = occurrence.hit.tokenStart ∧ shown text facts = occurrence.hit.token
  full : occurrence.tag.styleMode = .full →
    facts.start = occurrence.hit.start ∧ occurrence.hit.mark <+: shown text facts ∧
      (∃ literal, grammar.IsMark literal ∧
        Matcher.Spells grammar.matchCase literal.toList occurrence.hit.mark) ∧
      Matcher.OneLine (shown text facts) ∧ Matcher.atLineEnd (text.drop facts.stop) = true

/-- The highlight of one anchor is inside that of another one on the same line, which agrees with it
in everything else. -/
structure Within (inner outer : Facts) : Prop where
  start : outer.start ≤ inner.start
  stop : inner.stop ≤ outer.stop
  line : inner.line = outer.line
  same : { inner with start := outer.start, stop := outer.stop } = outer

/-- The anchor of a hit is highlighted by the style of its tag. -/
theorem highlights_factsOf (htries : matcher.Tries grammar) (hmatcher : matcher.InLine)
    {occurrence : Occurrence} (h : occurrence ∈ occurrences matcher registry text) :
    Highlights grammar matcher registry text occurrence (occurrence.facts text showTag) := by
  obtain ⟨hit, hhit, hstart⟩ := List.mem_filterMap.mp h
  obtain ⟨tag, htag, rfl⟩ := Option.map_eq_some_iff.mp hstart
  obtain ⟨hknown, hspelled⟩ := Option.filter_eq_some_iff.mp htag
  obtain ⟨before, after, hlies⟩ := exists_lies_of_mem_hits htries hmatcher hhit
  refine ⟨hhit, hknown, hspelled, rfl, fun hstyle => ?_, fun hstyle => ?_⟩
  · have hspan : span tag.styleMode hit (remarkOf hit).closer = (hit.tokenStart, hit.tokenEnd) := by
      rw [hstyle]
      rfl
    exact ⟨congrArg Prod.fst hspan,
      hlies.shown_token _ (congrArg Prod.fst hspan) (congrArg Prod.snd hspan)⟩
  · have hspan : span tag.styleMode hit (remarkOf hit).closer = (hit.start, hit.stop) := by
      rw [hstyle]
      rfl
    obtain ⟨hshown, hbehind⟩ := hlies.shown_hit
      (factsOf (Text.lineStarts text) showTag tag hit)
      (congrArg Prod.fst hspan) (congrArg Prod.snd hspan)
    refine ⟨congrArg Prod.fst hspan, ?_, hlies.mark, ?_, ?_⟩
    · show hit.mark <+: shown text (factsOf ..)
      rw [hshown, Hit.text, List.append_assoc, List.append_assoc]
      exact List.prefix_append ..
    · show Matcher.OneLine (shown text (factsOf ..))
      rw [hshown]
      exact hlies.inside
    · show Matcher.atLineEnd (text.drop (factsOf ..).stop) = true
      rw [hbehind]
      exact hlies.ends

/-- If the highlight of one style is inside that of another for a hit, on the same line, then so is
that of its anchor. -/
theorem within_inStyle {mode mode' : StyleMode} {starts : List Nat} (tag : Tag)
    (hstart : (span mode' hit (remarkOf hit).closer).1 ≤ (span mode hit (remarkOf hit).closer).1)
    (hstop : (span mode hit (remarkOf hit).closer).2 ≤ (span mode' hit (remarkOf hit).closer).2)
    (hline : Text.lineOf starts (span mode hit (remarkOf hit).closer).1 =
      Text.lineOf starts (span mode' hit (remarkOf hit).closer).1) :
    Within (factsOf starts showTag (tag.inStyle mode) hit)
      (factsOf starts showTag (tag.inStyle mode') hit) := by
  refine ⟨hstart, hstop, hline, ?_⟩
  simp only [factsOf, Tag.inStyle, hline]
  rfl

/-- A tag shows no more than a comment does, and a comment no more than a full highlight. -/
theorem within_of_mem_occurrences (htries : matcher.Tries grammar) (hmatcher : matcher.InLine)
    {occurrence : Occurrence} (h : occurrence ∈ occurrences matcher registry text) :
    Within ((occurrence.inStyle .tag).facts text showTag)
        ((occurrence.inStyle .comment).facts text showTag) ∧
      Within ((occurrence.inStyle .comment).facts text showTag)
        ((occurrence.inStyle .full).facts text showTag) := by
  obtain ⟨hit, hhit, hstart⟩ := List.mem_filterMap.mp h
  obtain ⟨tag, -, rfl⟩ := Option.map_eq_some_iff.mp hstart
  obtain ⟨before, after, hlies⟩ := exists_lies_of_mem_hits htries hmatcher hhit
  obtain ⟨hfirst, -, hlast⟩ := span_mem_hit .comment hit (remarkOf hit).closer
  constructor
  · exact within_inStyle tag (Nat.le_refl _) (Nat.le_add_right ..) rfl
  · exact within_inStyle tag hfirst hlast hlies.lineOf_tokenStart

/-- The hits that start anchors lie one behind the other, with the start of a line in between. -/
theorem pairwise_occurrences (htries : matcher.Tries grammar) (hmatcher : matcher.InLine) :
    (occurrences matcher registry text).Pairwise fun first second =>
      first.hit.stop < second.hit.start := by
  refine (List.Pairwise.and_mem.mp (matcher.pairwise_hits text)).filterMap _ ?_
  rintro first second ⟨hfirst, hsecond, horder⟩ occurrence hoccurrence other hother
  obtain ⟨tag, -, rfl⟩ := Option.map_eq_some_iff.mp hoccurrence
  obtain ⟨tag', -, rfl⟩ := Option.map_eq_some_iff.mp hother
  obtain ⟨start, -, hstop, hnext⟩ :=
    Matcher.exists_lineStart_between htries hmatcher hfirst hsecond horder
  exact Nat.lt_of_lt_of_le hstop hnext

/-- What is highlighted for the anchors of a text lies one behind the other. -/
theorem pairwise_flatten (htries : matcher.Tries grammar) (hmatcher : matcher.InLine)
    (h : ofText matcher registry showTag text = .ok (outline, found)) :
    outline.flatten.Pairwise fun first second => first.facts.stop < second.facts.start := by
  have hoccurrences : ((occurrences matcher registry text).map
      (Occurrence.facts text showTag)).Pairwise
        fun first second => first.stop < second.start := by
    rw [List.pairwise_map]
    refine (pairwise_occurrences htries hmatcher).imp fun {first second} hlt => ?_
    have hfirst := span_mem_hit first.tag.styleMode first.hit (remarkOf first.hit).closer
    have hsecond := span_mem_hit second.tag.styleMode second.hit (remarkOf second.hit).closer
    exact Nat.lt_of_le_of_lt hfirst.2.2 (Nat.lt_of_lt_of_le hlt hsecond.1)
  rwa [← facts_flatten h, List.pairwise_map] at hoccurrences

/-! ## Highlights of a text -/

/-- Anchors and end tags lie in their text. -/
theorem stop_le_of_mem_tell (htries : matcher.Tries grammar) (hmatcher : matcher.InLine)
    (hevents : eventsOf matcher registry showTag text = .ok events) {anchor : Anchor}
    (hanchor : anchor ∈ (ofEvents events).flatten) {piece : Piece}
    (hpiece : piece ∈ anchor.tell Anchor.pieces) :
    piece.start ≤ piece.stop ∧ piece.stop ≤ text.length := by
  obtain ⟨event, hevent, rfl⟩ := exists_event_of_mem_tell hanchor hpiece
  obtain ⟨hit, hmem, hhit⟩ := exists_of_forall₂ (forall₂_of_mapM hevents) hevent
  have hin := piece_eventOf hhit
  exact ⟨hin.ordered, hin.stop.trans (Matcher.stop_le_of_mem_hits htries hmatcher hmem)⟩

/-- The anchors of two outlines of a text agree in what the occurrences of the text say. -/
theorem forall₂_flatten {mode mode' : StyleMode} {inner outer : Outline} {found' : Bool}
    {related : Facts → Facts → Prop}
    (hinner : ofText matcher (registry.inStyle mode) showTag text = .ok (inner, found))
    (houter : ofText matcher (registry.inStyle mode') showTag text = .ok (outer, found'))
    (hrelated : ∀ occurrence ∈ occurrences matcher registry text,
      related ((occurrence.inStyle mode).facts text showTag)
        ((occurrence.inStyle mode').facts text showTag)) :
    List.Forall₂ (fun first second => related first.facts second.facts)
      inner.flatten outer.flatten := by
  have hfacts := facts_flatten hinner
  have hfacts' := facts_flatten houter
  rw [occurrences_inStyle, List.map_map] at hfacts hfacts'
  have hall : List.Forall₂ related (inner.flatten.map Anchor.facts)
      (outer.flatten.map Anchor.facts) := by
    rw [hfacts, hfacts', List.forall₂_map_left_iff, List.forall₂_map_right_iff, List.forall₂_same]
    exact hrelated
  rwa [List.forall₂_map_left_iff, List.forall₂_map_right_iff] at hall

/-- What is highlighted of a text for its anchors, if no literal of the compiled matcher goes over
the end of a line. All of it lies in the text, and between the highlights of two anchors in order a
line begins. Each anchor comes from a hit of the matcher and is highlighted as the style of its tag
says. In any one style the text has the same anchors, and a tag shows no more of each than a comment
does, and that no more than a full highlight. -/
theorem ofText_highlights (h : grammar.compile = .ok matcher) (hgrammar : grammar.IsOneLine)
    (hread : ofText matcher registry showTag text = .ok (outline, found)) :
    (∀ anchor ∈ outline.flatten,
        (anchor.facts.start ≤ anchor.facts.stop ∧ anchor.facts.stop ≤ text.length) ∧
        ∀ closing ∈ anchor.closing, closing.start ≤ closing.stop ∧ closing.stop ≤ text.length) ∧
      (outline.flatten.Pairwise fun first second => first.facts.stop < second.facts.start) ∧
      List.Forall₂ (fun occurrence anchor =>
          Highlights grammar matcher registry text occurrence anchor.facts)
        (occurrences matcher registry text) outline.flatten ∧
      ∃ styled : StyleMode → Outline,
        (∀ mode, { grammar with registry := grammar.registry.inStyle mode }.compile = .ok matcher ∧
          ofText matcher (registry.inStyle mode) showTag text = .ok (styled mode, found)) ∧
        List.Forall₂ (fun inner outer => Within inner.facts outer.facts)
          (styled .tag).flatten (styled .comment).flatten ∧
        List.Forall₂ (fun inner outer => Within inner.facts outer.facts)
          (styled .comment).flatten (styled .full).flatten := by
  have htries := Matcher.tries_of_compile h
  have hmatcher := hgrammar.inLine htries
  obtain ⟨events, hevents, rfl, -⟩ := ofText_eq_ok_iff.mp hread
  have hfacts := facts_flatten hread
  refine ⟨fun anchor hanchor => ⟨?_, fun closing hclosing => ?_⟩, ?_, ?_, ?_⟩
  · exact stop_le_of_mem_tell htries hmatcher hevents hanchor anchor.ofFacts_mem_pieces
  · exact stop_le_of_mem_tell htries hmatcher hevents hanchor
      (Anchor.ofClosing_mem_pieces hclosing)
  · exact pairwise_flatten htries hmatcher hread
  · have hall : List.Forall₂ (Highlights grammar matcher registry text)
        (occurrences matcher registry text) ((ofEvents events).flatten.map Anchor.facts) := by
      rw [hfacts, List.forall₂_map_right_iff, List.forall₂_same]
      exact fun occurrence => highlights_factsOf htries hmatcher
    rwa [List.forall₂_map_right_iff] at hall
  · choose styled hstyled using exists_ofText_inStyle hread
    refine ⟨styled, fun mode => ⟨(Matcher.compile_inStyle mode grammar).trans h, hstyled mode⟩,
      forall₂_flatten (hstyled _) (hstyled _) fun _ hoccurrence => ?_,
      forall₂_flatten (hstyled _) (hstyled _) fun _ hoccurrence => ?_⟩
    · exact (within_of_mem_occurrences htries hmatcher hoccurrence).1
    · exact (within_of_mem_occurrences htries hmatcher hoccurrence).2

/-- Three tags of three styles, one of them in a comment that is closed. -/
theorem ofText_highlights_three_styles :
    let grammar : Matcher.Grammar :=
      { registry := Registry.ofTags
          [{ name := "T" }, { name := "C", styleMode := .comment },
            { name := "F", styleMode := .full }]
        separators := [": "]
        marks := ["#", "<!--"]
        endTag := "!"
        matchCase := false }
    let matcher : Matcher :=
      { marks := ["<!--", "#"].map String.toList, tokens := ["C", "F", "T"].map String.toList
        separators := [": ".toList], endTag := "!", matchCase := false }
    let text := "a <!-- c: b  -->\r# T: d\n\t# F: e  ".toList
    ∃ outline, ofText matcher grammar.registry true text = .ok (outline, true) ∧
      (outline.flatten.map fun anchor => shown text anchor.facts) =
        ["c: b".toList, "T".toList, "# F: e  ".toList] ∧
      (outline.flatten.Pairwise fun first second => first.facts.stop < second.facts.start) ∧
      ∃ styled : StyleMode → Outline,
        List.Forall₂ (fun inner outer => Within inner.facts outer.facts)
          (styled .tag).flatten (styled .comment).flatten ∧
        List.Forall₂ (fun inner outer => Within inner.facts outer.facts)
          (styled .comment).flatten (styled .full).flatten := by
  intro grammar matcher text
  have hcompile : grammar.compile = .ok matcher := by cbv
  have hgrammar : grammar.IsOneLine :=
    ⟨by decide, by decide, by decide +kernel, by decide⟩
  let outline : Outline := ((ofText matcher grammar.registry true text).toOption.getD default).1
  have hread : ofText matcher grammar.registry true text = .ok (outline, true) := by
    decide +kernel
  obtain ⟨-, horder, -, styled, -, hcomment, hfull⟩ := ofText_highlights hcompile hgrammar hread
  exact ⟨outline, hread, by decide +kernel, horder, styled, hcomment, hfull⟩

end Outline

end CommentIndex
