import CommentIndex.Proofs.Glob.Braces

/-!
# Patterns with alternatives

The well-bracketed texts as the written forms of a syntax: characters and groups in a row, and rows
with commas between them (`wellBracketed_iff`). On the syntax, `next?` replaces the leftmost
innermost group by each of its alternatives. That is what replacing the leftmost innermost pair does
to the written form (`Pattern.unfolded_text`), so what is shown of patterns by `unfold_induction` is
shown along the steps of `expandBraces` (`Patterns.expandBraces_text`).
-/

namespace CommentIndex.Glob

/-- The characters that stand for themselves everywhere. -/
def Literal : Type :=
  { c : Char // isBrace c = false ∧ c ≠ ',' }

mutual

/-- Characters and groups in a row, with no comma between them. -/
inductive Pattern where
  | nil
  | literal (c : Literal) (rest : Pattern)
  /-- A pair of braces with alternatives inside. -/
  | group (alternatives : Patterns) (rest : Pattern)

/-- Patterns with commas between them. Inside a pair of braces they are alternatives. At the top
each comma stands for itself. -/
inductive Patterns where
  | last (pattern : Pattern)
  | more (pattern : Pattern) (others : Patterns)

end

mutual

/-- The written form of a pattern. -/
def Pattern.text : Pattern → List Char
  | .nil => []
  | .literal c rest => c.val :: rest.text
  | .group alternatives rest => openBrace :: (alternatives.text ++ closeBrace :: rest.text)
termination_by structural pattern => pattern

/-- The written form of patterns with commas between them. -/
def Patterns.text : Patterns → List Char
  | .last pattern => pattern.text
  | .more pattern others => pattern.text ++ ',' :: others.text
termination_by structural patterns => patterns

end

/-- The patterns in order. -/
def Patterns.toList : Patterns → List Pattern
  | .last pattern => [pattern]
  | .more pattern others => pattern :: others.toList

/-- One pattern behind another. -/
def Pattern.append : Pattern → Pattern → Pattern
  | .nil, second => second
  | .literal c rest, second => .literal c (rest.append second)
  | .group alternatives rest, second => .group alternatives (rest.append second)

mutual

/-- The patterns that come out of one when its leftmost innermost group is replaced by each of its
alternatives, if there is a group. -/
def Pattern.next? : Pattern → Option (List Pattern)
  | .nil => none
  | .literal c rest => rest.next?.map fun next => next.map (.literal c)
  | .group alternatives rest =>
    match alternatives.next? with
    | some next => some (next.map fun alternatives => .group alternatives rest)
    | none => some (alternatives.toList.map fun alternative => alternative.append rest)
termination_by structural pattern => pattern

/-- What comes out of several patterns when the leftmost innermost group is replaced. -/
def Patterns.next? : Patterns → Option (List Patterns)
  | .last pattern => pattern.next?.map fun next => next.map .last
  | .more pattern others =>
    match pattern.next? with
    | some next => some (next.map fun pattern => .more pattern others)
    | none => others.next?.map fun next => next.map (.more pattern)
termination_by structural patterns => patterns

end

/-! ## Whether there is a group, and what comes out of it -/

section Unfolding

variable {c : Literal} {pattern rest : Pattern} {alternatives others : Patterns}

theorem Pattern.next?_literal_eq_none :
    (Pattern.literal c rest).next? = none ↔ rest.next? = none :=
  Option.map_eq_none_iff

theorem Pattern.next?_group_ne_none : (Pattern.group alternatives rest).next? ≠ none := by
  rw [Pattern.next?]
  cases alternatives.next? <;> exact Option.some_ne_none _

theorem Patterns.next?_last_eq_none :
    (Patterns.last pattern).next? = none ↔ pattern.next? = none :=
  Option.map_eq_none_iff

theorem Patterns.next?_more_eq_none :
    (Patterns.more pattern others).next? = none ↔
      pattern.next? = none ∧ others.next? = none := by
  rw [Patterns.next?]
  cases pattern.next? <;> simp

theorem Pattern.next?_literal_eq_some {next : List Pattern} :
    (Pattern.literal c rest).next? = some next ↔
      ∃ behind, rest.next? = some behind ∧ behind.map (.literal c) = next :=
  Option.map_eq_some_iff

/-- In a group the groups inside come first. -/
theorem Pattern.next?_group_eq_some {next : List Pattern} :
    (Pattern.group alternatives rest).next? = some next ↔
      (∃ inside, alternatives.next? = some inside ∧
        (inside.map fun alternatives => Pattern.group alternatives rest) = next) ∨
      (alternatives.next? = none ∧
        (alternatives.toList.map fun alternative => alternative.append rest) = next) := by
  rw [Pattern.next?]
  cases alternatives.next? <;> simp

theorem Patterns.next?_last_eq_some {next : List Patterns} :
    (Patterns.last pattern).next? = some next ↔
      ∃ inside, pattern.next? = some inside ∧ inside.map .last = next :=
  Option.map_eq_some_iff

/-- Of several patterns those on the left come first. -/
theorem Patterns.next?_more_eq_some {next : List Patterns} :
    (Patterns.more pattern others).next? = some next ↔
      (∃ inside, pattern.next? = some inside ∧
        (inside.map fun pattern => Patterns.more pattern others) = next) ∨
      (pattern.next? = none ∧
        ∃ behind, others.next? = some behind ∧ behind.map (.more pattern) = next) := by
  rw [Patterns.next?]
  cases pattern.next? <;> simp

end Unfolding

/-! ## The written form -/

/-- One pattern behind another is written behind it. -/
theorem Pattern.text_append (pattern second : Pattern) :
    (pattern.append second).text = pattern.text ++ second.text := by
  cases pattern with
  | nil => rfl
  | literal c rest => rw [append, Pattern.text, Pattern.text, rest.text_append, List.cons_append]
  | group alternatives rest =>
      rw [append, Pattern.text, Pattern.text, rest.text_append, List.cons_append,
        List.append_assoc, List.cons_append]

mutual

/-- The first brace of a pattern is an opening one, if there is a group at all. -/
theorem Pattern.find?_text (pattern : Pattern) :
    pattern.text.find? isBrace = pattern.next?.map fun _ => openBrace := by
  cases pattern with
  | nil => rfl
  | literal c rest =>
      rw [Pattern.text, Pattern.next?, List.find?_cons_of_neg (by simp [c.property.1]),
        rest.find?_text, Option.map_map]
      rfl
  | group alternatives rest =>
      rw [Pattern.text, List.find?_cons_of_pos isBrace_openBrace, Pattern.next?]
      cases alternatives.next? <;> rfl

/-- The first brace of several patterns is an opening one, if there is a group at all. -/
theorem Patterns.find?_text (patterns : Patterns) :
    patterns.text.find? isBrace = patterns.next?.map fun _ => openBrace := by
  cases patterns with
  | last pattern =>
      rw [Patterns.text, Patterns.next?, pattern.find?_text, Option.map_map]
      rfl
  | more pattern others =>
      rw [Patterns.text, Patterns.next?, List.find?_append, pattern.find?_text,
        List.find?_cons_of_neg (by decide), others.find?_text]
      cases pattern.next? with
      | some next => rfl
      | none => cases others.next? <;> rfl

end

/-- A pattern without groups has no braces. -/
theorem Pattern.braceFree_text {pattern : Pattern} (h : pattern.next? = none) :
    BraceFree pattern.text := by
  rw [← find?_isBrace_eq_none_iff, pattern.find?_text, h]
  rfl

/-- Patterns without groups have no braces. -/
theorem Patterns.braceFree_text {patterns : Patterns} (h : patterns.next? = none) :
    BraceFree patterns.text := by
  rw [← find?_isBrace_eq_none_iff, patterns.find?_text, h]
  rfl

/-- There is no comma in a pattern without groups. -/
theorem Pattern.comma_notMem_text {pattern : Pattern} (h : pattern.next? = none) :
    ',' ∉ pattern.text := by
  cases pattern with
  | nil => exact List.not_mem_nil
  | literal c rest =>
      rw [Pattern.text, List.mem_cons, not_or]
      exact ⟨c.property.2.symm, rest.comma_notMem_text (next?_literal_eq_none.mp h)⟩
  | group alternatives rest => exact absurd h next?_group_ne_none

/-- Patterns without groups are cut at the commas between them. -/
theorem Patterns.splitAtEach_text {patterns : Patterns} (h : patterns.next? = none) :
    Text.splitAtEach ',' patterns.text = patterns.toList.map Pattern.text := by
  cases patterns with
  | last pattern =>
      exact Text.splitAtEach_of_notMem (pattern.comma_notMem_text (next?_last_eq_none.mp h))
  | more pattern others =>
      obtain ⟨hpattern, hothers⟩ := next?_more_eq_none.mp h
      rw [Patterns.text, Text.splitAtEach_append (pattern.comma_notMem_text hpattern),
        others.splitAtEach_text hothers]
      rfl

/-- What comes out of the written form of a pattern when its leftmost innermost pair is replaced by
each of its options. -/
def Unfolded (text : List Char) (next : List (List Char)) : Prop :=
  ∃ head inner tail, innermost? text = some (head, inner, tail) ∧
    next = (Text.splitAtEach ',' inner).map fun option => head ++ option ++ tail

/-- The same comes out between a text without braces and any other. -/
theorem Unfolded.between {text : List Char} {next : List (List Char)} (h : Unfolded text next)
    {before : List Char} (hbefore : BraceFree before) (behind : List Char) :
    Unfolded (before ++ text ++ behind) (next.map fun text => before ++ text ++ behind) := by
  obtain ⟨head, inner, tail, hfound, rfl⟩ := h
  refine ⟨before ++ head, inner, tail ++ behind, ?_, ?_⟩
  · rw [List.append_assoc, innermost?_behind hbefore, innermost?_append hfound]
    rfl
  · simp

mutual

/-- What comes out of a pattern when its leftmost innermost group is replaced is what comes out of
its written form when the leftmost innermost pair is. -/
theorem Pattern.unfolded_text (pattern : Pattern) {next : List Pattern}
    (h : pattern.next? = some next) : Unfolded pattern.text (next.map Pattern.text) := by
  cases pattern with
  | nil => simp [Pattern.next?] at h
  | literal c rest =>
      obtain ⟨next, hnext, rfl⟩ := Pattern.next?_literal_eq_some.mp h
      have hfree : BraceFree [c.val] := List.forall_mem_singleton.mpr c.property.1
      simpa [Pattern.text, Function.comp_def] using (rest.unfolded_text hnext).between hfree []
  | group alternatives rest =>
      rcases Pattern.next?_group_eq_some.mp h with ⟨inside, hinside, rfl⟩ | ⟨hnone, rfl⟩
      · obtain ⟨head, inner, tail, hfound, htexts⟩ := alternatives.unfolded_text hinside
        -- The pair of the group itself is not innermost, as the next brace is an opening one.
        have hfirst : (alternatives.text ++ closeBrace :: rest.text).find? isBrace =
            some openBrace := by
          rw [List.find?_append, alternatives.find?_text, hinside]
          rfl
        have hskip : Skips openBrace (alternatives.text ++ closeBrace :: rest.text) := by
          rw [Skips, hfirst]
          decide
        refine ⟨openBrace :: head, inner, tail ++ closeBrace :: rest.text, ?_, ?_⟩
        · rw [Pattern.text, innermost?_skip hskip, innermost?_append hfound]
          rfl
        · have hgroup := congrArg
            (List.map fun text => openBrace :: (text ++ closeBrace :: rest.text)) htexts
          simpa [Pattern.text, Function.comp_def] using hgroup
      · refine ⟨[], alternatives.text, rest.text, ?_, ?_⟩
        · exact innermost?_pair (alternatives.braceFree_text hnone) _
        · rw [alternatives.splitAtEach_text hnone]
          simp [Pattern.text_append]

/-- The same for several patterns. -/
theorem Patterns.unfolded_text (patterns : Patterns) {next : List Patterns}
    (h : patterns.next? = some next) : Unfolded patterns.text (next.map Patterns.text) := by
  cases patterns with
  | last pattern =>
      obtain ⟨inside, hinside, rfl⟩ := Patterns.next?_last_eq_some.mp h
      simpa [Patterns.text, Function.comp_def] using pattern.unfolded_text hinside
  | more pattern others =>
      rcases Patterns.next?_more_eq_some.mp h with
        ⟨inside, hinside, rfl⟩ | ⟨hnone, behind, hbehind, rfl⟩
      · have hfree : BraceFree [] := List.forall_mem_nil _
        simpa [Patterns.text, Function.comp_def] using
          (pattern.unfolded_text hinside).between hfree (',' :: others.text)
      · have hfree : BraceFree (pattern.text ++ [',']) :=
          List.forall_mem_append.mpr
            ⟨pattern.braceFree_text hnone, List.forall_mem_singleton.mpr rfl⟩
        simpa [Patterns.text, Function.comp_def] using
          (others.unfolded_text hbehind).between hfree []

end

/-- Something comes out, as there is at least one option. -/
theorem Unfolded.ne_nil {text : List Char} {next : List (List Char)} (h : Unfolded text next) :
    next ≠ [] := by
  obtain ⟨head, inner, tail, -, rfl⟩ := h
  exact fun hnil => Text.splitAtEach_ne_nil ',' inner (List.map_eq_nil_iff.mp hnil)

/-- Something comes out of a pattern with a group. -/
theorem Pattern.next?_ne_nil {pattern : Pattern} {next : List Pattern}
    (h : pattern.next? = some next) : next ≠ [] :=
  fun hnil => (pattern.unfolded_text h).ne_nil (List.map_eq_nil_iff.mpr hnil)

/-- Something comes out of several patterns with a group. -/
theorem Patterns.next?_ne_nil {patterns : Patterns} {next : List Patterns}
    (h : patterns.next? = some next) : next ≠ [] :=
  fun hnil => (patterns.unfolded_text h).ne_nil (List.map_eq_nil_iff.mpr hnil)

/-- A pattern that comes out of several has one pair less in its written form. -/
theorem Patterns.unfolds_text {patterns second : Patterns} {next : List Patterns}
    (h : patterns.next? = some next) (hsecond : second ∈ next) :
    Unfolds second.text patterns.text := by
  obtain ⟨head, inner, tail, hfound, htexts⟩ := patterns.unfolded_text h
  have hmem : second.text ∈ next.map Patterns.text := List.mem_map_of_mem hsecond
  rw [htexts] at hmem
  obtain ⟨option, hoption, htext⟩ := List.mem_map.mp hmem
  exact ⟨head, inner, tail, hfound, option, hoption, htext.symm⟩

/-- What holds of patterns if it holds of all that come out of them holds of all patterns. -/
theorem Patterns.unfold_induction {motive : Patterns → Prop}
    (step : ∀ patterns, (∀ next, patterns.next? = some next → ∀ second ∈ next, motive second) →
      motive patterns) (patterns : Patterns) : motive patterns := by
  induction h : patterns.text using unfolds_wellFounded.induction generalizing patterns with
  | _ text ih =>
      subst h
      exact step patterns fun next hnext second hsecond =>
        ih second.text (unfolds_text hnext hsecond) second rfl

/-- The written form of patterns stands for what the written forms stand for that come out of them,
and for itself if there is no group. -/
theorem Patterns.expandBraces_text (patterns : Patterns) :
    expandBraces patterns.text =
      match patterns.next? with
      | none => [patterns.text]
      | some next => next.flatMap fun second => expandBraces second.text := by
  rw [expandBraces_eq]
  cases hnext : patterns.next? with
  | none =>
      have hfound : innermost? patterns.text = none :=
        innermost?_of_count_eq_zero (patterns.braceFree_text hnext).count_eq_zero
      rw [hfound]
  | some next =>
      obtain ⟨head, inner, tail, hfound, htexts⟩ := patterns.unfolded_text hnext
      rw [hfound]
      calc (Text.splitAtEach ',' inner).flatMap fun option => expandBraces (head ++ option ++ tail)
        _ = ((Text.splitAtEach ',' inner).map fun option => head ++ option ++ tail).flatMap
              expandBraces := (List.flatMap_map ..).symm
        _ = (next.map Patterns.text).flatMap expandBraces := by rw [htexts]
        _ = next.flatMap fun second => expandBraces second.text := List.flatMap_map ..

/-! ## Well-bracketed texts -/

/-- Every opening brace of a text is closed by a later one, and every closing one closes one. -/
inductive WellBracketed : List Char → Prop where
  | nil : WellBracketed []
  | other {c rest} : isBrace c = false → WellBracketed rest → WellBracketed (c :: rest)
  | pair {inner rest} : WellBracketed inner → WellBracketed rest →
      WellBracketed (openBrace :: (inner ++ closeBrace :: rest))

/-- Patterns of which the first one is changed. -/
def Patterns.mapFirst (change : Pattern → Pattern) : Patterns → Patterns
  | .last pattern => .last (change pattern)
  | .more pattern others => .more (change pattern) others

/-- What is put in front of the first pattern is written in front of all. -/
theorem Patterns.text_mapFirst {change : Pattern → Pattern} {before : List Char}
    (h : ∀ pattern, (change pattern).text = before ++ pattern.text) (patterns : Patterns) :
    (patterns.mapFirst change).text = before ++ patterns.text := by
  cases patterns with
  | last pattern => exact h pattern
  | more pattern others => rw [mapFirst, text, text, h, List.append_assoc]

/-- Every well-bracketed text is the written form of patterns. -/
theorem WellBracketed.exists_patterns {text : List Char} (h : WellBracketed text) :
    ∃ patterns : Patterns, patterns.text = text := by
  induction h with
  | nil => exact ⟨.last .nil, rfl⟩
  | @other c rest hc _ ih =>
      obtain ⟨patterns, rfl⟩ := ih
      by_cases hcomma : c = ','
      · exact ⟨.more .nil patterns, by rw [hcomma]; rfl⟩
      · have hfirst (pattern : Pattern) :
            (Pattern.literal ⟨c, hc, hcomma⟩ pattern).text = [c] ++ pattern.text := rfl
        exact ⟨_, patterns.text_mapFirst hfirst⟩
  | pair _ _ ihinner ihrest =>
      obtain ⟨alternatives, rfl⟩ := ihinner
      obtain ⟨patterns, rfl⟩ := ihrest
      have hfirst (pattern : Pattern) : (Pattern.group alternatives pattern).text =
          openBrace :: (alternatives.text ++ [closeBrace]) ++ pattern.text := by
        simp [Pattern.text]
      exact ⟨patterns.mapFirst (.group alternatives), by simp [patterns.text_mapFirst hfirst]⟩

mutual

/-- The written form of a pattern is well-bracketed in front of a well-bracketed text. -/
theorem Pattern.wellBracketed_text (pattern : Pattern) {rest : List Char} (h : WellBracketed rest) :
    WellBracketed (pattern.text ++ rest) := by
  cases pattern with
  | nil => exact h
  | literal c behind => exact .other c.property.1 (behind.wellBracketed_text h)
  | group alternatives behind =>
      rw [Pattern.text, List.cons_append, List.append_assoc, List.cons_append]
      exact .pair alternatives.wellBracketed_text (behind.wellBracketed_text h)

/-- The written form of patterns is well-bracketed. -/
theorem Patterns.wellBracketed_text (patterns : Patterns) : WellBracketed patterns.text := by
  cases patterns with
  | last pattern => simpa [Patterns.text] using pattern.wellBracketed_text .nil
  | more pattern others =>
      exact pattern.wellBracketed_text (.other (by decide) others.wellBracketed_text)

end

/-- The well-bracketed texts are the written forms of patterns. -/
theorem wellBracketed_iff {text : List Char} :
    WellBracketed text ↔ ∃ patterns : Patterns, patterns.text = text :=
  ⟨WellBracketed.exists_patterns, fun ⟨patterns, h⟩ => h ▸ patterns.wellBracketed_text⟩

end CommentIndex.Glob
