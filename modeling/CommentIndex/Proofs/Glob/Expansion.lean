import CommentIndex.Proofs.Glob.Alternatives
import Mathlib.Algebra.BigOperators.Ring.List
import Mathlib.Computability.Language

/-!
# What patterns with alternatives stand for

The meaning of patterns is put together from that of their parts: a row stands for all
concatenations (`Pattern.language`), and a group for what any of its alternatives stands for
(`Patterns.union`). `expandBraces` works on the written form from the inside to the outside and
splices the options of a group into the alternatives around it before those are cut. However deep
groups stand in groups, the texts that come out are those of the meaning, and without nesting they
come in the order of the product: `expandBraces_meaning`. Each step replaces the leftmost innermost
group, and neither the meaning nor the product changes by it.
-/

namespace CommentIndex.Glob

mutual

/-- The texts that a pattern stands for: those of its parts, one behind the other. -/
def Pattern.language : Pattern → Language Char
  | .nil => 1
  | .literal c rest => {[c.val]} * rest.language
  | .group alternatives rest => alternatives.union * rest.language
termination_by structural pattern => pattern

/-- The texts that alternatives stand for: those of any of them. -/
def Patterns.union : Patterns → Language Char
  | .last pattern => pattern.language
  | .more pattern others => pattern.language + others.union
termination_by structural patterns => patterns

end

/-- The texts that patterns at the top stand for: those of each of them, with commas between. -/
def Patterns.language : Patterns → Language Char
  | .last pattern => pattern.language
  | .more pattern others => pattern.language * ({[',']} * others.language)

/-! ## What patterns stand for -/

/-- A text is in a sum of languages if and only if it is in one of them. -/
theorem mem_sum {languages : List (Language Char)} {text : List Char} :
    text ∈ languages.sum ↔ ∃ language ∈ languages, text ∈ language := by
  induction languages with
  | nil => simp
  | cons language rest ih => simp [Language.mem_add, ih]

/-- Adding a language to each of some others adds it once. -/
theorem sum_map_add_const {α : Type} {items : List α} (h : items ≠ []) (f : α → Language Char)
    (language : Language Char) :
    (items.map fun item => f item + language).sum = (items.map f).sum + language := by
  have hconst : (items.map fun _ => language).sum = language := by
    ext text
    obtain ⟨item, hitem⟩ := List.exists_mem_of_ne_nil items h
    simp only [mem_sum, List.mem_map]
    constructor
    · rintro ⟨_, ⟨_, _, rfl⟩, htext⟩
      exact htext
    · exact fun htext => ⟨language, ⟨item, hitem, rfl⟩, htext⟩
  rw [List.sum_map_add, hconst]

/-- Two texts one behind the other. -/
theorem singleton_mul_singleton (first second : List Char) :
    ({first} : Language Char) * {second} = {first ++ second} :=
  Set.image2_singleton

/-- A pattern behind another stands for the texts of both, one behind the other. -/
theorem Pattern.language_append (pattern second : Pattern) :
    (pattern.append second).language = pattern.language * second.language := by
  cases pattern with
  | nil => exact (one_mul _).symm
  | literal c rest =>
      rw [append, Pattern.language, Pattern.language, rest.language_append, mul_assoc]
  | group alternatives rest =>
      rw [append, Pattern.language, Pattern.language, rest.language_append, mul_assoc]

/-- Alternatives stand for what any of them stands for. -/
theorem Patterns.union_eq_sum (patterns : Patterns) :
    patterns.union = (patterns.toList.map Pattern.language).sum := by
  cases patterns with
  | last pattern => simp [union, toList]
  | more pattern others => simp [union, toList, others.union_eq_sum]

/-- A pattern without groups stands for itself. -/
theorem Pattern.language_of_none {pattern : Pattern} (h : pattern.next? = none) :
    pattern.language = {pattern.text} := by
  cases pattern with
  | nil => rfl
  | literal c rest =>
      rw [Pattern.language, Pattern.text, rest.language_of_none (next?_literal_eq_none.mp h)]
      exact singleton_mul_singleton ..
  | group alternatives rest => exact absurd h next?_group_ne_none

/-- Patterns without groups stand for themselves. -/
theorem Patterns.language_of_none {patterns : Patterns} (h : patterns.next? = none) :
    patterns.language = {patterns.text} := by
  cases patterns with
  | last pattern => exact pattern.language_of_none (next?_last_eq_none.mp h)
  | more pattern others =>
      obtain ⟨hpattern, hothers⟩ := next?_more_eq_none.mp h
      rw [Patterns.language, Patterns.text, pattern.language_of_none hpattern,
        others.language_of_none hothers, singleton_mul_singleton, singleton_mul_singleton]
      rfl

mutual

/-- A pattern stands for what any of the patterns stands for that come out of it. -/
theorem Pattern.language_eq_sum (pattern : Pattern) {next : List Pattern}
    (h : pattern.next? = some next) : pattern.language = (next.map Pattern.language).sum := by
  cases pattern with
  | nil => simp [Pattern.next?] at h
  | literal c rest =>
      obtain ⟨behind, hbehind, rfl⟩ := Pattern.next?_literal_eq_some.mp h
      rw [Pattern.language, rest.language_eq_sum hbehind, ← List.sum_map_mul_left, List.map_map]
      rfl
  | group alternatives rest =>
      rcases Pattern.next?_group_eq_some.mp h with ⟨inside, hinside, rfl⟩ | ⟨-, rfl⟩
      · rw [Pattern.language, alternatives.union_eq_sum_next hinside, ← List.sum_map_mul_right,
          List.map_map]
        rfl
      · rw [Pattern.language, alternatives.union_eq_sum, ← List.sum_map_mul_right, List.map_map]
        simp [Function.comp_def, Pattern.language_append]

/-- Alternatives stand for what any of the alternatives stand for that come out of them. -/
theorem Patterns.union_eq_sum_next (patterns : Patterns) {next : List Patterns}
    (h : patterns.next? = some next) : patterns.union = (next.map Patterns.union).sum := by
  cases patterns with
  | last pattern =>
      obtain ⟨inside, hinside, rfl⟩ := Patterns.next?_last_eq_some.mp h
      rw [Patterns.union, pattern.language_eq_sum hinside, List.map_map]
      rfl
  | more pattern others =>
      rcases Patterns.next?_more_eq_some.mp h with
        ⟨inside, hinside, rfl⟩ | ⟨-, behind, hbehind, rfl⟩
      · rw [Patterns.union, pattern.language_eq_sum hinside,
          ← sum_map_add_const (pattern.next?_ne_nil hinside), List.map_map]
        rfl
      · rw [Patterns.union, others.union_eq_sum_next hbehind, add_comm,
          ← sum_map_add_const (others.next?_ne_nil hbehind), List.map_map]
        simp [Function.comp_def, Patterns.union, add_comm]

end

/-- Patterns at the top stand for what any of those stand for that come out of them. -/
theorem Patterns.language_eq_sum (patterns : Patterns) {next : List Patterns}
    (h : patterns.next? = some next) : patterns.language = (next.map Patterns.language).sum := by
  cases patterns with
  | last pattern =>
      obtain ⟨inside, hinside, rfl⟩ := next?_last_eq_some.mp h
      rw [Patterns.language, pattern.language_eq_sum hinside, List.map_map]
      rfl
  | more pattern others =>
      rcases next?_more_eq_some.mp h with ⟨inside, hinside, rfl⟩ | ⟨-, behind, hbehind, rfl⟩
      · rw [Patterns.language, pattern.language_eq_sum hinside, ← List.sum_map_mul_right,
          List.map_map]
        rfl
      · rw [Patterns.language, others.language_eq_sum hbehind, ← List.sum_map_mul_left,
          ← List.sum_map_mul_left, List.map_map]
        rfl

/-- The texts that come out of patterns when their alternatives are written out are those that the
patterns stand for. -/
theorem Patterns.mem_expandBraces_text (patterns : Patterns) (text : List Char) :
    text ∈ expandBraces patterns.text ↔ text ∈ patterns.language := by
  induction patterns using Patterns.unfold_induction with
  | step patterns ih =>
      rw [patterns.expandBraces_text]
      cases hnext : patterns.next? with
      | none =>
          rw [patterns.language_of_none hnext]
          exact List.mem_singleton
      | some next =>
          rw [patterns.language_eq_sum hnext, mem_sum]
          simp only [List.mem_flatMap, List.mem_map, exists_exists_and_eq_and]
          exact exists_congr fun second => and_congr_right fun hsecond =>
            ih next hnext second hsecond

/-! ## The order of what comes out -/

/-- No group has another inside. -/
def Pattern.IsFlat : Pattern → Prop
  | .nil => True
  | .literal _ rest => rest.IsFlat
  | .group alternatives rest => BraceFree alternatives.text ∧ rest.IsFlat

/-- No group of any of the patterns has another inside. -/
def Patterns.IsFlat : Patterns → Prop
  | .last pattern => pattern.IsFlat
  | .more pattern others => pattern.IsFlat ∧ others.IsFlat

/-- What each part of a pattern can be: a character is itself, and a group is any of its
alternatives. -/
def Pattern.factors : Pattern → List (List (List Char))
  | .nil => []
  | .literal c rest => [[c.val]] :: rest.factors
  | .group alternatives rest => alternatives.toList.map Pattern.text :: rest.factors

/-- What each part of patterns at the top can be; the commas between them are themselves. -/
def Patterns.factors : Patterns → List (List (List Char))
  | .last pattern => pattern.factors
  | .more pattern others => pattern.factors ++ [[',']] :: others.factors

/-- One text of each factor, one behind the other, in all ways: in order, where the last factor
varies fastest and the first one slowest. -/
def product : List (List (List Char)) → List (List Char)
  | [] => [[]]
  | choices :: rest => choices.flatMap fun choice => (product rest).map (choice ++ ·)

/-- The product of two rows of factors. -/
theorem product_append (first second : List (List (List Char))) :
    product (first ++ second) =
      (product first).flatMap fun before => (product second).map (before ++ ·) := by
  induction first with
  | nil => simp [product]
  | cons choices rest ih =>
      simp only [List.cons_append, product, ih, List.flatMap_assoc, List.flatMap_map,
        List.map_flatMap, List.map_map, Function.comp_def, List.append_assoc]

/-- A group that has no other inside has only alternatives without groups. -/
theorem next?_eq_none_of_braceFree {alternatives : Patterns} (h : BraceFree alternatives.text) :
    alternatives.next? = none := by
  rw [← find?_isBrace_eq_none_iff, alternatives.find?_text, Option.map_eq_none_iff] at h
  exact h

/-- A pattern without groups gives itself. -/
theorem Pattern.product_of_none {pattern : Pattern} (h : pattern.next? = none) :
    product pattern.factors = [pattern.text] := by
  cases pattern with
  | nil => rfl
  | literal c rest =>
      simp [factors, product, Pattern.text,
        rest.product_of_none (next?_literal_eq_none.mp h)]
  | group alternatives rest => exact absurd h next?_group_ne_none

/-- The parts of one pattern behind another are those of both. -/
theorem Pattern.factors_append (pattern second : Pattern) :
    (pattern.append second).factors = pattern.factors ++ second.factors := by
  cases pattern with
  | nil => rfl
  | literal c rest => rw [append, factors, factors, rest.factors_append, List.cons_append]
  | group alternatives rest => rw [append, factors, factors, rest.factors_append, List.cons_append]

/-- A pattern without groups does not change that no group has another inside. -/
theorem Pattern.isFlat_append {second : Pattern} (hsecond : second.IsFlat) (pattern : Pattern)
    (h : pattern.next? = none) : (pattern.append second).IsFlat := by
  cases pattern with
  | nil => exact hsecond
  | literal c rest => exact isFlat_append hsecond rest (next?_literal_eq_none.mp h)
  | group alternatives rest => exact absurd h next?_group_ne_none

/-- Each of several patterns without groups has none. -/
theorem Patterns.next?_of_mem_toList {patterns : Patterns} (h : patterns.next? = none)
    {pattern : Pattern} (hmem : pattern ∈ patterns.toList) : pattern.next? = none := by
  cases patterns with
  | last only =>
      rw [List.mem_singleton.mp hmem]
      exact next?_last_eq_none.mp h
  | more first others =>
      obtain ⟨hfirst, hothers⟩ := next?_more_eq_none.mp h
      rcases List.mem_cons.mp hmem with rfl | hmem
      · exact hfirst
      · exact others.next?_of_mem_toList hothers hmem

/-- What comes out of a pattern in which no group has another inside is of that kind, and its
products are one behind the other that of the pattern. -/
theorem Pattern.isFlat_next (pattern : Pattern) (hflat : pattern.IsFlat) {next : List Pattern}
    (h : pattern.next? = some next) :
    (∀ second ∈ next, second.IsFlat) ∧
      product pattern.factors = next.flatMap fun second => product second.factors := by
  cases pattern with
  | nil => simp [Pattern.next?] at h
  | literal c rest =>
      obtain ⟨behind, hbehind, rfl⟩ := next?_literal_eq_some.mp h
      obtain ⟨hflats, hproduct⟩ := rest.isFlat_next hflat hbehind
      refine ⟨List.forall_mem_map.mpr hflats, ?_⟩
      simp [factors, product, hproduct, List.map_flatMap, List.flatMap_map]
  | group alternatives rest =>
      have hnone := next?_eq_none_of_braceFree hflat.1
      rw [Pattern.next?, hnone] at h
      obtain rfl := Option.some.inj h
      refine ⟨List.forall_mem_map.mpr fun alternative halternative =>
        isFlat_append hflat.2 alternative (Patterns.next?_of_mem_toList hnone halternative), ?_⟩
      rw [factors, product, List.flatMap_map, List.flatMap_map]
      refine List.flatMap_congr fun alternative halternative => ?_
      rw [factors_append, product_append,
        product_of_none (Patterns.next?_of_mem_toList hnone halternative)]
      simp

/-- Patterns without groups give themselves. -/
theorem Patterns.product_of_none {patterns : Patterns} (h : patterns.next? = none) :
    product patterns.factors = [patterns.text] := by
  cases patterns with
  | last pattern => exact pattern.product_of_none (next?_last_eq_none.mp h)
  | more pattern others =>
      obtain ⟨hpattern, hothers⟩ := next?_more_eq_none.mp h
      simp [factors, product_append, product, pattern.product_of_none hpattern,
        others.product_of_none hothers, text]

/-- The same of several patterns. -/
theorem Patterns.isFlat_next (patterns : Patterns) (hflat : patterns.IsFlat)
    {next : List Patterns} (h : patterns.next? = some next) :
    (∀ second ∈ next, second.IsFlat) ∧
      product patterns.factors = next.flatMap fun second => product second.factors := by
  cases patterns with
  | last pattern =>
      obtain ⟨inside, hinside, rfl⟩ := next?_last_eq_some.mp h
      obtain ⟨hflats, hproduct⟩ := pattern.isFlat_next hflat hinside
      refine ⟨List.forall_mem_map.mpr hflats, ?_⟩
      rw [factors, hproduct, List.flatMap_map]
      rfl
  | more pattern others =>
      obtain ⟨hpattern, hothers⟩ := hflat
      rcases next?_more_eq_some.mp h with ⟨inside, hinside, rfl⟩ | ⟨hnone, behind, hbehind, rfl⟩
      · obtain ⟨hflats, hproduct⟩ := pattern.isFlat_next hpattern hinside
        refine ⟨List.forall_mem_map.mpr fun second hsecond => ⟨hflats second hsecond, hothers⟩, ?_⟩
        simp [factors, product_append, hproduct, List.flatMap_assoc, List.flatMap_map]
      · obtain ⟨hflats, hproduct⟩ := others.isFlat_next hothers hbehind
        refine ⟨List.forall_mem_map.mpr fun second hsecond => ⟨hpattern, hflats second hsecond⟩, ?_⟩
        simp [factors, product_append, product, hproduct, pattern.product_of_none hnone,
          List.map_flatMap, List.flatMap_map]

/-- Patterns in which no group has another inside give the product of their factors. -/
theorem Patterns.IsFlat.expandBraces_text {patterns : Patterns} (h : patterns.IsFlat) :
    expandBraces patterns.text = product patterns.factors := by
  induction patterns using Patterns.unfold_induction with
  | step patterns ih =>
      rw [patterns.expandBraces_text]
      cases hnext : patterns.next? with
      | none => rw [patterns.product_of_none hnext]
      | some next =>
          obtain ⟨hflats, hproduct⟩ := patterns.isFlat_next h hnext
          rw [hproduct]
          exact List.flatMap_congr fun second hsecond =>
            ih next hnext second hsecond (hflats second hsecond)

/-- Writing out the alternatives of a pattern. Replacing pairs ends for every text, and
`expandBraces` replaces the leftmost innermost one until there is none. The texts that come out of a
well-bracketed pattern, which is to say of the written form of patterns, are those that the patterns
stand for. If no group has another inside, they come in the order of the product. -/
theorem expandBraces_meaning :
    WellFounded Unfolds ∧
      (∀ pattern, expandBraces pattern =
        match innermost? pattern with
        | none => [pattern]
        | some (head, inner, tail) =>
          (Text.splitAtEach ',' inner).flatMap fun option =>
            expandBraces (head ++ option ++ tail)) ∧
      (∀ pattern, ∀ text ∈ expandBraces pattern, ∀ head inner tail,
        ¬ IsPair text head inner tail) ∧
      (∀ pattern, WellBracketed pattern ↔ ∃ patterns : Patterns, patterns.text = pattern) ∧
      ∀ patterns : Patterns,
        (∀ text, text ∈ expandBraces patterns.text ↔ text ∈ patterns.language) ∧
          (patterns.IsFlat → expandBraces patterns.text = product patterns.factors) :=
  ⟨unfolds_wellFounded, expandBraces_eq, fun _ _ h _ _ _ => not_isPair_of_mem_expandBraces h,
    fun _ => wellBracketed_iff, fun patterns =>
      ⟨patterns.mem_expandBraces_text, Patterns.IsFlat.expandBraces_text⟩⟩

/-- A letter as a pattern, in front of another. -/
def letterA (rest : Pattern) : Pattern := .literal ⟨'a', by decide, by decide⟩ rest

/-- Another letter as a pattern, in front of another. -/
def letterB (rest : Pattern) : Pattern := .literal ⟨'b', by decide, by decide⟩ rest

/-- A group of two letters. -/
def lettersOf (rest : Pattern) : Pattern :=
  .group (.more (letterA .nil) (.last (letterB .nil))) rest

/-- A group with a group and an empty alternative inside gives three texts, and two groups in a row
give four in order. -/
theorem expandBraces_meaning_of_letters :
    let nested := Patterns.last (.group (.more (lettersOf .nil) (.last .nil)) (letterA .nil))
    let flat := Patterns.last (lettersOf (lettersOf .nil))
    (nested.text = [openBrace, openBrace, 'a', ',', 'b', closeBrace, ',', closeBrace, 'a'] ∧
        ['a'] ∈ nested.language ∧ ['b', 'a'] ∈ nested.language ∧ ['b'] ∉ nested.language) ∧
      expandBraces flat.text = [['a', 'a'], ['a', 'b'], ['b', 'a'], ['b', 'b']] := by
  intro nested flat
  obtain ⟨-, -, -, -, hmeaning⟩ := expandBraces_meaning
  have hlanguage := (hmeaning nested).1
  refine ⟨⟨rfl, (hlanguage _).mp (by decide), (hlanguage _).mp (by decide),
    fun h => absurd ((hlanguage _).mpr h) (by decide)⟩, ?_⟩
  rw [(hmeaning flat).2 ⟨by decide, by decide, trivial⟩]
  decide

end CommentIndex.Glob
