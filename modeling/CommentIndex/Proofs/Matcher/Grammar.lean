import CommentIndex.Proofs.Matcher.Choice
import CommentIndex.Proofs.Matcher.Literals

/-!
# The grammar of a matcher

A `Grammar` is what a matcher is compiled from. A `Reading` cuts a text into a mark, blanks, a
token, perhaps a block and perhaps a separator with a comment; `Grammar.Fits` says that each piece
stands for what the grammar has for it, and `Reading.rank` which of two readings comes first. The
main statement, `best_hitAt?`, says that the matcher takes the first of all the readings of what is
left of a line.
-/

namespace CommentIndex.Matcher

/-- What a matcher is compiled from. -/
structure Grammar where
  registry : Registry
  separators : List String
  marks : List String
  endTag : String
  matchCase : Bool

namespace Grammar

variable (grammar : Grammar)

/-- The matcher of the grammar, or what it lacks. -/
def compile : Except MatcherError Matcher :=
  Matcher.compile grammar.registry grammar.separators grammar.marks grammar.endTag
    grammar.matchCase

/-- What begins a comment. -/
def IsMark (literal : String) : Prop :=
  literal ∈ grammar.marks ∧ literal ≠ ""

/-- What leads to the text of a comment. -/
def IsSeparator (literal : String) : Prop :=
  literal ∈ grammar.separators ∧ literal ≠ ""

/-- A tag that has a name, or what closes a region. -/
def IsToken (literal : String) : Prop :=
  (literal ∈ grammar.registry.names ∧ literal ≠ "") ∨
    ∃ tag ∈ grammar.registry.toList, tag.isRegion = true ∧ literal = grammar.endTag ++ tag.name

end Grammar

/-! ## Readings of a text -/

/-- A separator of the grammar, the text that stands for it, and the comment behind that. -/
structure Ending where
  literal : String
  separator : List Char
  comment : List Char

/-- What is read behind a token. -/
structure Tail where
  block : Option (List Char)
  ending : Option Ending

/-- A way to read a text as an anchor. -/
structure Reading where
  mark : List Char
  gap : List Char
  token : List Char
  tail : Tail

/-- The text of an ending. -/
def Ending.text (ending : Ending) : List Char :=
  ending.separator ++ ending.comment

/-- The text of an ending, which may be missing. -/
def endingText : Option Ending → List Char
  | some ending => ending.text
  | none => []

/-- The text of a block in its brackets, which may be missing. -/
def blockText : Option (List Char) → List Char
  | some inner => '[' :: inner ++ [']']
  | none => []

/-- The text behind a token. -/
def Tail.text (tail : Tail) : List Char :=
  blockText tail.block ++ endingText tail.ending

/-- The text that is read. -/
def Reading.text (reading : Reading) : List Char :=
  reading.mark ++ (reading.gap ++ (reading.token ++ reading.tail.text))

/-- The length of the separator of the grammar, which may be missing. -/
def endingRank : Option Ending → Int
  | some ending => ending.literal.length
  | none => 0

/-- A block comes before none, and then a long separator before a short one. -/
def Tail.rank (tail : Tail) : List Int :=
  [tail.block.isSome.toNat, endingRank tail.ending]

/-- A long mark comes before a short one, then many blanks before few, then a long token before a
short one, and then the tails count. -/
def Reading.rank (reading : Reading) : List Int :=
  reading.mark.length :: reading.gap.length :: reading.token.length :: reading.tail.rank

/-- The pieces of an ending, as a hit has them. -/
def endingPieces : Option Ending → List Char × Option (List Char)
  | some ending => (ending.separator, some ending.comment)
  | none => ([], none)

/-- The hit that a reading makes at an offset. -/
def Reading.hit (offset : Nat) (reading : Reading) : Hit where
  start := offset
  mark := reading.mark
  gap := reading.gap
  token := reading.token
  block := reading.tail.block
  separator := (endingPieces reading.tail.ending).1
  comment := (endingPieces reading.tail.ending).2

namespace Grammar

variable (grammar : Grammar)

/-- An ending has a separator of the grammar. -/
def FitsEnding (ending : Ending) : Prop :=
  grammar.IsSeparator ending.literal ∧
    Stands grammar.matchCase ending.literal.toList ending.separator

/-- A tail has no bracket inside its block, and its ending fits. -/
structure FitsTail (tail : Tail) : Prop where
  block : ∀ inner ∈ tail.block, ']' ∉ inner
  ending : ∀ ending ∈ tail.ending, grammar.FitsEnding ending

/-- Each piece of a reading stands for what the grammar has for it. -/
structure Fits (reading : Reading) : Prop where
  mark : ∃ literal, grammar.IsMark literal ∧
    Spells grammar.matchCase literal.toList reading.mark
  gap : ∀ c ∈ reading.gap, Text.isSpaceOrTab c = true
  token : ∃ literal, grammar.IsToken literal ∧
    Spells grammar.matchCase literal.toList reading.token
  tail : grammar.FitsTail reading.tail

end Grammar

/-! ## The order in which literals are tried -/

theorem mem_longestFirst {texts : List String} {literal : List Char} :
    literal ∈ longestFirst texts ↔ ∃ text ∈ texts, text.toList = literal := by
  simp [longestFirst]

theorem triedBefore_trans (first second third : String) (h : triedBefore first second = true)
    (h' : triedBefore second third = true) : triedBefore first third = true := by
  simp only [triedBefore, Bool.or_eq_true, Bool.and_eq_true, decide_eq_true_eq, beq_iff_eq] at *
  rcases h with h | ⟨h, hle⟩
  · omega
  · rcases h' with h' | ⟨h', hle'⟩
    · omega
    · exact .inr ⟨h.trans h', String.le_trans hle hle'⟩

theorem triedBefore_total (first second : String) :
    (triedBefore first second || triedBefore second first) = true := by
  simp only [triedBefore, Bool.or_eq_true, Bool.and_eq_true, decide_eq_true_eq, beq_iff_eq]
  rcases Nat.lt_trichotomy first.length second.length with hlt | heq | hgt
  · omega
  · rcases String.le_total first second with hle | hle
    · exact .inl (.inr ⟨heq, hle⟩)
    · exact .inr (.inr ⟨heq.symm, hle⟩)
  · omega

/-- No literal is tried before a longer one. -/
theorem pairwise_longestFirst (texts : List String) :
    (longestFirst texts).Pairwise fun first second =>
      (second.length : Int) ≤ (first.length : Int) := by
  unfold longestFirst
  refine List.pairwise_map.mpr ?_
  refine (List.pairwise_mergeSort triedBefore_trans triedBefore_total _).imp ?_
  intro first second h
  simp only [triedBefore, Bool.or_eq_true, Bool.and_eq_true, decide_eq_true_eq, beq_iff_eq] at h
  simp only [String.length_toList]
  omega

/-- A matcher has the literals of a grammar, the longer ones first. -/
structure Tries (matcher : Matcher) (grammar : Grammar) : Prop where
  mem_marks : ∀ literal, literal ∈ matcher.marks ↔
    ∃ text, grammar.IsMark text ∧ text.toList = literal
  mem_tokens : ∀ literal, literal ∈ matcher.tokens ↔
    ∃ text, grammar.IsToken text ∧ text.toList = literal
  mem_separators : ∀ literal, literal ∈ matcher.separators ↔
    ∃ text, grammar.IsSeparator text ∧ text.toList = literal
  marks : matcher.marks.Pairwise fun first second =>
    (second.length : Int) ≤ (first.length : Int)
  tokens : matcher.tokens.Pairwise fun first second =>
    (second.length : Int) ≤ (first.length : Int)
  separators : matcher.separators.Pairwise fun first second =>
    (second.length : Int) ≤ (first.length : Int)
  matchCase : matcher.matchCase = grammar.matchCase

/-- A compiled matcher tries the literals of its grammar. -/
theorem tries_of_compile {grammar : Grammar} {matcher : Matcher}
    (h : grammar.compile = .ok matcher) : matcher.Tries grammar := by
  unfold Grammar.compile Matcher.compile at h
  dsimp only at h
  split at h
  · contradiction
  · split at h
    · contradiction
    · split at h
      · contradiction
      · obtain rfl := Except.ok.inj h
        exact
          { mem_marks := fun literal => by simp [mem_longestFirst, Grammar.IsMark]
            mem_tokens := fun literal => by
              simp only [mem_longestFirst, tokensOf, Registry.endTokens, Grammar.IsToken,
                List.mem_append, List.mem_filter, List.mem_map, decide_eq_true_eq, and_assoc,
                eq_comm (a := grammar.endTag ++ _)]
            mem_separators := fun literal => by simp [mem_longestFirst, Grammar.IsSeparator]
            marks := pairwise_longestFirst _
            tokens := pairwise_longestFirst _
            separators := pairwise_longestFirst _
            matchCase := rfl }

end CommentIndex.Matcher
