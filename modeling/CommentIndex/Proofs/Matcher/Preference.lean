import CommentIndex.Proofs.Matcher.Grammar
import Mathlib.Tactic.Tauto

/-!
# What a matcher prefers

Within a line, what `hitAt?` finds is the best of all the readings of the text from there to the
end of the line: `best_hitAt?`. It is put together from the same statement for an ending, for what
follows a token, for what follows the blanks, and for what follows a mark.
-/

namespace CommentIndex.Matcher

variable {matcher : Matcher} {grammar : Grammar} {text : List Char}

/-! ## Behind a token -/

/-- Nothing that stands for a separator of the grammar is empty. -/
theorem Grammar.FitsEnding.text_ne_nil {ending : Ending} (h : grammar.FitsEnding ending) :
    ending.text ≠ [] := by
  obtain ⟨⟨-, hne⟩, hstands⟩ := h
  intro htext
  rw [(List.append_eq_nil_iff.mp htext).1] at hstands
  cases hliteral : ending.literal.toList with
  | nil => exact hne (String.toList_eq_nil_iff.mp hliteral)
  | cons wanted literal =>
      rw [hliteral] at hstands
      generalize htaken : ([] : List Char) = taken at hstands
      cases hstands with
      | letter => contradiction
      | spaces more => simp [List.replicate_succ] at htaken

/-- The text of an ending is not empty unless the ending is missing. -/
theorem endingText_eq_nil {ending : Option Ending}
    (h : ∀ found ∈ ending, grammar.FitsEnding found) (htext : endingText ending = []) :
    ending = none := by
  cases ending with
  | none => rfl
  | some found => exact absurd htext (h found rfl).text_ne_nil

/-- The rest of a line goes up to its end. -/
theorem OneLine.takeWhile_eq (h : OneLine text) :
    text.takeWhile (fun c => !Text.isLineEnd c) = text :=
  List.takeWhile_eq_self_iff.mpr fun c hc => by rw [h c hc]; rfl

/-- Within a line, the only end of a line is the end of the text. -/
theorem OneLine.atLineEnd_iff (h : OneLine text) : atLineEnd text = true ↔ text = [] := by
  cases text with
  | nil => simp [atLineEnd]
  | cons c text => simp [atLineEnd, h c List.mem_cons_self]

/-- At the end of a text there is no separator. -/
theorem ending?_nil (htries : matcher.Tries grammar) : matcher.ending? [] = some ([], none) := by
  have hnone : matcher.separators.findSome?
      (fun literal => separator? matcher.matchCase literal []) = none := by
    refine List.findSome?_eq_none_iff.mpr fun literal hliteral => ?_
    obtain ⟨separator, ⟨-, hne⟩, rfl⟩ := (htries.mem_separators literal).mp hliteral
    obtain ⟨c, others, hcons⟩ :=
      List.exists_cons_of_ne_nil fun hnil => hne (String.toList_eq_nil_iff.mp hnil)
    rw [hcons]
    rfl
  unfold ending?
  rw [hnone]
  rfl

/-- Before the end of a line an ending is the first of the separators that is there. -/
theorem ending?_eq (hline : OneLine text) (htext : text ≠ []) :
    matcher.ending? text = matcher.separators.findSome? fun literal =>
      (separator? matcher.matchCase literal text).map fun (separator, rest) =>
        (separator, some (rest.takeWhile fun c => !Text.isLineEnd c)) := by
  have hbare : atLineEnd text ≠ true := fun hend => htext (hline.atLineEnd_iff.mp hend)
  unfold ending?
  rw [← Function.comp_def (Option.map _), ← List.map_findSome?]
  cases matcher.separators.findSome? fun literal => separator? matcher.matchCase literal text with
  | none => simp [hbare]
  | some found => rfl

/-- The best ending of what is left of a line is found. -/
theorem best_ending? (htries : matcher.Tries grammar) (hline : OneLine text) :
    Best (fun ending => (∀ found ∈ ending, grammar.FitsEnding found) ∧ endingText ending = text)
      (fun ending => [endingRank ending]) endingPieces (matcher.ending? text) := by
  by_cases htext : text = []
  · subst htext
    rw [ending?_nil htries]
    refine ⟨none, ⟨by simp, rfl⟩, rfl, fun other hother => ?_⟩
    rw [endingText_eq_nil hother.1 hother.2]
    exact AtMost.refl _
  · rw [ending?_eq hline htext]
    refine Best.firstOf (fun literal => literal.length)
      (fun literal => (separator? matcher.matchCase literal text).isSome) endingRank
      htries.separators ?_ ?_ ?_
    · intro literal hliteral hsome
      obtain ⟨⟨taken, rest⟩, hfound⟩ := Option.isSome_iff_exists.mp hsome
      obtain ⟨separator, hseparator, rfl⟩ := (htries.mem_separators literal).mp hliteral
      obtain ⟨rfl, hstands⟩ := stands_of_separator? hfound
      rw [htries.matchCase] at hstands
      rw [hfound]
      refine ⟨some ⟨separator, taken, rest⟩, ⟨⟨?_, rfl⟩, ?_⟩, ?_, fun _ _ => AtMost.refl _⟩
      · rintro found ⟨⟩
        exact ⟨hseparator, hstands⟩
      · simp only [endingRank, String.length_toList]
      · simp only [endingPieces, hline.of_append_right.takeWhile_eq]
    · intro literal _ hnone
      rw [Option.not_isSome_iff_eq_none.mp hnone]
      rfl
    · rintro ending ⟨hfits, rfl⟩
      cases ending with
      | none => exact absurd rfl htext
      | some found =>
          obtain ⟨hseparator, hstands⟩ := hfits found rfl
          rw [← htries.matchCase] at hstands
          refine ⟨_, (htries.mem_separators _).mpr ⟨found.literal, hseparator, rfl⟩, ?_, ?_⟩
          · exact separator?_isSome hstands found.comment
          · simp only [endingRank, String.length_toList]

/-- A block that is found stands at the start of the text. -/
theorem text_of_block? {inner rest : List Char} (h : block? text = some (inner, rest)) :
    text = blockText (some inner) ++ rest ∧ ']' ∉ inner := by
  unfold block? at h
  split at h
  · next text =>
      dsimp only at h
      split at h
      · next behind hbehind =>
          obtain ⟨rfl, rfl⟩ := Prod.mk.inj (Option.some.inj h)
          have hsplit := List.prefix_iff_eq_append.mp
            (List.takeWhile_prefix (l := text) fun c => c ≠ ']' && !Text.isLineEnd c)
          rw [hbehind] at hsplit
          refine ⟨?_, fun hbracket => ?_⟩
          · conv_lhs => rw [← hsplit]
            simp [blockText]
          · have hinner := List.mem_takeWhile_imp hbracket
            simp at hinner
      · contradiction
  · contradiction

/-- A block within a line is found if and only if it is there. -/
theorem block?_eq_some_iff (hline : OneLine text) {inner rest : List Char} :
    block? text = some (inner, rest) ↔ text = blockText (some inner) ++ rest ∧ ']' ∉ inner := by
  constructor
  · exact text_of_block?
  · rintro ⟨rfl, hinner⟩
    have hall : ∀ c ∈ inner, (decide (c ≠ ']') && !Text.isLineEnd c) = true := by
      intro c hc
      have hne : c ≠ ']' := fun heq => hinner (heq ▸ hc)
      have hinside : c ∈ blockText (some inner) ++ rest := by simp [blockText, hc]
      simp [hne, hline c hinside]
    have htake : (inner ++ ']' :: rest).takeWhile (fun c => c ≠ ']' && !Text.isLineEnd c) =
        inner := by
      rw [List.takeWhile_append_of_pos hall]
      simp
    have htext : blockText (some inner) ++ rest = '[' :: (inner ++ ']' :: rest) := by
      simp [blockText]
    rw [htext]
    simp only [block?, htake, List.drop_left]

/-- What a hit has of the tail of a reading. -/
def tailPieces (tail : Tail) : Option (List Char) × List Char × Option (List Char) :=
  (tail.block, endingPieces tail.ending)

/-- A block with an ending behind it, if both are there. -/
def blockAndEnding? (matcher : Matcher) (text : List Char) :
    Option (Option (List Char) × List Char × Option (List Char)) :=
  (block? text).bind fun (inner, rest) =>
    (matcher.ending? rest).map fun ending => (some inner, ending)

/-- A block is tried before none. -/
theorem tail?_eq (matcher : Matcher) (text : List Char) :
    matcher.tail? text =
      (blockAndEnding? matcher text).or
        ((matcher.ending? text).map fun ending => (none, ending)) := by
  unfold tail? blockAndEnding?
  cases block? text <;> rfl

/-- The best tail with a block is found. -/
theorem best_blockAndEnding? (htries : matcher.Tries grammar) (hline : OneLine text) :
    Best (fun tail => (grammar.FitsTail tail ∧ tail.text = text) ∧ tail.block.isSome = true)
      (fun tail => [endingRank tail.ending]) tailPieces (blockAndEnding? matcher text) := by
  -- A tail with a block is one that the search for a block finds.
  have hall : ∀ tail : Tail, (grammar.FitsTail tail ∧ tail.text = text) ∧ tail.block.isSome = true →
      ∃ inner, tail.block = some inner ∧ block? text = some (inner, endingText tail.ending) := by
    rintro tail ⟨⟨hfits, htext⟩, hsome⟩
    obtain ⟨inner, hinner⟩ := Option.isSome_iff_exists.mp hsome
    refine ⟨inner, hinner, (block?_eq_some_iff hline).mpr ⟨?_, hfits.block inner hinner⟩⟩
    rw [← htext, Tail.text, hinner]
  unfold blockAndEnding?
  cases hblock : block? text with
  | none =>
      intro tail htail
      obtain ⟨inner, -, hfound⟩ := hall tail htail
      rw [hblock] at hfound
      contradiction
  | some found =>
      obtain ⟨inner, rest⟩ := found
      obtain ⟨htext, hinner⟩ := (block?_eq_some_iff hline).mp hblock
      have hrest : OneLine rest := by
        rw [htext] at hline
        exact hline.of_append_right
      refine (best_ending? htries hrest).map (fun ending => ⟨some inner, ending⟩) ?_ ?_
        (fun _ _ => rfl) (fun _ _ h => h)
      · rintro ending ⟨hfits, rfl⟩
        refine ⟨⟨⟨?_, hfits⟩, htext.symm⟩, rfl⟩
        rintro found ⟨⟩
        exact hinner
      · intro tail htail
        obtain ⟨found, hfound, hsame⟩ := hall tail htail
        rw [hblock] at hsame
        obtain ⟨rfl, rfl⟩ := Prod.mk.inj (Option.some.inj hsame)
        exact ⟨tail.ending, ⟨htail.1.1.ending, rfl⟩, by rw [← hfound]⟩

/-- The best tail is found. -/
theorem best_tail? (htries : matcher.Tries grammar) (hline : OneLine text) :
    Best (fun tail => grammar.FitsTail tail ∧ tail.text = text) Tail.rank tailPieces
      (matcher.tail? text) := by
  rw [tail?_eq]
  refine Best.or (fun tail : Tail => tail.block.isSome) (best_blockAndEnding? htries hline) ?_
  refine (best_ending? htries hline).map (fun ending => ⟨none, ending⟩) ?_ ?_
    (fun _ _ => rfl) (fun _ _ h => h)
  · rintro ending ⟨hfits, rfl⟩
    exact ⟨⟨⟨by simp, hfits⟩, rfl⟩, rfl⟩
  · rintro ⟨block, ending⟩ ⟨⟨hfits, rfl⟩, hnone⟩
    obtain rfl := Option.isSome_eq_false_iff.mp hnone |> Option.isNone_iff_eq_none.mp
    exact ⟨ending, ⟨hfits.ending, rfl⟩, rfl⟩

/-! ## From a mark -/

/-- The hit with those pieces before its token. -/
def hitWith? (matcher : Matcher) (offset : Nat) (mark gap text : List Char) : Option Hit :=
  matcher.tokens.findSome? fun literal =>
    (literal? matcher.matchCase literal text).bind fun (token, rest) =>
      (matcher.tail? rest).map fun (block, separator, comment) =>
        { start := offset
          mark := mark
          gap := gap
          token := token
          block := block
          separator := separator
          comment := comment }

/-- The hit with that mark. -/
def hitBehind? (matcher : Matcher) (offset : Nat) (mark text : List Char) : Option Hit :=
  let gap := text.takeWhile Text.isSpaceOrTab
  (List.range (gap.length + 1)).reverse.findSome? fun count =>
    hitWith? matcher offset mark (gap.take count) (text.drop count)

/-- A hit has one of the marks. -/
theorem hitAt?_eq (matcher : Matcher) (offset : Nat) (text : List Char) :
    matcher.hitAt? offset text = matcher.marks.findSome? fun literal =>
      (literal? matcher.matchCase literal text).bind fun (mark, rest) =>
        hitBehind? matcher offset mark rest := rfl

variable {mark gap : List Char}

/-- The best reading with that mark and those blanks is found. -/
theorem best_hitWith? (htries : matcher.Tries grammar) (hline : OneLine text) (offset : Nat)
    (hmark : ∃ literal, grammar.IsMark literal ∧ Spells grammar.matchCase literal.toList mark)
    (hgap : ∀ c ∈ gap, Text.isSpaceOrTab c = true) :
    Best (fun reading => grammar.Fits reading ∧ reading.mark = mark ∧ reading.gap = gap ∧
        reading.token ++ reading.tail.text = text)
      (fun reading => reading.token.length :: reading.tail.rank) (Reading.hit offset)
      (hitWith? matcher offset mark gap text) := by
  refine Best.firstOf (fun literal => literal.length)
    (fun literal => (literal? matcher.matchCase literal text).isSome)
    (fun reading : Reading => reading.token.length) htries.tokens ?_ ?_ ?_
  · intro literal hliteral hsome
    obtain ⟨⟨token, rest⟩, hfound⟩ := Option.isSome_iff_exists.mp hsome
    obtain ⟨name, htoken, rfl⟩ := (htries.mem_tokens literal).mp hliteral
    obtain ⟨rfl, hspells⟩ := literal?_eq_some_iff.mp hfound
    rw [hfound]
    refine (best_tail? htries hline.of_append_right).map (fun tail => ⟨mark, gap, token, tail⟩)
      ?_ ?_ (fun _ _ => rfl) (fun _ _ h => h)
    · rintro tail ⟨hfits, rfl⟩
      rw [htries.matchCase] at hspells
      refine ⟨⟨⟨hmark, hgap, ⟨name, htoken, hspells⟩, hfits⟩, rfl, rfl, rfl⟩, ?_⟩
      rw [hspells.length_eq]
    · rintro reading ⟨⟨hfits, rfl, rfl, htext⟩, hlength⟩
      have hsame : reading.token.length = token.length := by
        rw [hspells.length_eq]
        exact Int.ofNat.inj hlength
      obtain ⟨rfl, htail⟩ := List.append_inj htext hsame
      exact ⟨reading.tail, ⟨hfits.tail, htail⟩, rfl⟩
  · intro literal _ hnone
    rw [Option.not_isSome_iff_eq_none.mp hnone]
    rfl
  · rintro reading ⟨hfits, -, -, rfl⟩
    obtain ⟨name, htoken, hspells⟩ := hfits.token
    refine ⟨_, (htries.mem_tokens _).mpr ⟨name, htoken, rfl⟩, ?_, ?_⟩
    · rw [← htries.matchCase] at hspells
      rw [literal?_eq_some_iff.mpr ⟨rfl, hspells⟩]
      rfl
    · rw [hspells.length_eq]

/-- The best reading with that mark is found. -/
theorem best_hitBehind? (htries : matcher.Tries grammar) (hline : OneLine text) (offset : Nat)
    (hmark : ∃ literal, grammar.IsMark literal ∧ Spells grammar.matchCase literal.toList mark) :
    Best (fun reading => grammar.Fits reading ∧ reading.mark = mark ∧
        reading.gap ++ (reading.token ++ reading.tail.text) = text)
      (fun reading => reading.gap.length :: reading.token.length :: reading.tail.rank)
      (Reading.hit offset) (hitBehind? matcher offset mark text) := by
  have hblank : ∀ count, ∀ c ∈ (text.takeWhile Text.isSpaceOrTab).take count,
      Text.isSpaceOrTab c = true :=
    fun count c hc => List.mem_takeWhile_imp (List.mem_of_mem_take hc)
  refine Best.firstOf (fun count : Nat => count) (fun _ => True)
    (fun reading : Reading => reading.gap.length) ?_ ?_ (by simp) ?_
  · refine List.pairwise_reverse.mpr (List.pairwise_lt_range.imp fun hlt => ?_)
    exact Int.ofNat_le.mpr (Nat.le_of_lt hlt)
  · intro count hcount _
    have hle : count ≤ (text.takeWhile Text.isSpaceOrTab).length := by
      rw [List.mem_reverse, List.mem_range] at hcount
      omega
    have htake : (text.takeWhile Text.isSpaceOrTab).take count = text.take count := by
      rw [List.prefix_iff_eq_take.mp (List.takeWhile_prefix _), List.take_take,
        Nat.min_eq_left hle]
    have hbehind : OneLine (text.drop count) := fun c hc => hline c (List.mem_of_mem_drop hc)
    refine (best_hitWith? htries hbehind offset hmark (hblank count)).congr fun reading => ?_
    rw [htake]
    constructor
    · rintro ⟨⟨hfits, hsame, rfl⟩, hlength⟩
      obtain rfl : reading.gap.length = count := Int.ofNat.inj hlength
      exact ⟨hfits, hsame, List.take_left.symm, List.drop_left.symm⟩
    · rintro ⟨hfits, hsame, hgap, hrest⟩
      refine ⟨⟨hfits, hsame, by rw [hgap, hrest, List.take_append_drop]⟩, ?_⟩
      have hshort : count ≤ text.length :=
        hle.trans (List.takeWhile_prefix _).length_le
      rw [hgap, List.length_take, Nat.min_eq_left hshort]
  · rintro reading ⟨hfits, -, rfl⟩
    refine ⟨reading.gap.length, ?_, trivial, rfl⟩
    rw [List.takeWhile_append_of_pos hfits.gap]
    simp only [List.mem_reverse, List.mem_range, List.length_append]
    omega

/-- The best reading of a text within a line is found. -/
theorem best_hitAt? (htries : matcher.Tries grammar) (hline : OneLine text) (offset : Nat) :
    Best (fun reading => grammar.Fits reading ∧ reading.text = text) Reading.rank
      (Reading.hit offset) (matcher.hitAt? offset text) := by
  rw [hitAt?_eq]
  refine Best.firstOf (fun literal => literal.length)
    (fun literal => (literal? matcher.matchCase literal text).isSome)
    (fun reading : Reading => reading.mark.length) htries.marks ?_ ?_ ?_
  · intro literal hliteral hsome
    obtain ⟨⟨mark, rest⟩, hfound⟩ := Option.isSome_iff_exists.mp hsome
    obtain ⟨name, hmark, rfl⟩ := (htries.mem_marks literal).mp hliteral
    obtain ⟨rfl, hspells⟩ := literal?_eq_some_iff.mp hfound
    rw [hfound]
    rw [htries.matchCase] at hspells
    refine (best_hitBehind? htries hline.of_append_right offset ⟨name, hmark, hspells⟩).congr ?_
    intro reading
    constructor
    · rintro ⟨⟨hfits, htext⟩, hlength⟩
      have hsame : reading.mark.length = mark.length := by
        rw [hspells.length_eq]
        exact Int.ofNat.inj hlength
      obtain ⟨rfl, hbehind⟩ := List.append_inj htext hsame
      exact ⟨hfits, rfl, hbehind⟩
    · rintro ⟨hfits, rfl, rfl⟩
      exact ⟨⟨hfits, rfl⟩, by rw [hspells.length_eq]⟩
  · intro literal _ hnone
    rw [Option.not_isSome_iff_eq_none.mp hnone]
    rfl
  · rintro reading ⟨hfits, rfl⟩
    obtain ⟨name, hmark, hspells⟩ := hfits.mark
    refine ⟨_, (htries.mem_marks _).mpr ⟨name, hmark, rfl⟩, ?_, ?_⟩
    · rw [← htries.matchCase] at hspells
      rw [Reading.text, literal?_eq_some_iff.mpr ⟨rfl, hspells⟩]
      rfl
    · rw [hspells.length_eq]

end CommentIndex.Matcher
