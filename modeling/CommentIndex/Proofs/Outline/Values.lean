import CommentIndex.Proofs.Attributes.Fields
import CommentIndex.Proofs.Matcher.Pieces
import CommentIndex.Proofs.Outline.Highlights
import CommentIndex.Proofs.Outline.Remarks

/-!
# Values in blocks of attributes

What the epic of an anchor may be. A value in a block is not empty, has no blanks at its ends and no
comma inside, and its characters are those of the block (`isValue_of_value?`). The block of an
anchor is taken out of one line, so the epics that are read from a text are values in one line:
`IsRead.isValue_epic`.
-/

namespace CommentIndex

variable {block value : List Char} {matcher : Matcher} {text : List Char} {hit : Hit}

namespace Attributes

/-- A text that may be the value of a field. -/
structure IsValue (value : List Char) : Prop where
  ne_nil : value ≠ []
  strip_eq : Text.strip value = value
  noComma : ',' ∉ value

/-- A field is taken out of its text, between blanks. -/
theorem mem_of_field? {key piece : List Char} (h : field? piece = some (key, value)) :
    Text.strip value = value ∧ ∀ c ∈ value, c ∈ piece := by
  obtain ⟨name, behind, rfl, -, -, rfl⟩ := field?_eq_some_iff.mp h
  refine ⟨Text.strip_strip behind, fun c hc => ?_⟩
  obtain ⟨before, after, hbehind, -⟩ := Text.exists_blanks_strip behind
  rw [hbehind]
  simp [hc]

/-- What is found under a key of a block is a value, and taken out of the block. -/
theorem isValue_of_value? {key : String} (h : value? (fields block) key = some value) :
    IsValue value ∧ ∀ c ∈ value, c ∈ block := by
  obtain ⟨hfound, hne⟩ := Option.filter_eq_some_iff.mp h
  obtain ⟨⟨name, found⟩, hfind, rfl⟩ := Option.map_eq_some_iff.mp hfound
  obtain ⟨piece, hpiece, hfield⟩ :=
    List.mem_filterMap.mp (List.mem_reverse.mp (List.mem_of_find?_eq_some hfind))
  obtain ⟨hstrip, hmem⟩ := mem_of_field? hfield
  refine ⟨⟨of_decide_eq_true hne, hstrip, fun hcomma => ?_⟩, fun c hc => ?_⟩
  · exact Text.notMem_of_mem_splitAtEach hpiece (hmem _ hcomma)
  · exact Text.mem_of_mem_splitAtEach hpiece (hmem c hc)

/-- An epic that is read is a value, and taken out of its block. -/
theorem isValue_of_epic {block : Option (List Char)} {line : Int} {epic : String}
    (h : (read block line).epic = some epic) :
    IsValue epic.toList ∧ ∀ c ∈ epic.toList, c ∈ block.getD [] := by
  obtain ⟨value, hvalue, rfl⟩ := Option.map_eq_some_iff.mp h
  rw [String.toList_ofList]
  exact isValue_of_value? hvalue

end Attributes

namespace Matcher

/-- A block that is found is in one line. -/
theorem oneLine_of_block? {rest : List Char} (h : block? text = some (block, rest)) :
    OneLine block := by
  unfold block? at h
  split at h
  · dsimp only at h
    split at h
    · obtain ⟨rfl, -⟩ := Prod.mk.inj (Option.some.inj h)
      intro c hc
      have hinner := List.mem_takeWhile_imp hc
      simp only [Bool.and_eq_true, Bool.not_eq_true'] at hinner
      exact hinner.2
    · contradiction
  · contradiction

/-- So is the block of what follows a token. -/
theorem oneLine_of_tail? {pieces : List Char × Option (List Char)}
    (h : matcher.tail? text = some (some block, pieces)) : OneLine block := by
  rw [tail?_eq, Option.or_eq_some_iff] at h
  rcases h with hblock | ⟨-, hbare⟩
  · obtain ⟨⟨inner, rest⟩, hfound, hending⟩ := Option.bind_eq_some_iff.mp hblock
    obtain ⟨ending, -, hpieces⟩ := Option.map_eq_some_iff.mp hending
    obtain rfl : inner = block := Option.some.inj (Prod.mk.inj hpieces).1
    exact oneLine_of_block? hfound
  · obtain ⟨ending, -, hpieces⟩ := Option.map_eq_some_iff.mp hbare
    cases hpieces

/-- The block of a hit is in one line. -/
theorem oneLine_block_of_mem_hits (h : hit ∈ matcher.hits text) (hblock : hit.block = some block) :
    OneLine block := by
  obtain ⟨before, rest, -, -, -, hfound⟩ := exists_hitAt?_of_mem_hitsFrom h
  rw [hitAt?_eq] at hfound
  obtain ⟨literal, -, hmark⟩ := List.exists_of_findSome?_eq_some hfound
  obtain ⟨⟨mark, behind⟩, -, hbehind⟩ := Option.bind_eq_some_iff.mp hmark
  obtain ⟨count, -, hwith⟩ := List.exists_of_findSome?_eq_some hbehind
  obtain ⟨name, -, htoken⟩ := List.exists_of_findSome?_eq_some hwith
  obtain ⟨⟨token, rest⟩, -, hpieces⟩ := Option.bind_eq_some_iff.mp htoken
  obtain ⟨⟨inner, pieces⟩, htail, rfl⟩ := Option.map_eq_some_iff.mp hpieces
  obtain rfl : inner = some block := hblock
  exact oneLine_of_tail? htail

end Matcher

namespace Comment

/-- A block at the end of a comment is in one line. -/
theorem oneLine_of_splitTrailingBlock {comment : List Char}
    (h : (splitTrailingBlock comment).2 = some block) : Matcher.OneLine block := by
  unfold splitTrailingBlock at h
  split at h
  · next before inner hfind =>
      obtain ⟨-, -, -, hinner⟩ := text_of_trailingBrackets? hfind
      split at h
      · obtain rfl := Option.some.inj h
        intro c hc
        have hchar := hinner c (List.mem_reverse.mp hc)
        simp only [isBlockChar, Bool.and_eq_true, Bool.not_eq_true'] at hchar
        exact hchar.2
      · cases h
  · cases h

end Comment

namespace Outline

variable {registry : Registry} {showTag found : Bool} {outline : Outline}

/-- The block of an anchor is in one line. -/
theorem oneLine_blockOf (h : hit ∈ matcher.hits text)
    (hblock : blockOf hit (remarkOf hit) = some block) : Matcher.OneLine block := by
  unfold blockOf at hblock
  split at hblock
  · exact Comment.oneLine_of_splitTrailingBlock hblock
  · exact Matcher.oneLine_block_of_mem_hits h hblock

/-- An outline that was read from a text. -/
def IsRead (outline : Outline) : Prop :=
  ∃ matcher registry showTag text found, ofText matcher registry showTag text = .ok (outline, found)

/-- The epic of an anchor that was read from a text is a value in one line. -/
theorem IsRead.isValue_epic (h : outline.IsRead) {anchor : Anchor}
    (hanchor : anchor ∈ outline.flatten) {epic : String}
    (hepic : anchor.facts.attributes.epic = some epic) :
    Attributes.IsValue epic.toList ∧ Matcher.OneLine epic.toList := by
  obtain ⟨matcher, registry, showTag, text, found, hread⟩ := h
  have hfacts : anchor.facts ∈ outline.flatten.map Anchor.facts := List.mem_map_of_mem hanchor
  rw [facts_flatten hread] at hfacts
  obtain ⟨occurrence, hoccurrence, hsame⟩ := List.mem_map.mp hfacts
  obtain ⟨hit, hhit, hstart⟩ := List.mem_filterMap.mp hoccurrence
  obtain ⟨tag, -, rfl⟩ := Option.map_eq_some_iff.mp hstart
  rw [← hsame] at hepic
  obtain ⟨hvalue, hmem⟩ : _ ∧ ∀ c ∈ epic.toList, c ∈ (blockOf hit (remarkOf hit)).getD [] :=
    Attributes.isValue_of_epic hepic
  refine ⟨hvalue, fun c hc => ?_⟩
  cases hblock : blockOf hit (remarkOf hit) with
  | none =>
      rw [hblock] at hmem
      exact absurd (hmem c hc) List.not_mem_nil
  | some block =>
      rw [hblock] at hmem
      exact oneLine_blockOf hhit hblock c (hmem c hc)

end Outline

end CommentIndex
