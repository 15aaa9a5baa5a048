import CommentIndex.Proofs.Matcher.Order
import CommentIndex.Proofs.Matcher.Preference

/-!
# Pieces of hits in their text

What a matcher takes for a hit stands in the text, piece behind piece, whatever literals it has:
`exists_place_of_mem_hits` says so of every hit in a text.
-/

namespace CommentIndex.Matcher

variable {matcher : Matcher} {text : List Char} {hit : Hit}

/-- An ending is taken from the start of a text. -/
theorem exists_text_of_ending? {separator : List Char} {comment : Option (List Char)}
    (h : matcher.ending? text = some (separator, comment)) :
    ∃ after, text = separator ++ comment.getD [] ++ after := by
  unfold ending? at h
  split at h
  · next taken rest hfound =>
      obtain ⟨rfl, rfl⟩ := Prod.mk.inj (Option.some.inj h)
      obtain ⟨literal, -, hliteral⟩ := List.exists_of_findSome?_eq_some hfound
      obtain ⟨rfl, -⟩ := stands_of_separator? hliteral
      refine ⟨rest.dropWhile fun c => !Text.isLineEnd c, ?_⟩
      rw [Option.getD_some, List.append_assoc, List.takeWhile_append_dropWhile]
  · rw [Option.ite_none_right_eq_some] at h
    obtain ⟨rfl, rfl⟩ := Prod.mk.inj (Option.some.inj h.2)
    exact ⟨text, rfl⟩

/-- What follows a token is taken from the start of a text. -/
theorem exists_text_of_tail? {block comment : Option (List Char)} {separator : List Char}
    (h : matcher.tail? text = some (block, separator, comment)) :
    ∃ after, text = blockText block ++ separator ++ comment.getD [] ++ after := by
  rw [tail?_eq, Option.or_eq_some_iff] at h
  rcases h with hblock | ⟨-, hbare⟩
  · obtain ⟨⟨inner, rest⟩, hfound, hending⟩ := Option.bind_eq_some_iff.mp hblock
    obtain ⟨ending, hending, hpieces⟩ := Option.map_eq_some_iff.mp hending
    obtain ⟨rfl, rfl⟩ := Prod.mk.inj hpieces
    obtain ⟨after, rfl⟩ := exists_text_of_ending? hending
    refine ⟨after, ?_⟩
    rw [(text_of_block? hfound).1]
    simp only [List.append_assoc]
  · obtain ⟨ending, hending, hpieces⟩ := Option.map_eq_some_iff.mp hbare
    obtain ⟨rfl, rfl⟩ := Prod.mk.inj hpieces
    exact exists_text_of_ending? hending

/-- The text of a hit behind its token, piece by piece. -/
theorem tail_eq (hit : Hit) :
    hit.tail = blockText hit.block ++ hit.separator ++ hit.comment.getD [] := by
  unfold Hit.tail
  cases hit.block <;> rfl

/-- A hit is taken from the start of a text. -/
theorem exists_text_of_hitAt? {offset : Nat} (h : matcher.hitAt? offset text = some hit) :
    ∃ after, text = hit.text ++ after := by
  rw [hitAt?_eq] at h
  obtain ⟨literal, -, hmark⟩ := List.exists_of_findSome?_eq_some h
  obtain ⟨⟨mark, behind⟩, hspells, hbehind⟩ := Option.bind_eq_some_iff.mp hmark
  obtain ⟨rfl, -⟩ := literal?_eq_some_iff.mp hspells
  obtain ⟨count, hcount, hwith⟩ := List.exists_of_findSome?_eq_some hbehind
  obtain ⟨name, -, htoken⟩ := List.exists_of_findSome?_eq_some hwith
  obtain ⟨⟨token, rest⟩, hspells, hpieces⟩ := Option.bind_eq_some_iff.mp htoken
  obtain ⟨⟨block, separator, comment⟩, htail, rfl⟩ := Option.map_eq_some_iff.mp hpieces
  obtain ⟨hrest, -⟩ := literal?_eq_some_iff.mp hspells
  obtain ⟨after, rfl⟩ := exists_text_of_tail? htail
  have hgap : (behind.takeWhile Text.isSpaceOrTab).take count = behind.take count := by
    rw [List.mem_reverse, List.mem_range] at hcount
    rw [List.prefix_iff_eq_take.mp (List.takeWhile_prefix _), List.take_take,
      Nat.min_eq_left (Nat.le_of_lt_succ hcount)]
  have hbehind : behind = behind.take count ++
      (token ++ (blockText block ++ separator ++ comment.getD [] ++ after)) := by
    rw [← hrest, List.take_append_drop]
  refine ⟨after, ?_⟩
  dsimp only
  rw [Hit.text, tail_eq]
  dsimp only
  conv_lhs => rw [hbehind]
  simp only [hgap, List.append_assoc]

/-- Every hit stands in its text from its start on. -/
theorem exists_place_of_mem_hits (h : hit ∈ matcher.hits text) :
    ∃ before after, text = before ++ (hit.text ++ after) ∧ hit.start = before.length := by
  obtain ⟨before, rest, rfl, -, -, hfound⟩ := exists_hitAt?_of_mem_hitsFrom h
  obtain ⟨after, rfl⟩ := exists_text_of_hitAt? hfound
  exact ⟨before, after, rfl, (start_of_hitAt? hfound).trans (Nat.zero_add _)⟩

end CommentIndex.Matcher
