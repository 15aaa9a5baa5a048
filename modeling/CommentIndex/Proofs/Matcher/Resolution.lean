import CommentIndex.Matcher.Reading
import CommentIndex.Proofs.Matcher.Grammar
import CommentIndex.Proofs.Matcher.Order
import CommentIndex.Proofs.Registry.Operations
import Mathlib.Data.List.Permutation

/-!
# What tokens mean

Which tag a token starts an anchor of (`startTag?_eq_some_iff`) and which region it closes
(`endTag?_eq_some_iff`), for a registry that has its tags in order. The registry is asked by names
in capitals, and the answer is compared with the token. With case told apart, every token that a
matcher offers, and so every one that a hit has, means the tag or the region that it is spelled as:
`read_offered`.
-/

namespace CommentIndex

/-- What a token means by its spelling: it starts an anchor of the tag that it names, and unless it
names one, it closes the region whose name it has behind the end tag. -/
inductive Registry.Means (registry : Registry) (endTag : String) (token : List Char) :
    Reading → Prop where
  | start {tag : Tag} (hmem : tag ∈ registry.toList) (hname : tag.name.toList = token) :
      registry.Means endTag token ⟨tag, false⟩
  | close {region : Tag} (hmem : region ∈ registry.toList) (hregion : region.isRegion = true)
      (hname : (endTag ++ region.name).toList = token)
      (hother : String.ofList token ∉ registry.names) :
      registry.Means endTag token ⟨region, true⟩

namespace Matcher

variable {matcher : Matcher} {grammar : Grammar} {log : Log} {registry : Registry} {tag : Tag}
  {token literal text : List Char} {hit : Hit}

/-! ## The tokens of hits -/

/-- The end tag and the treatment of case of a compiled matcher are those of its grammar. -/
theorem settings_of_compile (h : grammar.compile = .ok matcher) :
    matcher.endTag = grammar.endTag ∧ matcher.matchCase = grammar.matchCase := by
  unfold Grammar.compile Matcher.compile at h
  dsimp only at h
  split at h
  · contradiction
  · split at h
    · contradiction
    · split at h
      · contradiction
      · obtain rfl := Except.ok.inj h
        exact ⟨rfl, rfl⟩

/-- The token of a hit stands for one of the tokens of the matcher. -/
theorem exists_token_of_mem_hits (h : hit ∈ matcher.hits text) :
    ∃ literal ∈ matcher.tokens, Spells matcher.matchCase literal hit.token := by
  obtain ⟨before, rest, -, -, -, hfound⟩ := exists_hitAt?_of_mem_hitsFrom h
  obtain ⟨mark, -, hmark⟩ := List.exists_of_findSome?_eq_some hfound
  obtain ⟨behind, -, hbehind⟩ := Option.bind_eq_some_iff.mp hmark
  obtain ⟨count, -, hcount⟩ := List.exists_of_findSome?_eq_some hbehind
  obtain ⟨literal, hliteral, htoken⟩ := List.exists_of_findSome?_eq_some hcount
  obtain ⟨found, htaken, htail⟩ := Option.bind_eq_some_iff.mp htoken
  obtain ⟨tail, -, rfl⟩ := Option.map_eq_some_iff.mp htail
  exact ⟨literal, hliteral, (literal?_eq_some_iff.mp htaken).2⟩

/-- With case told apart, a literal stands only for itself. -/
theorem Spells.eq (h : Spells true literal token) : token = literal := by
  induction h with
  | nil => rfl
  | cons hletter hrest ih => rw [ih, beq_iff_eq.mp hletter]

/-! ## The tag of a token -/

/-- A name and a token that are spelled alike have the same capitals. -/
theorem upper_eq_of_sameSpelling {name : List Char} (h : matcher.sameSpelling name token = true) :
    Text.upper name = Text.upper token := by
  unfold sameSpelling at h
  split at h
  · rw [of_decide_eq_true h]
  · exact of_decide_eq_true h

/-- A token starts an anchor of the tag whose name is spelled as the token is. -/
theorem startTag?_eq_some_iff (horder : registry.InOrder log) :
    matcher.startTag? registry token = some tag ↔
      tag ∈ registry.toList ∧ matcher.sameSpelling tag.name.toList token = true := by
  rw [startTag?, Option.filter_eq_some_iff, horder.find?_eq_some_iff]
  constructor
  · rintro ⟨⟨hmem, -⟩, hsame⟩
    exact ⟨hmem, hsame⟩
  · rintro ⟨hmem, hsame⟩
    refine ⟨⟨hmem, ?_⟩, hsame⟩
    rw [Tag.key, Text.upperString, Text.upperString, String.toList_ofList,
      upper_eq_of_sameSpelling hsame]

/-- A token closes the region whose name, in capitals, stands behind the end tag in it. -/
theorem endTag?_eq_some_iff (horder : registry.InOrder log) :
    matcher.endTag? registry token = some tag ↔
      matcher.startsAsEndTag token = true ∧ tag ∈ registry.toList ∧ tag.isRegion = true ∧
        Text.upper tag.name.toList = Text.upper (token.drop matcher.endTag.length) := by
  have hkey : tag.key = Text.upperString (String.ofList (token.drop matcher.endTag.length)) ↔
      Text.upper tag.name.toList = Text.upper (token.drop matcher.endTag.length) := by
    rw [Tag.key, Text.upperString, Text.upperString, String.toList_ofList, String.ofList_inj]
  unfold endTag?
  split
  · next hstarts =>
      rw [Option.filter_eq_some_iff, horder.find?_eq_some_iff, hkey]
      constructor
      · rintro ⟨⟨hmem, hname⟩, hregion⟩
        exact ⟨hstarts, hmem, hregion, hname⟩
      · rintro ⟨-, hmem, hregion, hname⟩
        exact ⟨⟨hmem, hname⟩, hregion⟩
  · next hstarts => simp [hstarts]

/-! ## Tokens as they are spelled -/

/-- With case told apart, a token is read as what it means by its spelling. -/
theorem read_of_means (horder : registry.InOrder log) (hcase : matcher.matchCase = true)
    {reading : CommentIndex.Reading} (h : registry.Means matcher.endTag token reading) :
    matcher.read registry token = .ok reading := by
  have hsame (name : List Char) : matcher.sameSpelling name token = true ↔ name = token := by
    simp [sameSpelling, hcase]
  unfold read
  cases h with
  | start hmem hname =>
      rw [(startTag?_eq_some_iff horder).mpr ⟨hmem, (hsame _).mpr hname⟩]
  | @close region hmem hregion hname hother =>
      have hstart : matcher.startTag? registry token = none := by
        refine Option.eq_none_iff_forall_ne_some.mpr fun tag htag => hother ?_
        obtain ⟨htag, hspelled⟩ := (startTag?_eq_some_iff horder).mp htag
        rw [← (hsame _).mp hspelled, String.ofList_toList]
        exact List.mem_map_of_mem htag
      have htoken : token = matcher.endTag.toList ++ region.name.toList := by
        rw [← hname, String.toList_append]
      have hend : matcher.endTag? registry token = some region := by
        refine (endTag?_eq_some_iff horder).mpr ⟨?_, hmem, hregion, ?_⟩
        · simp [startsAsEndTag, hcase, htoken]
        · rw [htoken, ← String.length_toList, List.drop_left]
      rw [hstart, hend]

/-- A matcher that tells case apart offers the names of tags and the end tags of regions, whatever
has been done to the registry that it is compiled from. Each of these tokens means one thing by its
spelling and is read as that, although the names and the end tags may agree with one another in
capitals. The tokens of hits are such tokens. -/
theorem read_offered {operations : List Registry.Operation} {separators marks : List String}
    {endTag : String}
    (h : Matcher.compile (.after operations) separators marks endTag true = .ok matcher) :
    let registry := Registry.after operations
    (∀ token ∈ matcher.tokens, ∃! reading, registry.Means endTag token reading) ∧
      (∀ token reading, registry.Means endTag token reading →
        matcher.read registry token = .ok reading) ∧
      ∀ text, ∀ hit ∈ matcher.hits text, hit.token ∈ matcher.tokens := by
  intro registry
  let grammar : Grammar := ⟨registry, separators, marks, endTag, true⟩
  have hcompile : grammar.compile = .ok matcher := h
  have horder := Registry.inOrder_after operations
  obtain ⟨hend, hcase⟩ := settings_of_compile hcompile
  have hread (token : List Char) (reading : CommentIndex.Reading)
      (hmeans : registry.Means endTag token reading) :
      matcher.read registry token = .ok reading :=
    read_of_means horder hcase (hend ▸ hmeans)
  refine ⟨fun token htoken => ?_, hread, fun text hit hhit => ?_⟩
  · obtain ⟨reading, hmeans⟩ : ∃ reading, registry.Means endTag token reading := by
      obtain ⟨literal, hliteral, rfl⟩ := (tries_of_compile hcompile).mem_tokens token |>.mp htoken
      -- A name comes first, also if it is the end tag of a region.
      by_cases hname : literal ∈ registry.names
      · obtain ⟨tag, hmem, rfl⟩ := List.mem_map.mp hname
        exact ⟨_, .start hmem rfl⟩
      · rcases hliteral with ⟨hnamed, -⟩ | ⟨region, hmem, hregion, rfl⟩
        · exact absurd hnamed hname
        · exact ⟨_, .close hmem hregion rfl (by rwa [String.ofList_toList])⟩
    refine ⟨reading, hmeans, fun other hother => ?_⟩
    exact Except.ok.inj ((hread token other hother).symm.trans (hread token reading hmeans))
  · obtain ⟨literal, hliteral, hspells⟩ := exists_token_of_mem_hits hhit
    rw [hcase] at hspells
    exact hspells.eq ▸ hliteral

/-- The end tag of a region has the capitals of another tag, which it does not mean. -/
theorem read_offered_other_capitals :
    let registry := Registry.after
      [.register { name := "x", behavior := .region }, .apply "X" [],
        .register { name := "NOTE" }, .unregister "note", .register { name := "ENDX" }]
    let matcher : Matcher :=
      { marks := ["#".toList], tokens := ["ENDX", "endX", "X"].map String.toList
        separators := [" ".toList], endTag := "end", matchCase := true }
    Matcher.compile registry [" "] ["#"] "end" true = .ok matcher ∧
      registry.find? "endX" = some { name := "ENDX" } ∧
      matcher.read registry "endX".toList = .ok ⟨{ name := "X", behavior := .region }, true⟩ := by
  intro registry matcher
  have htags : registry.toList = [{ name := "X", behavior := .region }, { name := "ENDX" }] :=
    rfl
  have htokens : tokensOf registry "end" = ["X", "ENDX", "endX"] := by
    simp only [tokensOf, Registry.names, Registry.endTokens, htags]
    decide +kernel
  have hcompile : Matcher.compile registry [" "] ["#"] "end" true = .ok matcher := by
    simp only [Matcher.compile, htokens]
    cbv
  have hother : String.ofList "endX".toList ∉ registry.names := by
    simp only [Registry.names, htags]
    decide +kernel
  have hfind : registry.find? "endX" = some { name := "ENDX" } :=
    rfl
  obtain ⟨-, hread, -⟩ := read_offered hcompile
  refine ⟨hcompile, hfind, hread _ _ (.close ?_ rfl rfl hother)⟩
  rw [htags]
  exact List.mem_cons_self

end Matcher

end CommentIndex
