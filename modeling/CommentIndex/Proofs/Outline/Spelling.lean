import CommentIndex.Proofs.Matcher.Resolution
import CommentIndex.Proofs.Outline.Reading
import CommentIndex.Proofs.Text.Capitals

/-!
# Texts that cannot be read

With case ignored, a matcher compares letters while it looks for tokens, and capitals while it
reads them. The two agree on all letters but the stray capitals, so a matcher may find a token that
names no tag of the registry it was compiled from, and then the text has no outline at all.
`unreadable_iff` says when that happens: at the first token that the registry does not know, in
which a stray capital stands for another letter or another letter for it.
-/

namespace CommentIndex

/-- With case ignored, a registry knows a token that is the name of a tag, or the end tag and the
name of a region. -/
inductive Registry.Knows (registry : Registry) (endTag : String) (token : List Char) : Prop where
  | start {tag : Tag} (hmem : tag ∈ registry.toList)
      (hname : Text.upper tag.name.toList = Text.upper token)
  | close {region : Tag} (hmem : region ∈ registry.toList) (hregion : region.isRegion = true)
      (hend : Text.upper endTag.toList <+: Text.upper token)
      (hname : Text.upper region.name.toList = Text.upper (token.drop endTag.length))

namespace Matcher

variable {matcher : Matcher} {grammar : Grammar} {log : Log} {registry : Registry}
  {token literal text : List Char}

/-! ## Letters of tokens -/

/-- At some place a stray capital stands for another letter, or another letter for it. -/
def Strays (literal token : List Char) : Prop :=
  ∃ letters ∈ literal.zip token, letters.1 ≠ letters.2 ∧
    (letters.1 ∈ Text.strayCapitals ∨ letters.2 ∈ Text.strayCapitals)

/-- A token without stray capitals has the capitals of what it stands for, letter by letter. -/
theorem Spells.map_upperChar (h : Spells false literal token) (hstray : ¬ Strays literal token) :
    literal.map Text.upperChar = token.map Text.upperChar := by
  induction h with
  | nil => rfl
  | @cons wanted c literal token hletter hrest ih =>
      have hhere : Text.upperChar wanted = Text.upperChar c := by
        by_contra hne
        have hsame : wanted ≠ c := fun h => hne (h ▸ rfl)
        refine hstray ⟨(wanted, c), List.mem_cons_self, hsame, ?_⟩
        by_contra hnone
        push Not at hnone
        exact hne (Text.upperChar_eq_of_sameLetter hletter hnone.1 hnone.2)
      have hbehind : ¬ Strays literal token := fun ⟨letters, hmem, hletters⟩ =>
        hstray ⟨letters, List.mem_cons_of_mem _ hmem, hletters⟩
      rw [List.map_cons, List.map_cons, hhere, ih hbehind]

/-- Texts with the same capitals letter by letter have the same capitals. -/
theorem upper_eq_of_map {first second : List Char}
    (h : first.map Text.upperChar = second.map Text.upperChar) :
    Text.upper first = Text.upper second := by
  rw [Text.upper, Text.upper, List.flatMap_def, List.flatMap_def, h]

/-! ## Tokens that can be read -/

/-- With case ignored, a token can be read if and only if the registry knows it. -/
theorem read_isOk_iff (horder : registry.InOrder log) (hcase : matcher.matchCase = false) :
    (matcher.read registry token).isOk = true ↔ registry.Knows matcher.endTag token := by
  have hsame (name : List Char) :
      matcher.sameSpelling name token = true ↔ Text.upper name = Text.upper token := by
    simp [sameSpelling, hcase]
  have hends : matcher.startsAsEndTag token = true ↔
      Text.upper matcher.endTag.toList <+: Text.upper token := by
    simp [startsAsEndTag, hcase]
  unfold read
  constructor
  · intro h
    split at h
    · next tag htag =>
        obtain ⟨hmem, hname⟩ := (startTag?_eq_some_iff horder).mp htag
        exact .start hmem ((hsame _).mp hname)
    · split at h
      · next region hregion =>
          obtain ⟨hend, hmem, hisRegion, hname⟩ := (endTag?_eq_some_iff horder).mp hregion
          exact .close hmem hisRegion (hends.mp hend) hname
      · contradiction
  · rintro (⟨hmem, hname⟩ | ⟨hmem, hregion, hend, hname⟩)
    · rw [(startTag?_eq_some_iff horder).mpr ⟨hmem, (hsame _).mpr hname⟩]
      rfl
    · have hendTag := (endTag?_eq_some_iff horder).mpr ⟨hends.mpr hend, hmem, hregion, hname⟩
      split
      · rfl
      · rw [hendTag]
        rfl

/-- Reading a token fails with the token itself. -/
theorem read_eq_error_iff {error : ParseError} :
    matcher.read registry token = .error error ↔
      ¬ (matcher.read registry token).isOk = true ∧ error = .unresolvable token := by
  unfold read
  split
  · simp [Except.isOk, Except.toBool]
  · split <;> simp [Except.isOk, Except.toBool, eq_comm]

/-- A token that has, letter by letter, the capitals of one that the matcher offers is known. -/
theorem knows_of_map_upperChar (hcompile : grammar.compile = .ok matcher)
    (hliteral : literal ∈ matcher.tokens)
    (h : literal.map Text.upperChar = token.map Text.upperChar) :
    grammar.registry.Knows grammar.endTag token := by
  obtain ⟨name, htoken, rfl⟩ := (tries_of_compile hcompile).mem_tokens literal |>.mp hliteral
  rcases htoken with ⟨hname, -⟩ | ⟨region, hmem, hregion, rfl⟩
  · obtain ⟨tag, hmem, rfl⟩ := List.mem_map.mp hname
    exact .start hmem (upper_eq_of_map h)
  · rw [String.toList_append, List.map_append] at h
    obtain ⟨before, behind, rfl, hbefore, hbehind⟩ := List.map_eq_append_iff.mp h.symm
    have hlength : before.length = grammar.endTag.length := by
      simpa [String.length_toList] using congrArg List.length hbefore
    refine .close hmem hregion ?_ ?_
    · rw [Text.upper_append, ← upper_eq_of_map hbefore]
      exact List.prefix_append _ _
    · rw [← hlength, List.drop_left, upper_eq_of_map hbehind]

end Matcher

namespace Outline

open Matcher

variable {matcher : Matcher} {registry : Registry} {showTag : Bool} {text : List Char}
  {error : ParseError}

/-! ## Texts that cannot be read -/

/-- The first token that cannot be read keeps the text from being read. -/
theorem ofText_of_error {before behind : List Hit} {hit : Hit}
    (hhits : matcher.hits text = before ++ hit :: behind)
    (hbefore : ∀ earlier ∈ before, (matcher.read registry earlier.token).isOk = true)
    (hhit : matcher.read registry hit.token = .error error) :
    ofText matcher registry showTag text = .error error := by
  obtain ⟨events, hevents, -⟩ :=
    mapM_eventOf matcher registry (Text.lineStarts text) showTag before hbefore
  rw [ofText, eventsOf, hhits, List.mapM_append, hevents, List.mapM_cons, eventOf, hhit]
  rfl

/-- A text cannot be read if and only if one of the tokens in it cannot: the first such token is
reported. -/
theorem ofText_eq_error_iff :
    ofText matcher registry showTag text = .error error ↔
      ∃ before hit behind, matcher.hits text = before ++ hit :: behind ∧
        (∀ earlier ∈ before, (matcher.read registry earlier.token).isOk = true) ∧
        matcher.read registry hit.token = .error error := by
  constructor
  · intro h
    cases hfirst : (matcher.hits text).find? fun hit =>
        !(matcher.read registry hit.token).isOk with
    | none =>
        -- If every token can be read, then so can the text.
        obtain ⟨events, outline, found, hread, -⟩ := ofText_reads matcher registry showTag text
          fun hit hhit => by simpa using List.find?_eq_none.mp hfirst hit hhit
        rw [h] at hread
        contradiction
    | some hit =>
        obtain ⟨hbad, before, behind, hhits, hbefore⟩ := List.find?_eq_some_iff_append.mp hfirst
        have hbefore : ∀ earlier ∈ before, (matcher.read registry earlier.token).isOk = true :=
          fun earlier hearlier => by simpa using hbefore earlier hearlier
        cases hhit : matcher.read registry hit.token with
        | ok reading => simp [hhit, Except.isOk, Except.toBool] at hbad
        | error other =>
            obtain rfl := Except.error.inj (h.symm.trans (ofText_of_error hhits hbefore hhit))
            exact ⟨before, hit, behind, hhits, hbefore, hhit⟩
  · rintro ⟨before, hit, behind, hhits, hbefore, hhit⟩
    exact ofText_of_error hhits hbefore hhit

/-- With case ignored, a text cannot be read with the registry that its matcher was compiled from
if and only if one of the tokens found in it is unknown, and the first such token is reported. Every
token that is found stands for one that the matcher offers, and only a stray capital can make it
unknown. -/
theorem unreadable_iff {operations : List Registry.Operation} {separators marks : List String}
    {endTag : String}
    (h : Matcher.compile (.after operations) separators marks endTag false = .ok matcher)
    (showTag : Bool) (text : List Char) :
    let registry := Registry.after operations
    (∀ error, ofText matcher registry showTag text = .error error ↔
      ∃ before hit behind, matcher.hits text = before ++ hit :: behind ∧
        (∀ earlier ∈ before, registry.Knows endTag earlier.token) ∧
        ¬ registry.Knows endTag hit.token ∧ error = .unresolvable hit.token) ∧
      ∀ hit ∈ matcher.hits text, ∃ literal ∈ matcher.tokens, Spells false literal hit.token ∧
        (registry.Knows endTag hit.token ∨ Strays literal hit.token) := by
  intro registry
  let grammar : Grammar := ⟨registry, separators, marks, endTag, false⟩
  have hcompile : grammar.compile = .ok matcher := h
  obtain ⟨hend, hcase⟩ := settings_of_compile hcompile
  have hisOk (token : List Char) :
      (matcher.read registry token).isOk = true ↔ registry.Knows endTag token := by
    rw [read_isOk_iff (Registry.inOrder_after operations) hcase, hend]
  have herror (token : List Char) (error : ParseError) :
      matcher.read registry token = .error error ↔
        ¬ registry.Knows endTag token ∧ error = .unresolvable token := by
    rw [← hisOk]
    exact read_eq_error_iff
  refine ⟨fun error => ?_, fun hit hhit => ?_⟩
  · simp only [ofText_eq_error_iff, hisOk, herror]
  · obtain ⟨literal, hliteral, hspells⟩ := exists_token_of_mem_hits hhit
    rw [hcase] at hspells
    refine ⟨literal, hliteral, hspells, ?_⟩
    by_cases hstray : Strays literal hit.token
    · exact .inr hstray
    · exact .inl (knows_of_map_upperChar hcompile hliteral (hspells.map_upperChar hstray))

/-! ## A letter that makes a text unreadable -/

/-- A registry of two tags. -/
def linkRegistry : Registry :=
  .after [.register { name := "TODO" }, .register { name := "LINK" }]

/-- What searches for two tags. -/
def linkMatcher : Matcher where
  marks := ["#".toList]
  tokens := ["LINK", "TODO"].map String.toList
  separators := [": ".toList]
  endTag := "!"
  matchCase := false

/-- The matcher is compiled from the registry. -/
theorem compile_linkRegistry :
    Matcher.compile linkRegistry [": "] ["#"] "!" false = .ok linkMatcher := by
  have htags : linkRegistry.toList = [{ name := "TODO" }, { name := "LINK" }] :=
    rfl
  have htokens : tokensOf linkRegistry "!" = ["TODO", "LINK"] := by
    simp only [tokensOf, Registry.names, Registry.endTokens, htags]
    decide +kernel
  simp only [Matcher.compile, htokens]
  cbv

/-- A Kelvin sign makes a token unknown that was found. -/
theorem unreadable_iff_kelvin_sign :
    let text := "# TODO: keep\n# LIN\u212A: x".toList
    Matcher.compile linkRegistry [": "] ["#"] "!" false = .ok linkMatcher ∧
      ∃ hit ∈ linkMatcher.hits text, ¬ linkRegistry.Knows "!" hit.token ∧
        ∃ literal ∈ linkMatcher.tokens, Spells false literal hit.token ∧
          Strays literal hit.token := by
  intro text
  have herror : ofText linkMatcher linkRegistry true text =
      .error (.unresolvable "LIN\u212A".toList) := by
    decide +kernel
  obtain ⟨hunreadable, hfound⟩ := unreadable_iff compile_linkRegistry true text
  obtain ⟨before, hit, behind, hhits, -, hunknown, -⟩ := (hunreadable _).mp herror
  have hmem : hit ∈ linkMatcher.hits text := hhits ▸ List.mem_append_right _ List.mem_cons_self
  obtain ⟨literal, hliteral, hspells, hstray⟩ := hfound hit hmem
  exact ⟨compile_linkRegistry, hit, hmem, hunknown, literal, hliteral, hspells,
    hstray.resolve_left hunknown⟩

/-- A text that cannot be read with the registry that its matcher was compiled from, for one letter
in it. -/
theorem unreadable_by_kelvin_sign :
    let text := "# TODO: keep\n# LIN\u212A: x".toList
    Matcher.compile linkRegistry [": "] ["#"] "!" false = .ok linkMatcher ∧
      (linkMatcher.hits text).map Hit.token = ["TODO".toList, "LIN\u212A".toList] ∧
      ofText linkMatcher linkRegistry true text = .error (.unresolvable "LIN\u212A".toList) :=
  ⟨compile_linkRegistry, by decide +kernel, by decide +kernel⟩

end Outline

end CommentIndex
