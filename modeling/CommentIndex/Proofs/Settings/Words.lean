import CommentIndex.Proofs.Settings.Assignments

/-!
# The words of a setting

The name of a setting is made of words, and a spelling of it marks where each word begins behind
another: with an underscore, with a hyphen, or with a capital. All marks are normalized to
underscores, also where a spelling has different ones (`normalizeChars_of_continues`), and to
normalize a name again changes nothing. Together that is `normalize_spellings`.
-/

namespace CommentIndex

namespace Key

/-- At least two small letters and digits. -/
structure IsWord (word : List Char) : Prop where
  long : 2 ≤ word.length
  plain : ∀ c ∈ word, c.isLower = true ∨ c.isDigit = true

/-- A word that can stand behind another one: it starts with a letter. -/
structure IsLaterWord (word : List Char) : Prop extends IsWord word where
  letter : ∀ c ∈ word.head?, c.isLower = true

/-- The words of a setting. -/
inductive AreWords : List (List Char) → Prop
  | cons {first : List Char} {others : List (List Char)} (hfirst : IsWord first)
    (hothers : ∀ word ∈ others, IsLaterWord word) : AreWords (first :: others)

/-- A word with a capital in front. -/
def capitalized : List Char → List Char
  | [] => []
  | c :: rest => c.toUpper :: rest

/-- The words one behind the other, all but the first with a capital in front. -/
def camelCase : List (List Char) → List Char
  | [] => []
  | first :: others => first ++ others.flatMap capitalized

/-- A text of words behind another word, each of them marked by an underscore, a hyphen or a
capital. -/
inductive Continues : List (List Char) → List Char → Prop
  | nil : Continues [] []
  | mark {others : List (List Char)} {text : List Char} {mark : Char} (word : List Char)
    (hmark : mark = '_' ∨ mark = '-') (h : Continues others text) :
    Continues (word :: others) (mark :: (word ++ text))
  | capital {others : List (List Char)} {text : List Char} (word : List Char)
    (h : Continues others text) : Continues (word :: others) (capitalized word ++ text)

/-- What becomes of a character of ASCII. -/
def normalizeChar (c : Char) : Char :=
  (if c = '-' then '_' else c).toLower

variable {word first text key : List Char} {words others : List (List Char)} {c mark : Char}

/-! ## Words -/

theorem isWord_iff : IsWord word ↔ 2 ≤ word.length ∧ word.all endsWord = true := by
  simp only [List.all_eq_true, endsWord, Bool.or_eq_true]
  exact ⟨fun h => ⟨h.long, h.plain⟩, fun h => ⟨h.1, h.2⟩⟩

theorem isLaterWord_iff :
    IsLaterWord word ↔ IsWord word ∧ word.head?.all Char.isLower = true := by
  simp only [Option.all_eq_true, ← Option.mem_def]
  exact ⟨fun h => ⟨h.toIsWord, h.letter⟩, fun h => ⟨h.1, h.2⟩⟩

theorem areWords_cons_iff :
    AreWords (first :: others) ↔ IsWord first ∧ ∀ word ∈ others, IsLaterWord word :=
  ⟨fun h => by cases h with | cons hfirst hothers => exact ⟨hfirst, hothers⟩,
    fun h => .cons h.1 h.2⟩

instance : DecidablePred IsWord := fun _ => decidable_of_iff _ isWord_iff.symm

instance : DecidablePred IsLaterWord := fun _ => decidable_of_iff _ isLaterWord_iff.symm

instance : DecidablePred AreWords
  | [] => .isFalse nofun
  | _ :: _ => decidable_of_iff _ areWords_cons_iff.symm

/-! ## Characters of ASCII -/

/-- The characters of words are in ASCII. -/
theorem ascii_of_endsWord (h : endsWord c = true) : c.toNat < 128 := by
  have hrange {low high : UInt32} (hhigh : high.toNat < 128)
      (h : (decide (c.val ≥ low) && decide (c.val ≤ high)) = true) : c.toNat < 128 :=
    Nat.lt_of_le_of_lt
      (UInt32.le_iff_toNat_le.mp (of_decide_eq_true (Bool.and_eq_true_iff.mp h).2)) hhigh
  rcases (Bool.or_eq_true _ _).mp h with hlower | hdigit
  · exact hrange (by decide : 'z'.val.toNat < 128) hlower
  · exact hrange (by decide : '9'.val.toNat < 128) hdigit

/-- They are not changed, and are no capitals. -/
theorem normalizeChar_of_endsWord (h : endsWord c = true) :
    normalizeChar c = c ∧ c.isUpper = false :=
  Text.forall_ascii (p := fun c => endsWord c = true → normalizeChar c = c ∧ c.isUpper = false)
    (by decide) (ascii_of_endsWord h) h

/-- The capital of a letter becomes that letter. It is a capital, and nothing begins behind it. -/
theorem normalizeChar_toUpper (h : c.isLower = true) :
    normalizeChar c.toUpper = c ∧ c.toUpper.isUpper = true ∧ endsWord c.toUpper = false ∧
      c.toUpper.toNat < 128 := by
  have hword : endsWord c = true := by rw [endsWord, h, Bool.true_or]
  exact Text.forall_ascii (p := fun c => c.isLower = true → normalizeChar c.toUpper = c ∧
    c.toUpper.isUpper = true ∧ endsWord c.toUpper = false ∧ c.toUpper.toNat < 128)
    (by decide) (ascii_of_endsWord hword) h

/-- A mark between words becomes an underscore. It is no capital. -/
theorem normalizeChar_mark (hmark : mark = '_' ∨ mark = '-') :
    normalizeChar mark = '_' ∧ mark.isUpper = false ∧ mark.toNat < 128 := by
  rcases hmark with rfl | rfl <;> decide

/-- A text of ASCII is put into small letters character by character. -/
theorem lowerAfter_of_ascii (h : ∀ c ∈ text, c.toNat < 128) (before : List Char) :
    Text.lowerAfter before text = text.map Char.toLower := by
  induction text generalizing before with
  | nil => rfl
  | cons c rest ih =>
      obtain ⟨hc, hrest⟩ := List.forall_mem_cons.mp h
      have hsigma : ¬ (c.toNat == 0x3A3) = true := by
        rw [beq_iff_eq]
        omega
      rw [Text.lowerAfter, if_neg hsigma, Text.lowerChar, if_pos hc, ih hrest, List.map_cons,
        List.singleton_append]

/-- Only underscores are put between words. -/
theorem mem_of_mem_breakWords {before : Bool} (h : c ∈ breakWords before key) :
    c ∈ key ∨ c = '_' := by
  induction key generalizing before with
  | nil => contradiction
  | cons d rest ih =>
      have hmem : c = '_' ∨ c = d ∨ c ∈ breakWords (endsWord d) rest := by
        unfold breakWords at h
        split at h
        · exact (List.mem_cons.mp h).imp_right List.mem_cons.mp
        · exact .inr (List.mem_cons.mp h)
      rcases hmem with rfl | rfl | h
      · exact .inr rfl
      · exact .inl List.mem_cons_self
      · exact (ih h).imp_left (List.mem_cons_of_mem _)

/-- A key of ASCII is normalized character by character, once its words are told apart. -/
theorem normalizeChars_of_ascii (h : ∀ c ∈ key, c.toNat < 128) :
    normalizeChars key = (breakWords false key).map normalizeChar := by
  rw [normalizeChars, Text.lower, lowerAfter_of_ascii, List.map_map]
  · rfl
  · intro c hc
    obtain ⟨d, hd, rfl⟩ := List.mem_map.mp hc
    split
    · decide
    · rcases mem_of_mem_breakWords hd with hd | rfl
      · exact h d hd
      · decide

/-! ## Words behind each other -/

/-- A word is left as it is, and a capital behind it begins another one. -/
theorem breakWords_append (hword : ∀ c ∈ word, endsWord c = true) (hne : word ≠ [])
    (before : Bool) (rest : List Char) :
    breakWords before (word ++ rest) = word ++ breakWords true rest := by
  induction word generalizing before with
  | nil => exact absurd rfl hne
  | cons c word ih =>
      obtain ⟨hc, hchars⟩ := List.forall_mem_cons.mp hword
      rw [List.cons_append, breakWords, (normalizeChar_of_endsWord hc).2, Bool.and_false,
        if_neg Bool.false_ne_true, hc]
      cases word with
      | nil => rfl
      | cons d word =>
          rw [ih hchars (List.cons_ne_nil _ _)]
          rfl

/-- A word stays as it is in front of what becomes of the rest. -/
theorem map_breakWords_append (hword : ∀ c ∈ word, endsWord c = true) (hne : word ≠ [])
    (before : Bool) (rest : List Char) :
    (breakWords before (word ++ rest)).map normalizeChar =
      word ++ (breakWords true rest).map normalizeChar := by
  have hsame : word.map normalizeChar = word :=
    (List.map_congr_left fun c hc => (normalizeChar_of_endsWord (hword c hc)).1).trans
      (List.map_id word)
  rw [breakWords_append hword hne, List.map_append, hsame]

theorem IsWord.endsWord (h : IsWord word) : ∀ c ∈ word, Key.endsWord c = true :=
  List.all_eq_true.mp (isWord_iff.mp h).2

theorem IsWord.ne_nil (h : IsWord word) : word ≠ [] := by
  rintro rfl
  exact absurd h.long (by decide)

/-- A later word has a letter in front, and something behind that. -/
theorem IsLaterWord.exists_cons (h : IsLaterWord word) :
    ∃ c rest, word = c :: rest ∧ c.isLower = true ∧ rest ≠ [] := by
  match word, h.long, h.letter with
  | c :: d :: rest, _, hletter => exact ⟨c, d :: rest, rfl, hletter c rfl, List.cons_ne_nil _ _⟩

/-- Whatever marks the words, an underscore is put in front of each. -/
theorem Continues.map_breakWords (h : Continues others text)
    (hothers : ∀ word ∈ others, IsLaterWord word) :
    (breakWords true text).map normalizeChar = others.flatMap ('_' :: ·) := by
  induction h with
  | nil => rfl
  | mark word hmark _ ih =>
      obtain ⟨hword, hrest⟩ := List.forall_mem_cons.mp hothers
      obtain ⟨hnormal, hupper, -⟩ := normalizeChar_mark hmark
      rw [breakWords, hupper, Bool.and_false, if_neg Bool.false_ne_true, List.map_cons, hnormal,
        map_breakWords_append hword.endsWord hword.ne_nil, ih hrest]
      rfl
  | capital word _ ih =>
      obtain ⟨hword, hrest⟩ := List.forall_mem_cons.mp hothers
      have hchars := hword.endsWord
      -- What is behind the capital lets the next word begin with a capital as well.
      obtain ⟨c, rest, rfl, hc, hne⟩ := hword.exists_cons
      obtain ⟨hnormal, hupper, hends, -⟩ := normalizeChar_toUpper hc
      rw [capitalized, List.cons_append, breakWords, hupper, Bool.and_self, if_pos rfl, hends,
        List.map_cons, List.map_cons, hnormal,
        map_breakWords_append (List.forall_mem_cons.mp hchars).2 hne, ih hrest]
      rfl

/-- A text of words is in ASCII, whatever marks them. -/
theorem Continues.ascii (h : Continues others text)
    (hothers : ∀ word ∈ others, IsLaterWord word) : ∀ c ∈ text, c.toNat < 128 := by
  induction h with
  | nil => exact List.forall_mem_nil _
  | mark word hmark _ ih =>
      obtain ⟨hword, hrest⟩ := List.forall_mem_cons.mp hothers
      refine List.forall_mem_cons.mpr ⟨(normalizeChar_mark hmark).2.2,
        List.forall_mem_append.mpr ⟨fun c hc => ?_, ih hrest⟩⟩
      exact ascii_of_endsWord (hword.endsWord c hc)
  | capital word _ ih =>
      obtain ⟨hword, hrest⟩ := List.forall_mem_cons.mp hothers
      have hchars := hword.endsWord
      obtain ⟨c, rest, rfl, hc, -⟩ := hword.exists_cons
      refine List.forall_mem_append.mpr ⟨List.forall_mem_cons.mpr ⟨?_, fun d hd => ?_⟩, ih hrest⟩
      · exact (normalizeChar_toUpper hc).2.2.2
      · exact ascii_of_endsWord (hchars d (List.mem_cons_of_mem _ hd))

/-- Whatever marks its words, a setting is normalized to the words with underscores. -/
theorem normalizeChars_of_continues (hfirst : IsWord first)
    (hothers : ∀ word ∈ others, IsLaterWord word) (h : Continues others text) :
    normalizeChars (first ++ text) = Text.joinWith ['_'] (first :: others) := by
  have hascii : ∀ c ∈ first ++ text, c.toNat < 128 :=
    List.forall_mem_append.mpr ⟨fun c hc => ascii_of_endsWord (hfirst.endsWord c hc),
      h.ascii hothers⟩
  rw [normalizeChars_of_ascii hascii, map_breakWords_append hfirst.endsWord hfirst.ne_nil,
    h.map_breakWords hothers]
  exact (Text.joinWith_cons ['_'] first others).symm

/-! ## Three spellings -/

/-- A mark can be in front of every word. -/
theorem continues_mark (hmark : mark = '_' ∨ mark = '-') (others : List (List Char)) :
    Continues others (others.flatMap (mark :: ·)) := by
  induction others with
  | nil => exact .nil
  | cons word others ih => exact .mark word hmark ih

/-- Every word can have a capital. -/
theorem continues_capitalized (others : List (List Char)) :
    Continues others (others.flatMap capitalized) := by
  induction others with
  | nil => exact .nil
  | cons word others ih => exact .capital word ih

/-- Words that are joined by a mark are normalized to the words with underscores. -/
theorem AreWords.normalizeChars_joinWith (h : AreWords words) (hmark : mark = '_' ∨ mark = '-') :
    normalizeChars (Text.joinWith [mark] words) = Text.joinWith ['_'] words := by
  obtain ⟨hfirst, hothers⟩ := h
  rw [Text.joinWith_cons [mark]]
  exact normalizeChars_of_continues hfirst hothers (continues_mark hmark _)

/-- So are words with capitals. -/
theorem AreWords.normalizeChars_camelCase (h : AreWords words) :
    normalizeChars (camelCase words) = Text.joinWith ['_'] words := by
  obtain ⟨hfirst, hothers⟩ := h
  exact normalizeChars_of_continues hfirst hothers (continues_capitalized _)

/-- `camelCase` on strings. -/
def camelString (words : List String) : String :=
  String.ofList (camelCase (words.map String.toList))

end Key

namespace Settings

/-- Assigns a value to the field of a name, if there is one, and takes the name as it is. -/
def assignNamed (noted : Noted) (pair : String × Value) : Except SettingsError Noted :=
  match outerFields.find? (·.name = canonicalKey pair.1) with
  | some field => assignTo field noted pair.2
  | none => .ok noted

/-- The settings that a mapping would give if every key were normalized only once. -/
def ofEntriesOnce (entries : List (Value × Value)) :
    Except SettingsError (Settings × List SettingsWarning) := do
  let (noted, outer) ← entries.foldlM readEntry (({}, []), KeyedList.empty)
  let noted ← outer.entries.foldlM assignNamed noted
  return finish noted

/-- They are the settings that it gives. -/
theorem ofEntriesOnce_eq (entries : List (Value × Value)) :
    ofEntriesOnce entries = ofEntries entries := by
  rw [ofEntries_eq, steps, performAll_append]
  show (entries.foldlM readEntry (({}, []), .empty)).bind _ = _
  rw [foldlM_readEntry]
  cases performAll ({}, []) (entries.flatMap entrySteps) with
  | error error => rfl
  | ok noted =>
      show ((collected entries).foldlM assignNamed noted).bind _ =
        (performAll noted (outerSteps entries)).map finish
      rw [outerSteps, performAll, List.foldlM_map]
      rfl

end Settings

namespace Key

/-- A setting has one normalized name: of any words that can name one, the spellings with
underscores, with hyphens and with capitals are all brought to the one with underscores. A
normalized key stays as it is, so a mapping gives the settings that it would give if the keys
outside of its sections were not normalized once more. -/
theorem normalize_spellings :
    (∀ words : List String, AreWords (words.map String.toList) →
      normalize (Text.joinStrings "_" words) = Text.joinStrings "_" words ∧
      normalize (Text.joinStrings "-" words) = Text.joinStrings "_" words ∧
      normalize (camelString words) = Text.joinStrings "_" words) ∧
    (∀ key, normalize (normalize key) = normalize key) ∧
    ∀ entries, Settings.ofEntriesOnce entries = Settings.ofEntries entries := by
  refine ⟨fun words hwords => ?_, normalize_normalize, Settings.ofEntriesOnce_eq⟩
  have hstring {text : List Char}
      (h : normalizeChars text = Text.joinWith ['_'] (words.map String.toList)) :
      normalize (String.ofList text) = Text.joinStrings "_" words := by
    rw [normalize, String.toList_ofList, h]
    rfl
  exact ⟨hstring (hwords.normalizeChars_joinWith (.inl rfl)),
    hstring (hwords.normalizeChars_joinWith (.inr rfl)), hstring hwords.normalizeChars_camelCase⟩

/-- Digits at the start of the first word, behind a letter, and at the end. -/
theorem normalize_spellings_with_digits :
    AreWords (["4th", "c0", "order2"].map String.toList) ∧
      normalize "4th_c0_order2" = "4th_c0_order2" ∧ normalize "4th-c0-order2" = "4th_c0_order2" ∧
      normalize "4thC0Order2" = "4th_c0_order2" := by
  have hwords : AreWords (["4th", "c0", "order2"].map String.toList) := by decide
  have hspellings : Text.joinStrings "_" ["4th", "c0", "order2"] = "4th_c0_order2" ∧
      Text.joinStrings "-" ["4th", "c0", "order2"] = "4th-c0-order2" ∧
      camelString ["4th", "c0", "order2"] = "4thC0Order2" := by
    decide
  obtain ⟨hunderscores, hhyphens, hcapitals⟩ := normalize_spellings.1 _ hwords
  rw [hspellings.1] at hunderscores hhyphens hcapitals
  rw [hspellings.2.1] at hhyphens
  rw [hspellings.2.2] at hcapitals
  exact ⟨hwords, hunderscores, hhyphens, hcapitals⟩

/-- A word of one letter is not told apart from the word behind it. -/
example : normalize "isARegion" = "is_aregion" := by decide +kernel

end Key

end CommentIndex
