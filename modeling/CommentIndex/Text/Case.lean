import CommentIndex.Text.CaseTable

/-!
# Letter case

`upper` and `lower` are the full case mappings of Unicode, in which one character may become
several; a capital sigma that ends a word has a small form of its own. `sameLetter` compares two
characters with case ignored: it uses the mappings of single characters only, so it never sets
one character equal to several.
-/

namespace CommentIndex.Text

/-- The characters with the given code points. -/
def ofCodePoints (codes : List Nat) : List Char :=
  codes.map Char.ofNat

/-- The capital form of a character. -/
def upperChar (c : Char) : List Char :=
  if c.toNat < 128 then [c.toUpper]
  else match upperExpansions.lookup c.toNat with
    | some codes => ofCodePoints codes
    | none => [((CaseRun.find? c.toNat upperRuns).map Char.ofNat).getD c]

/-- The small form of a character, wherever it stands. -/
def lowerChar (c : Char) : List Char :=
  if c.toNat < 128 then [c.toLower]
  else match lowerExpansions.lookup c.toNat with
    | some codes => ofCodePoints codes
    | none => [((CaseRun.find? c.toNat lowerRuns).map Char.ofNat).getD c]

/-- Whether `c` is a letter with case that counts at the edge of a word. -/
def isCased (c : Char) : Bool :=
  if c.toNat < 128 then c.isAlpha else casedRanges.contains c.toNat

/-- Whether `c` may stand inside or beside a word without ending it. -/
def isCaseIgnorable (c : Char) : Bool :=
  if c.toNat < 128 then [39, 46, 58, 94, 96].contains c.toNat
  else caseIgnorableRanges.contains c.toNat

/-- Whether the nearest character that is not ignorable is a cased letter. -/
def meetsCased (text : List Char) : Bool :=
  match text.dropWhile isCaseIgnorable with
  | [] => false
  | c :: _ => isCased c

/-- The small form of `rest`, where `before` holds what precedes it, last character first. -/
def lowerAfter (before : List Char) : List Char → List Char
  | [] => []
  | c :: rest =>
    let small :=
      if c.toNat == 0x3A3 then
        [Char.ofNat (if meetsCased before && !meetsCased rest then 0x3C2 else 0x3C3)]
      else lowerChar c
    small ++ lowerAfter (c :: before) rest

/-- The text in capitals. -/
def upper (text : List Char) : List Char :=
  text.flatMap upperChar

/-- The text in small letters. -/
def lower (text : List Char) : List Char :=
  lowerAfter [] text

/-- `upper` on strings. -/
def upperString (text : String) : String :=
  String.ofList (upper text.toList)

/-- `lower` on strings. -/
def lowerString (text : String) : String :=
  String.ofList (lower text.toList)

/-- The one-character small form of `c`: the first character of its small form. -/
def smallLetter (c : Char) : Char :=
  (lowerChar c).headD c

/-- The one-character capital form of `c`: the first character of its capital form. -/
def capitalLetter (c : Char) : Char :=
  (upperChar c).headD c

/-- Whether `c` has another form in the other case. -/
def hasCase (c : Char) : Bool :=
  smallLetter c != c || capitalLetter c != c

/-- Whether `c`, met in a text, stands for the letter `wanted` when case is ignored. A character
without case stands only for itself. -/
def sameLetter (wanted c : Char) : Bool :=
  if hasCase wanted then
    let small := smallLetter wanted
    let met := smallLetter c
    met == small || ((caseEquivalents.lookup small.toNat).getD []).contains met.toNat
  else c == wanted

/-- Whether `c` stands for `wanted`, with case told apart or ignored. -/
def matchesLetter (matchCase : Bool) (wanted c : Char) : Bool :=
  if matchCase then c == wanted else sameLetter wanted c

/-- Capitals are taken character by character. -/
theorem upper_append (first second : List Char) :
    upper (first ++ second) = upper first ++ upper second :=
  List.flatMap_append

/-- Every character stands for itself, with or without case. -/
theorem matchesLetter_self (matchCase : Bool) (c : Char) : matchesLetter matchCase c c = true := by
  unfold matchesLetter sameLetter
  split <;> simp

end CommentIndex.Text
