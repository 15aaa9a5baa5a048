import CommentIndex.Attributes
import CommentIndex.Proofs.Text.Integers

/-!
# The fields that count

A block is made of the pieces between its commas, and some of these are fields of a key. Of all the
pieces, the attributes are told by the last field of each of three keys: `read_of_last_fields` says
what they are, and so which pieces can be taken out and which can be moved.
-/

namespace CommentIndex.Attributes

/-- The pieces of a block. -/
def piecesOf (block : Option (List Char)) : List (List Char) :=
  Text.splitAtEach ',' (block.getD [])

/-- The block that some pieces make up. -/
def ofPieces (pieces : List (List Char)) : Option (List Char) :=
  some (Text.joinWith [','] pieces)

/-- A piece gives a value for a key: the key is in front of its first equals sign, in any case, and
the value is all that is behind it, both between blanks. -/
def Gives (piece key value : List Char) : Prop :=
  ∃ name behind, piece = name ++ '=' :: behind ∧ '=' ∉ name ∧
    Text.lower (Text.strip name) = key ∧ Text.strip behind = value

/-- A piece that gives a value for a key. -/
def IsFieldOf (key piece : List Char) : Prop :=
  ∃ value, Gives piece key value

/-- The last of some pieces that is a field of the key gives this value. -/
def IsLast (pieces : List (List Char)) (key value : List Char) : Prop :=
  ∃ before piece after, pieces = before ++ piece :: after ∧ Gives piece key value ∧
    ∀ later ∈ after, ¬ IsFieldOf key later

/-- The keys that count. -/
def keys : List (List Char) :=
  ["seq".toList, "epic".toList, "id".toList]

/-- What the last fields among some pieces say: a `seq` is taken if it is an integer, and an epic or
an id if it is not empty. -/
structure IsSaidBy (pieces : List (List Char)) (line : Int) (attributes : Attributes) : Prop where
  seq : ∀ value seq, IsLast pieces "seq".toList value → Text.WritesInt value seq →
    attributes.seq = seq
  line : (∀ value seq, IsLast pieces "seq".toList value → ¬ Text.WritesInt value seq) →
    attributes.seq = line
  epic : ∀ epic, attributes.epic = some epic ↔
    IsLast pieces "epic".toList epic.toList ∧ epic ≠ ""
  id : ∀ id, attributes.id = some id ↔ IsLast pieces "id".toList id.toList ∧ id ≠ ""

/-- A piece that makes no difference where it stands, in front of some others: it is no field, or
one of a key that does not count, or there is a later one of its key. -/
inductive IsSpare (after : List (List Char)) (piece : List Char) : Prop
  | noField (h : '=' ∉ piece)
  | otherKey {key : List Char} (h : IsFieldOf key piece) (hkey : key ∉ keys)
  | earlier {key : List Char} (h : IsFieldOf key piece)
    (hlater : ∃ later ∈ after, IsFieldOf key later)

variable {piece key value : List Char} {pieces after : List (List Char)}
  {block other : Option (List Char)}

/-! ## Pieces -/

/-- A field is what is before and behind its first equals sign. -/
theorem field?_append {name : List Char} (h : '=' ∉ name) (behind : List Char) :
    field? (name ++ '=' :: behind) = some (Text.lower (Text.strip name), Text.strip behind) := by
  rw [field?, Text.cutAtFirst_append h]

/-- A field is read from a piece that gives its value for its key. -/
theorem field?_eq_some_iff : field? piece = some (key, value) ↔ Gives piece key value := by
  constructor
  · intro h
    unfold field? at h
    split at h
    · next name behind hcut =>
        obtain ⟨hkey, hvalue⟩ := Prod.mk.inj (Option.some.inj h)
        exact ⟨name, behind, Text.text_of_cutAtFirst hcut, Text.notMem_of_cutAtFirst hcut, hkey,
          hvalue⟩
    · contradiction
  · rintro ⟨name, behind, rfl, hname, rfl, rfl⟩
    exact field?_append hname behind

/-- A piece is a field of the key that is read from it. -/
theorem isFieldOf_iff : IsFieldOf key piece ↔ (field? piece).map (·.1) = some key := by
  unfold IsFieldOf
  simp only [← field?_eq_some_iff, Option.map_eq_some_iff, Prod.exists]
  constructor
  · rintro ⟨value, h⟩
    exact ⟨key, value, h, rfl⟩
  · rintro ⟨_, value, h, rfl⟩
    exact ⟨value, h⟩

instance : Decidable (IsFieldOf key piece) :=
  decidable_of_iff' _ isFieldOf_iff

/-- A piece without an equals sign is no field. -/
theorem not_isFieldOf_of_notMem (h : '=' ∉ piece) : ¬ IsFieldOf key piece := by
  rintro ⟨value, name, behind, rfl, -⟩
  exact h (List.mem_append_right _ List.mem_cons_self)

/-- A piece is a field of one key at most. -/
theorem IsFieldOf.unique {otherKey : List Char} (h : IsFieldOf key piece)
    (hother : IsFieldOf otherKey piece) : key = otherKey :=
  Option.some.inj ((isFieldOf_iff.mp h).symm.trans (isFieldOf_iff.mp hother))

/-! ## The last field of a key -/

/-- The value that the last field of a key gives. -/
def last? (key : List Char) (pieces : List (List Char)) : Option (List Char) :=
  ((pieces.filterMap field?).reverse.find? (·.1 = key)).map (·.2)

/-- What is last among the pieces behind comes before what is last among those in front. -/
theorem last?_append (key : List Char) (first second : List (List Char)) :
    last? key (first ++ second) = (last? key second).or (last? key first) := by
  simp only [last?, List.filterMap_append, List.reverse_append, List.find?_append, Option.map_or]

theorem last?_cons (key piece : List Char) (rest : List (List Char)) :
    last? key (piece :: rest) = (last? key rest).or (last? key [piece]) :=
  last?_append key [piece] rest

/-- A piece by itself gives the value that it gives. -/
theorem last?_singleton : last? key [piece] = some value ↔ Gives piece key value := by
  rw [← field?_eq_some_iff, last?, List.filterMap_cons, List.filterMap_nil]
  cases field? piece with
  | none => simp
  | some pair => by_cases h : pair.1 = key <;> simp [h, Prod.ext_iff]

/-- A piece that is no field of the key gives none. -/
theorem last?_singleton_eq_none_iff : last? key [piece] = none ↔ ¬ IsFieldOf key piece := by
  rw [Option.eq_none_iff_forall_ne_some, IsFieldOf, not_exists]
  exact forall_congr' fun value => not_congr last?_singleton

/-- There is no value without a field of the key. -/
theorem last?_eq_none_iff :
    last? key pieces = none ↔ ∀ piece ∈ pieces, ¬ IsFieldOf key piece := by
  induction pieces with
  | nil => simp [last?]
  | cons piece rest ih =>
      rw [last?_cons, Option.or_eq_none_iff, ih, last?_singleton_eq_none_iff, List.forall_mem_cons,
        and_comm]

/-- The value is that of the last field of the key. -/
theorem last?_eq_some_iff : last? key pieces = some value ↔ IsLast pieces key value := by
  constructor
  · intro h
    induction pieces with
    | nil => contradiction
    | cons piece rest ih =>
        rw [last?_cons, Option.or_eq_some_iff] at h
        rcases h with hrest | ⟨hnone, hpiece⟩
        · obtain ⟨before, last, after, rfl, hlast⟩ := ih hrest
          exact ⟨piece :: before, last, after, rfl, hlast⟩
        · exact ⟨[], piece, rest, rfl, last?_singleton.mp hpiece, last?_eq_none_iff.mp hnone⟩
  · rintro ⟨before, piece, after, rfl, hpiece, hafter⟩
    rw [last?_append, last?_cons, last?_eq_none_iff.mpr hafter, last?_singleton.mpr hpiece,
      Option.none_or, Option.some_or]

/-- The value of a field has no blanks around it. -/
theorem IsLast.strip_eq (h : IsLast pieces key value) : Text.strip value = value := by
  obtain ⟨_, _, _, -, ⟨_, behind, -, -, -, rfl⟩, -⟩ := h
  exact Text.strip_strip behind

/-- A value is read from a block if the last field of its key gives it and it is not empty. -/
theorem value?_eq_some_iff {key : String} : value? (fields (block.getD [])) key = some value ↔
    IsLast (piecesOf block) key.toList value ∧ value ≠ [] := by
  show ((last? key.toList (piecesOf block)).filter (· ≠ [])) = some value ↔ _
  rw [Option.filter_eq_some_iff, last?_eq_some_iff, decide_eq_true_iff]

/-- Blocks with the same last fields of the keys that count are read alike. -/
theorem read_eq_of_last?
    (h : ∀ key ∈ keys, last? key (piecesOf other) = last? key (piecesOf block)) (line : Int) :
    read other line = read block line := by
  have hvalue (key : String) (hkey : key.toList ∈ keys) :
      value? (fields (other.getD [])) key = value? (fields (block.getD [])) key :=
    congrArg (Option.filter (· ≠ [])) (h _ hkey)
  simp only [read, hvalue "seq" (by decide), hvalue "epic" (by decide), hvalue "id" (by decide)]

/-- What is read from a block is what its last fields say. -/
theorem isSaidBy_read (block : Option (List Char)) (line : Int) :
    IsSaidBy (piecesOf block) line (read block line) := by
  have htext (key : String) (text : String) :
      (value? (fields (block.getD [])) key).map String.ofList = some text ↔
        IsLast (piecesOf block) key.toList text.toList ∧ text ≠ "" := by
    rw [Option.map_eq_some_iff]
    constructor
    · rintro ⟨value, hvalue, rfl⟩
      simpa using value?_eq_some_iff.mp hvalue
    · rintro ⟨hlast, hne⟩
      exact ⟨text.toList, value?_eq_some_iff.mpr ⟨hlast, by simpa using hne⟩, by simp⟩
  have hseq {seq : Int} : (value? (fields (block.getD [])) "seq").bind Text.readInt? = some seq ↔
      ∃ value, IsLast (piecesOf block) "seq".toList value ∧ Text.WritesInt value seq := by
    rw [Option.bind_eq_some_iff]
    refine exists_congr fun value => ?_
    rw [value?_eq_some_iff, and_assoc]
    refine and_congr_right fun hlast => ?_
    rw [Text.readInt?_eq_some_iff hlast.strip_eq]
    exact and_iff_right_of_imp fun hwrites => hwrites.ne_nil
  constructor
  case seq =>
    intro value seq hlast hwrites
    show Option.getD _ line = seq
    rw [hseq.mpr ⟨value, hlast, hwrites⟩]
    rfl
  case line =>
    intro h
    have hnone : (value? (fields (block.getD [])) "seq").bind Text.readInt? = none := by
      rw [Option.eq_none_iff_forall_ne_some]
      intro seq hsome
      obtain ⟨value, hlast, hwrites⟩ := hseq.mp hsome
      exact h value seq hlast hwrites
    show Option.getD _ line = line
    rw [hnone]
    rfl
  case epic => exact htext "epic"
  case id => exact htext "id"

/-! ## Blocks put together -/

/-- There is no comma in a piece of a block. -/
theorem notMem_of_mem_piecesOf (h : piece ∈ piecesOf block) : ',' ∉ piece :=
  Text.notMem_of_mem_splitAtEach h

/-- The last fields of a block are those of the pieces that make it up. -/
theorem last?_piecesOf_ofPieces (h : ∀ piece ∈ pieces, ',' ∉ piece) (key : List Char) :
    last? key (piecesOf (ofPieces pieces)) = last? key pieces := by
  cases pieces with
  | nil =>
      have hpieces : piecesOf (ofPieces []) = [[]] := rfl
      rw [hpieces, last?_singleton_eq_none_iff.mpr (not_isFieldOf_of_notMem List.not_mem_nil)]
      rfl
  | cons piece rest =>
      rw [piecesOf, ofPieces, Option.getD_some, Text.splitAtEach_joinWith (List.cons_ne_nil _ _) h]

/-- Pieces of a block are read as the whole block, if they have the same last fields. -/
theorem read_ofPieces (hpieces : ∀ piece ∈ pieces, piece ∈ piecesOf block)
    (h : ∀ key ∈ keys, last? key pieces = last? key (piecesOf block)) (line : Int) :
    read (ofPieces pieces) line = read block line := by
  refine read_eq_of_last? (fun key hkey => ?_) line
  rw [last?_piecesOf_ofPieces fun piece hpiece => notMem_of_mem_piecesOf (hpieces piece hpiece)]
  exact h key hkey

/-- A spare piece can be taken out. -/
theorem IsSpare.last?_eq (h : IsSpare after piece) (hkey : key ∈ keys)
    (before : List (List Char)) :
    last? key (before ++ after) = last? key (before ++ piece :: after) := by
  rw [last?_append, last?_append, last?_cons key piece]
  by_cases hfield : IsFieldOf key piece
  · -- It counts for the key, so there is a later field.
    have hlater : last? key after ≠ none := by
      rw [Ne, last?_eq_none_iff]
      intro hnone
      cases h with
      | noField h => exact not_isFieldOf_of_notMem h hfield
      | otherKey h hother => exact hother (hfield.unique h ▸ hkey)
      | earlier h hlater =>
          obtain ⟨later, hmem, hlater⟩ := hlater
          exact hnone later hmem (h.unique hfield ▸ hlater)
    obtain ⟨value, hvalue⟩ := Option.ne_none_iff_exists'.mp hlater
    rw [hvalue, Option.some_or, Option.some_or, Option.some_or]
  · rw [last?_singleton_eq_none_iff.mpr hfield, Option.or_none]

/-- Only the fields of the key decide which of them is last. -/
theorem last?_filter (key : List Char) (pieces : List (List Char)) :
    last? key (pieces.filter (IsFieldOf key ·)) = last? key pieces := by
  induction pieces with
  | nil => rfl
  | cons piece rest ih =>
      by_cases h : IsFieldOf key piece
      · rw [List.filter_cons, if_pos (decide_eq_true h), last?_cons, ih, ← last?_cons]
      · rw [List.filter_cons, if_neg (by simpa using h), ih, last?_cons key piece,
          last?_singleton_eq_none_iff.mpr h, Option.or_none]

/-! ## Pieces in another order -/

/-- The same pieces in another order, in which the fields of each key keep theirs. -/
structure IsReordered (pieces reordered : List (List Char)) : Prop where
  perm : reordered.Perm pieces
  fields : ∀ key, reordered.filter (IsFieldOf key ·) = pieces.filter (IsFieldOf key ·)

/-- Two pieces that are no fields of one key. -/
def DifferInKey (first second : List Char) : Prop :=
  ∀ key, IsFieldOf key first → ¬ IsFieldOf key second

/-- It is enough to look at the keys of which there are fields. -/
theorem isReordered_iff {reordered : List (List Char)} : IsReordered pieces reordered ↔
    reordered.Perm pieces ∧ ∀ pair ∈ pieces.filterMap field?,
      reordered.filter (IsFieldOf pair.1 ·) = pieces.filter (IsFieldOf pair.1 ·) := by
  constructor
  · intro h
    exact ⟨h.perm, fun pair _ => h.fields pair.1⟩
  · rintro ⟨hperm, hfields⟩
    refine ⟨hperm, fun key => ?_⟩
    by_cases hkey : ∃ piece ∈ pieces, IsFieldOf key piece
    · obtain ⟨piece, hpiece, value, hfield⟩ := hkey
      exact hfields (key, value)
        (List.mem_filterMap.mpr ⟨piece, hpiece, field?_eq_some_iff.mpr hfield⟩)
    · have hnone : pieces.filter (IsFieldOf key ·) = [] := by
        simpa [List.filter_eq_nil_iff] using hkey
      have hfilter := hperm.filter (IsFieldOf key ·)
      rw [hnone] at hfilter ⊢
      exact hfilter.eq_nil

instance {reordered : List (List Char)} : Decidable (IsReordered pieces reordered) :=
  decidable_of_iff' _ isReordered_iff

/-- Pieces differ in key if the second is no field of the key of the first. -/
theorem differInKey_iff {first second : List Char} :
    DifferInKey first second ↔ ∀ pair ∈ field? first, ¬ IsFieldOf pair.1 second := by
  constructor
  · intro h pair hpair
    exact h pair.1 ⟨pair.2, field?_eq_some_iff.mp hpair⟩
  · rintro h key ⟨value, hfield⟩
    exact h (key, value) (field?_eq_some_iff.mpr hfield)

instance {first second : List Char} : Decidable (DifferInKey first second) :=
  decidable_of_iff' _ differInKey_iff

/-- Among pieces of different keys there is at most one field of a key. -/
theorem filter_of_pairwise (h : pieces.Pairwise DifferInKey) (key : List Char) :
    pieces.filter (IsFieldOf key ·) = [] ∨ ∃ piece, pieces.filter (IsFieldOf key ·) = [piece] := by
  have hfields : ∀ piece ∈ pieces.filter (IsFieldOf key ·), IsFieldOf key piece := fun piece hmem =>
    of_decide_eq_true (List.mem_filter.mp hmem).2
  have hdiffer := h.filter (IsFieldOf key ·)
  match hlist : pieces.filter (IsFieldOf key ·) with
  | [] => exact .inl rfl
  | [piece] => exact .inr ⟨piece, rfl⟩
  | first :: second :: rest =>
      rw [hlist] at hfields hdiffer
      have hfirst := hfields first List.mem_cons_self
      have hsecond := hfields second (List.mem_cons_of_mem _ List.mem_cons_self)
      exact absurd hsecond (List.rel_of_pairwise_cons hdiffer List.mem_cons_self key hfirst)

/-- Pieces of different keys that stand beside each other can be put in any order. -/
theorem isReordered_of_pairwise {run reordered : List (List Char)}
    (hdiffer : run.Pairwise DifferInKey) (hperm : reordered.Perm run)
    (before after : List (List Char)) :
    IsReordered (before ++ run ++ after) (before ++ reordered ++ after) where
  perm := (hperm.append_left before).append_right after
  fields key := by
    have hfilter : (reordered.filter (IsFieldOf key ·)).Perm (run.filter (IsFieldOf key ·)) :=
      hperm.filter _
    have hsame : reordered.filter (IsFieldOf key ·) = run.filter (IsFieldOf key ·) := by
      rcases filter_of_pairwise hdiffer key with hnone | ⟨piece, hone⟩
      · rw [hnone] at hfilter ⊢
        exact hfilter.eq_nil
      · rw [hone] at hfilter ⊢
        exact List.perm_singleton.mp hfilter
    simp only [List.filter_append, hsame]

/-- Pieces of a block in another order are read as the block, if fields of one key keep theirs. -/
theorem IsReordered.read_eq {reordered : List (List Char)}
    (h : IsReordered (piecesOf block) reordered) (line : Int) :
    read (ofPieces reordered) line = read block line := by
  refine read_ofPieces (fun piece hpiece => h.perm.mem_iff.mp hpiece) (fun key _ => ?_) line
  rw [← last?_filter key reordered, h.fields, last?_filter]

/-- The attributes that are read from a block are told by the last fields of `seq`, `epic` and `id`
in it, and by the line where the last `seq` is no integer. So two blocks with the same last fields
are read alike; a piece that is no field, is one of another key, or has one of its key behind it can
be taken out of the block; and the pieces can be put in another order as long as no two fields of
one key pass each other, as none do where neighbours of different keys are moved among themselves. -/
theorem read_of_last_fields (block : Option (List Char)) (line : Int) :
    IsSaidBy (piecesOf block) line (read block line) ∧
    (∀ other, (∀ key ∈ keys, ∀ value,
        IsLast (piecesOf other) key value ↔ IsLast (piecesOf block) key value) →
      read other line = read block line) ∧
    (∀ before piece after, piecesOf block = before ++ piece :: after → IsSpare after piece →
      read (ofPieces (before ++ after)) line = read block line) ∧
    (∀ reordered, IsReordered (piecesOf block) reordered →
      read (ofPieces reordered) line = read block line) ∧
    ∀ before run after reordered, piecesOf block = before ++ run ++ after →
      run.Pairwise DifferInKey → reordered.Perm run →
        read (ofPieces (before ++ reordered ++ after)) line = read block line := by
  refine ⟨isSaidBy_read block line, ?_, ?_, fun _ h => h.read_eq line, ?_⟩
  · intro other h
    refine read_eq_of_last? (fun key hkey => Option.ext fun value => ?_) line
    rw [last?_eq_some_iff, last?_eq_some_iff, h key hkey]
  · intro before piece after hpieces hspare
    refine read_ofPieces (fun other hother => ?_) (fun key hkey => ?_) line
    · rw [hpieces]
      exact List.mem_append.mpr ((List.mem_append.mp hother).imp_right (List.mem_cons_of_mem _))
    · rw [hpieces]
      exact hspare.last?_eq hkey before
  · intro before run after reordered hpieces hdiffer hperm
    have hreordered := isReordered_of_pairwise hdiffer hperm before after
    rw [← hpieces] at hreordered
    exact hreordered.read_eq line

/-- Keys and numbers in unusual spellings, an equals sign inside a value, an id that is empty, and
pieces that are taken out and moved. -/
theorem read_of_last_fields_respelled :
    let block := some "SEQ = 5,junk,Epic=b=c,seq= +0_12 ,id=".toList
    let attributes : Attributes := { seq := 12, epic := some "b=c" }
    IsSaidBy (piecesOf block) 9 attributes ∧
      read (some "EPIC= b=c,Id,id =,Seq=+0_12".toList) 9 = attributes ∧
      read (some "junk,Epic=b=c,seq= +0_12 ,id=".toList) 9 = attributes ∧
      read (some "id=,Epic=b=c,SEQ = 5,junk,seq= +0_12 ".toList) 9 = attributes ∧
      read (some "SEQ = 5,seq= +0_12 ,junk,Epic=b=c,id=".toList) 9 = attributes := by
  intro block attributes
  have hread : read block 9 = attributes := by decide +kernel
  obtain ⟨hsaid, hsame, hspare, hreordered, hrun⟩ := read_of_last_fields block 9
  rw [hread] at hsaid hsame hspare hreordered hrun
  have hlast : ∀ key ∈ keys, last? key (piecesOf (some "EPIC= b=c,Id,id =,Seq=+0_12".toList)) =
      last? key (piecesOf block) := by
    decide +kernel
  have hpieces : piecesOf block = ["SEQ = 5".toList] ++
      ["junk".toList, "Epic=b=c".toList, "seq= +0_12 ".toList] ++ ["id=".toList] := by
    decide +kernel
  refine ⟨hsaid, ?_, ?_, ?_, ?_⟩
  · refine hsame _ fun key hkey value => ?_
    rw [← last?_eq_some_iff, ← last?_eq_some_iff, hlast key hkey]
  · have hfield : IsFieldOf "seq".toList "SEQ = 5".toList := by decide +kernel
    refine hspare [] _ _ hpieces (.earlier hfield ?_)
    decide +kernel
  · refine hreordered ["id=".toList, "Epic=b=c".toList, "SEQ = 5".toList, "junk".toList,
      "seq= +0_12 ".toList] ?_
    decide +kernel
  · refine hrun _ _ _ ["seq= +0_12 ".toList, "junk".toList, "Epic=b=c".toList] hpieces ?_ ?_
    · decide +kernel
    · decide +kernel

end CommentIndex.Attributes
