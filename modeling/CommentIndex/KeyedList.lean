/-!
# Lists of entries with a key

A `KeyedList` keeps its entries in the order in which their keys first came in. Writing under a
key that is present replaces the value in place. The lemmas give what `find?` sees after each
operation, and that distinct keys stay distinct.
-/

namespace CommentIndex

/-- Entries in order of the first insertion of their keys. -/
structure KeyedList (κ α : Type) where
  entries : List (κ × α)
deriving Repr, DecidableEq

namespace KeyedList

variable {κ α : Type} [DecidableEq κ]

/-- No entries. -/
def empty : KeyedList κ α := ⟨[]⟩

instance : Inhabited (KeyedList κ α) := ⟨empty⟩

/-- The value of the first of the pairs whose key is `key`. -/
def findIn? (key : κ) : List (κ × α) → Option α
  | [] => none
  | (k, value) :: rest => if k = key then some value else findIn? key rest

/-- The pairs with `value` under `key`, in the place of its first pair or else at the end. -/
def insertIn (key : κ) (value : α) : List (κ × α) → List (κ × α)
  | [] => [(key, value)]
  | (k, old) :: rest =>
    if k = key then (k, value) :: rest else (k, old) :: insertIn key value rest

/-- The value under `key`. -/
def find? (list : KeyedList κ α) (key : κ) : Option α :=
  findIn? key list.entries

/-- Whether there is a value under `key`. -/
def contains (list : KeyedList κ α) (key : κ) : Bool :=
  (list.find? key).isSome

/-- The list with `value` under `key`. -/
def insert (list : KeyedList κ α) (key : κ) (value : α) : KeyedList κ α :=
  ⟨insertIn key value list.entries⟩

/-- The list without the entry of `key`. -/
def erase (list : KeyedList κ α) (key : κ) : KeyedList κ α :=
  ⟨list.entries.filter (·.1 ≠ key)⟩

/-- The keys in order. -/
def keys (list : KeyedList κ α) : List κ :=
  list.entries.map (·.1)

/-- The values in order of their keys. -/
def values (list : KeyedList κ α) : List α :=
  list.entries.map (·.2)

/-- The number of entries. -/
def size (list : KeyedList κ α) : Nat :=
  list.entries.length

/-- The pairs inserted one after the other. -/
def ofList (pairs : List (κ × α)) : KeyedList κ α :=
  pairs.foldl (fun list pair => list.insert pair.1 pair.2) empty

theorem findIn?_insertIn_self (key : κ) (value : α) (pairs : List (κ × α)) :
    findIn? key (insertIn key value pairs) = some value := by
  induction pairs with
  | nil => simp [insertIn, findIn?]
  | cons pair rest ih =>
      unfold insertIn
      split <;> simp_all [findIn?]

theorem findIn?_insertIn_ne {key other : κ} (h : other ≠ key) (value : α)
    (pairs : List (κ × α)) : findIn? other (insertIn key value pairs) = findIn? other pairs := by
  induction pairs with
  | nil => simp [insertIn, findIn?, Ne.symm h]
  | cons pair rest ih =>
      unfold insertIn
      split
      · next hk => simp [findIn?, hk, Ne.symm h]
      · simp [findIn?, ih]

/-- A value is found under the key it was put under. -/
@[simp] theorem find?_insert_self (list : KeyedList κ α) (key : κ) (value : α) :
    (list.insert key value).find? key = some value :=
  findIn?_insertIn_self key value list.entries

/-- Writing under one key leaves the others alone. -/
theorem find?_insert_ne (list : KeyedList κ α) {key other : κ} (h : other ≠ key) (value : α) :
    (list.insert key value).find? other = list.find? other :=
  findIn?_insertIn_ne h value list.entries

/-- Nothing is found under an erased key. -/
@[simp] theorem find?_erase_self (list : KeyedList κ α) (key : κ) :
    (list.erase key).find? key = none := by
  unfold find? erase
  induction list.entries with
  | nil => rfl
  | cons pair rest ih => by_cases h : pair.1 = key <;> simp_all [findIn?]

/-- Erasing one key leaves the others alone. -/
theorem find?_erase_ne (list : KeyedList κ α) {key other : κ} (h : other ≠ key) :
    (list.erase key).find? other = list.find? other := by
  unfold find? erase
  induction list.entries with
  | nil => rfl
  | cons pair rest ih =>
      by_cases hk : pair.1 = key
      · have : pair.1 ≠ other := fun e => h (e.symm.trans hk)
        simp_all [findIn?]
      · simp_all [findIn?]

@[simp] theorem find?_empty (key : κ) : (empty : KeyedList κ α).find? key = none := rfl

/-- What is found once a value has been put under a key. -/
theorem find?_insert (list : KeyedList κ α) (key other : κ) (value : α) :
    (list.insert key value).find? other = if other = key then some value else list.find? other := by
  by_cases h : other = key
  · simp [h]
  · rw [if_neg h, find?_insert_ne list h]

/-- What is found once a key has been erased. -/
theorem find?_erase (list : KeyedList κ α) (key other : κ) :
    (list.erase key).find? other = if other = key then none else list.find? other := by
  by_cases h : other = key
  · simp [h]
  · rw [if_neg h, find?_erase_ne list h]

/-- The keys are those under which something is found. -/
theorem mem_keys_iff (list : KeyedList κ α) (key : κ) :
    key ∈ list.keys ↔ (list.find? key).isSome := by
  unfold find? keys
  induction list.entries with
  | nil => simp [findIn?]
  | cons pair rest ih =>
      by_cases h : pair.1 = key
      · simp [findIn?, h]
      · simp [findIn?, h, ih, Ne.symm h]

/-- Putting a value under a key keeps the keys, or adds the new one at the end. -/
theorem keys_insert (list : KeyedList κ α) (key : κ) (value : α) :
    (list.insert key value).keys = if key ∈ list.keys then list.keys else list.keys ++ [key] := by
  unfold insert keys
  induction list.entries with
  | nil => simp [insertIn]
  | cons pair rest ih =>
      by_cases h : pair.1 = key
      · simp [insertIn, h]
      · simp only [insertIn, h, if_false, List.map_cons, ih, List.mem_cons, Ne.symm h, false_or]
        split <;> simp

/-- Erasing a key leaves the other keys. -/
theorem keys_erase (list : KeyedList κ α) (key : κ) :
    (list.erase key).keys = list.keys.filter (· ≠ key) := by
  unfold erase keys
  rw [List.filter_map]
  rfl

/-- The pairs once a value has been put under a key are the new one and old ones. -/
theorem mem_insertIn {key : κ} {value : α} {pairs : List (κ × α)} {pair : κ × α}
    (h : pair ∈ insertIn key value pairs) : pair = (key, value) ∨ pair ∈ pairs := by
  induction pairs with
  | nil => exact .inl (List.mem_singleton.mp h)
  | cons first rest ih =>
      unfold insertIn at h
      split at h
      · next hkey =>
          rcases List.mem_cons.mp h with rfl | h
          · exact .inl (by rw [hkey])
          · exact .inr (List.mem_cons_of_mem _ h)
      · rcases List.mem_cons.mp h with rfl | h
        · exact .inr List.mem_cons_self
        · exact (ih h).imp_right (List.mem_cons_of_mem _)

/-- The entries of a list that pairs are inserted into are among these and the old ones. -/
theorem mem_foldl_insert {pairs : List (κ × α)} {list : KeyedList κ α} {pair : κ × α}
    (h : pair ∈ (pairs.foldl (fun list pair => list.insert pair.1 pair.2) list).entries) :
    pair ∈ pairs ∨ pair ∈ list.entries := by
  induction pairs generalizing list with
  | nil => exact .inr h
  | cons first rest ih =>
      rcases ih h with h | h
      · exact .inl (List.mem_cons_of_mem _ h)
      · rcases mem_insertIn h with rfl | h
        · exact .inl List.mem_cons_self
        · exact .inr h

/-- Distinct keys stay distinct when a value is put under a key. -/
theorem nodup_keys_insert {list : KeyedList κ α} (h : list.keys.Nodup) (key : κ) (value : α) :
    (list.insert key value).keys.Nodup := by
  rw [keys_insert]
  split
  · exact h
  · next hkey =>
      refine List.nodup_append.mpr ⟨h, by simp, fun first hfirst second hsecond heq => ?_⟩
      obtain rfl := List.mem_singleton.mp hsecond
      exact hkey (heq ▸ hfirst)

/-- Distinct keys stay distinct when a key is erased. -/
theorem nodup_keys_erase {list : KeyedList κ α} (h : list.keys.Nodup) (key : κ) :
    (list.erase key).keys.Nodup := by
  rw [keys_erase]
  exact h.filter _

/-- Among distinct keys, a value is found under the key that it stands under. -/
theorem find?_eq_some_iff {list : KeyedList κ α} (h : list.keys.Nodup) {key : κ} {value : α} :
    list.find? key = some value ↔ (key, value) ∈ list.entries := by
  unfold keys at h
  unfold find?
  generalize list.entries = pairs at h
  induction pairs with
  | nil => simp [findIn?]
  | cons pair rest ih =>
      obtain ⟨hpair, hrest⟩ := List.nodup_cons.mp h
      rw [List.mem_cons, ← ih hrest, findIn?]
      split
      · next hkey =>
          have habsent : findIn? key rest ≠ some value := fun hfind =>
            hpair (List.mem_map.mpr ⟨_, (ih hrest).mp hfind, hkey.symm⟩)
          simp [habsent, Prod.ext_iff, hkey, eq_comm]
      · next hkey =>
          simp [Prod.ext_iff, Ne.symm hkey]

/-- Nothing is found among pairs with other keys. -/
theorem findIn?_eq_none_iff {key : κ} {pairs : List (κ × α)} :
    findIn? key pairs = none ↔ ∀ pair ∈ pairs, pair.1 ≠ key := by
  induction pairs with
  | nil => simp [findIn?]
  | cons pair rest ih =>
      by_cases h : pair.1 = key
      · simp [findIn?, h]
      · simp [findIn?, h, ih]

/-- What is found in the first of two lists comes before what is found in the second. -/
theorem findIn?_append (key : κ) (first second : List (κ × α)) :
    findIn? key (first ++ second) = (findIn? key first).or (findIn? key second) := by
  induction first with
  | nil => rfl
  | cons pair rest ih =>
      rw [List.cons_append, findIn?, findIn?, ih]
      split <;> rfl

/-- Of pairs that are inserted one after the other, the last one of a key is found under it. -/
theorem find?_ofList (pairs : List (κ × α)) (key : κ) :
    (ofList pairs).find? key = findIn? key pairs.reverse := by
  have hfold (list : KeyedList κ α) :
      (pairs.foldl (fun list pair => list.insert pair.1 pair.2) list).find? key =
        (findIn? key pairs.reverse).or (list.find? key) := by
    induction pairs generalizing list with
    | nil => rfl
    | cons pair rest ih =>
        rw [List.foldl_cons, ih, List.reverse_cons, findIn?_append, Option.or_assoc, find?_insert,
          findIn?, findIn?]
        by_cases h : pair.1 = key
        · simp [h]
        · simp [h, Ne.symm h]
  exact (hfold empty).trans Option.or_none

/-- Erasing a key undoes what has been put under it. -/
theorem erase_insert_self (list : KeyedList κ α) (key : κ) (value : α) :
    (list.insert key value).erase key = list.erase key := by
  unfold insert erase
  refine congrArg mk ?_
  dsimp only
  induction list.entries with
  | nil => simp [insertIn]
  | cons pair rest ih =>
      unfold insertIn
      split
      · next hkey => simp [hkey]
      · rw [List.filter_cons, List.filter_cons, ih]

/-- Erasing a key leaves what is put under another one. -/
theorem erase_insert_ne (list : KeyedList κ α) {key other : κ} (h : other ≠ key) (value : α) :
    (list.insert other value).erase key = (list.erase key).insert other value := by
  unfold insert erase
  refine congrArg mk ?_
  dsimp only
  induction list.entries with
  | nil => simp [insertIn, h]
  | cons pair rest ih =>
      by_cases hother : pair.1 = other
      · simp [insertIn, hother, h]
      · rw [insertIn, if_neg hother, List.filter_cons, List.filter_cons, ih]
        split
        · rw [insertIn, if_neg hother]
        · rfl

/-- To erase a key from what was inserted is not to insert anything under it. -/
theorem erase_ofList (pairs : List (κ × α)) (key : κ) :
    (ofList pairs).erase key = ofList (pairs.filter (·.1 ≠ key)) := by
  have hfold (list : KeyedList κ α) :
      (pairs.foldl (fun list pair => list.insert pair.1 pair.2) list).erase key =
        (pairs.filter (·.1 ≠ key)).foldl (fun list pair => list.insert pair.1 pair.2)
          (list.erase key) := by
    induction pairs generalizing list with
    | nil => rfl
    | cons pair rest ih =>
        rw [List.foldl_cons, ih]
        by_cases h : pair.1 = key
        · simp [h, erase_insert_self]
        · simp [h, erase_insert_ne]
  exact hfold empty

/-- What was inserted stands under distinct keys. -/
theorem nodup_keys_ofList (pairs : List (κ × α)) : (ofList pairs).keys.Nodup := by
  have hfold (list : KeyedList κ α) (h : list.keys.Nodup) :
      (pairs.foldl (fun list pair => list.insert pair.1 pair.2) list).keys.Nodup := by
    induction pairs generalizing list with
    | nil => exact h
    | cons pair rest ih => exact ih _ (nodup_keys_insert h _ _)
  exact hfold empty List.nodup_nil

/-- Among distinct keys, what is found has the other entries around it. -/
theorem exists_split_of_find? {list : KeyedList κ α} (h : list.keys.Nodup) {key : κ} {value : α}
    (hfind : list.find? key = some value) : ∃ before after,
      list.entries = before ++ (key, value) :: after ∧
        (list.erase key).entries = before ++ after := by
  obtain ⟨before, after, hsplit⟩ :=
    List.append_of_mem ((find?_eq_some_iff h).mp hfind)
  refine ⟨before, after, hsplit, ?_⟩
  unfold keys at h
  rw [hsplit, List.map_append, List.map_cons, List.perm_middle.nodup_iff, List.nodup_cons,
    ← List.map_append] at h
  have hothers : ∀ pair ∈ before ++ after, decide (pair.1 ≠ key) = true := fun pair hpair =>
    decide_eq_true fun heq => h.1 (List.mem_map.mpr ⟨pair, hpair, heq⟩)
  rw [erase, hsplit, List.filter_append, List.filter_cons_of_neg (by simp), ← List.filter_append,
    List.filter_eq_self.mpr hothers]

/-- Lists in which the same values are found under distinct keys have the same entries. -/
theorem perm_of_find?_eq {first second : KeyedList κ α} (hfirst : first.keys.Nodup)
    (hsecond : second.keys.Nodup) (h : ∀ key, first.find? key = second.find? key) :
    first.entries.Perm second.entries := by
  have hnodup {list : KeyedList κ α} (h : list.keys.Nodup) : list.entries.Nodup :=
    List.Pairwise.of_map Prod.fst (fun _ _ hne heq => hne (congrArg _ heq)) h
  refine (List.perm_ext_iff_of_nodup (hnodup hfirst) (hnodup hsecond)).mpr fun pair => ?_
  rw [← find?_eq_some_iff hfirst, ← find?_eq_some_iff hsecond, h]

end KeyedList

end CommentIndex
