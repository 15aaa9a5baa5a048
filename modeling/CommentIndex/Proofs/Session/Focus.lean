import CommentIndex.Proofs.Session.Maintained
import CommentIndex.Proofs.Session.Prompt

/-!
# The focus among other activities

A document that gets the focus in a loaded workspace is read unless it is cached, and other things
may happen before its text is there. `Moves` says what becomes of the workspace until then, whether
or not the reading is held, and `Ends` what is left to be done.
-/

namespace CommentIndex.Workspace

open Activity

variable {file : Path → Path} {base : Nat} {Meant : Path → Prop} {workspace : Workspace}
  {path : Path} {update : Workspace → Workspace} {focus : Option Path}

/-! ## Readings and what follows them -/

/-- What is left of an activity ends a reading that has begun since a ticket, and does `update`. -/
def Ends (file : Path → Path) (base : Nat) (update : Workspace → Workspace)
    (rest : Activity Unit) : Prop :=
  ∃ attempt : Attempt, base < attempt.ticket ∧
    ∀ holds workspace, workspace.Names file → ∃ result,
      rest.stretch holds workspace =
        (.finished (.ok ()),
          update { workspace with cache := Traffic.ended file workspace.cache attempt result })

/-- How far an activity gets that reads a document and does `update`. Its file has an outline from
the beginning, if only an empty one. -/
inductive Reads (file : Path → Path) (base : Nat) (update : Workspace → Workspace) (path : Path)
    (before : Workspace) : Progress Unit × Workspace → Prop
  | held (cache : Cache) (rest : Activity Unit) (tidy : Traffic.Tidy file base cache)
    (cached : (cache.lookup? (file path)).isSome) (ends : Ends file base update rest) :
    Reads file base update path before (.held rest, { before with cache := cache })
  | ended (cache : Cache) (tidy : Traffic.Tidy file base cache)
    (cached : (cache.lookup? (file path)).isSome) :
    Reads file base update path before
      (.finished (.ok ()), update { before with cache := cache })

/-- A replacement and what follows it read the document. -/
theorem Tended.replace_bind (h : Tended file base Meant workspace)
    (husable : path.isUnusable = false) {next : Bool → Activity Unit}
    (hnext : ∀ found holds workspace,
      (next found).stretch holds workspace = (.finished (.ok ()), update workspace))
    (holds : Pause → Bool) :
    Reads file base update path workspace
      (((replace path).bind next).stretch holds workspace) := by
  obtain ⟨matcher, registry, text, attempt, rfl, hsince, hheld⟩ := h.replace_held husable
  let begun : Workspace :=
    { workspace with
      cache := (workspace.cache.displace attempt.path (file attempt.path)).issue attempt.path }
  let rest : Activity Unit :=
    (endReading matcher registry attempt.path attempt.ticket attempt.before text).bind next
  have hends : Ends file base update rest := by
    refine ⟨attempt, hsince, fun holds later hnames => ?_⟩
    obtain ⟨found, result, hstretch⟩ :=
      stretch_endReading holds hnames husable matcher registry text
    refine ⟨result, ?_⟩
    rw [stretch_bind, hstretch]
    exact hnext ..
  have htidy : Traffic.Tidy file base begun.cache := h.tidy.replace attempt.path
  have hcached : (begun.cache.lookup? (file attempt.path)).isSome := by
    show ((workspace.cache.displace attempt.path (file attempt.path)).lookup? _).isSome
    rw [Traffic.lookup_displace]
    rfl
  rw [stretch_bind]
  -- The reading is held, or it ends before anything else happens.
  rcases stretch_of_held hheld holds with hstretch | hstretch
  · rw [hstretch]
    exact .held begun.cache rest htidy hcached hends
  · obtain ⟨attempt, hsince, hends⟩ := hends
    obtain ⟨result, hend⟩ := hends holds begun h.names
    rw [stretch_bind] at hend
    rw [hstretch, hend]
    exact .ended _ (htidy.ended hsince result)
      ((htidy.isSome_lookup_ended hsince result _).trans hcached)

/-! ## Giving the focus -/

/-- What becomes of a workspace when the focus moves: the document that gets it has an outline if
the workspace is loaded, and else nothing is read. -/
structure Moves (file : Path → Path) (base : Nat) (focus : Option Path) (before : Workspace)
    (cache : Cache) (result : Progress Unit × Workspace) : Prop where
  after : result.2 = { before with active := focus, cache := cache }
  tidy : Traffic.Tidy file base cache
  ends : ∀ rest, result.1 = .held rest → Ends file base id rest
  idle : before.isLoaded = false → cache = before.cache
  cached : before.isLoaded = true → ∀ path, focus = some path → path.isUnusable = false →
    (cache.lookup? (file path)).isSome

/-- Whether the document at a usable path is cached. -/
theorem Tended.isCached (h : Tended file base Meant workspace) (husable : path.isUnusable = false) :
    workspace.isCached path = .ok (workspace.cache.lookup? (file path)).isSome := by
  unfold Workspace.isCached Workspace.lookup?
  rw [h.names.fileAt husable]
  rfl

/-- The focus moves and nothing is read. -/
theorem Tended.moves_of_idle (h : Tended file base Meant workspace) {outcome : Outcome Unit}
    {result : Progress Unit × Workspace}
    (hresult : result = (.finished outcome, { workspace with active := focus }))
    (hcached : workspace.isLoaded = true → ∀ path, focus = some path → path.isUnusable = false →
      (workspace.cache.lookup? (file path)).isSome) :
    Moves file base focus workspace workspace.cache result where
  after := by rw [hresult]
  tidy := h.tidy
  ends := fun rest hrest => by
    rw [hresult] at hrest
    contradiction
  idle := fun _ => rfl
  cached := hcached

/-- The focus moves and the document is read. -/
theorem moves_of_reads (hloaded : workspace.isLoaded = true)
    {result : Progress Unit × Workspace}
    (hreads : Reads file base id path { workspace with active := some path } result) :
    ∃ cache, Moves file base (some path) workspace cache result := by
  have hsame (cache : Cache) (h : (cache.lookup? (file path)).isSome) (other : Path)
      (hother : some path = some other) : (cache.lookup? (file other)).isSome :=
    Option.some.inj hother ▸ h
  have hidle (cache : Cache) (h : workspace.isLoaded = false) : cache = workspace.cache :=
    absurd (hloaded.symm.trans h) (by simp)
  cases hreads with
  | held cache rest tidy cached ends =>
      refine ⟨cache, rfl, tidy, fun other hother => ?_, hidle cache,
        fun _ other hother _ => hsame cache cached other hother⟩
      cases hother
      exact ends
  | ended cache tidy cached =>
      exact ⟨cache, rfl, tidy, fun rest hrest => by contradiction, hidle cache,
        fun _ other hother _ => hsame cache cached other hother⟩

/-- The focus moves to a document, or away from all. -/
theorem Tended.setActive (h : Tended file base Meant workspace)
    (hmeant : ∀ path, focus = some path → Meant path) (holds : Pause → Bool) :
    ∃ cache, Moves file base focus workspace cache
      ((Workspace.setActive focus).stretch holds workspace) := by
  cases hloaded : workspace.isLoaded with
  | false =>
      refine ⟨_, h.moves_of_idle (stretch_setActive_of_not_loaded hloaded focus) fun h => ?_⟩
      rw [hloaded] at h
      contradiction
  | true =>
      cases focus with
      | none =>
          exact ⟨_, h.moves_of_idle (stretch_setActive_none hloaded) fun _ _ hpath => nomatch hpath⟩
      | some path =>
          by_cases hpath : path.isUnusable
          · refine ⟨_, h.moves_of_idle
              (stretch_setActive_of_unusable workspace hloaded hpath) ?_⟩
            rintro - other hother husable
            rw [← Option.some.inj hother, hpath] at husable
            contradiction
          · have husable : path.isUnusable = false := eq_false_of_ne_true hpath
            have hstretch : (Workspace.setActive (some path)).stretch holds workspace = _ :=
              stretch_setActive_some workspace hloaded (h.isCached husable)
            cases hknown : (workspace.cache.lookup? (file path)).isSome with
            | true =>
                rw [hknown, if_pos rfl] at hstretch
                refine ⟨_, h.moves_of_idle hstretch fun _ other hother _ => ?_⟩
                exact Option.some.inj hother ▸ hknown
            | false =>
                rw [hknown, if_neg (by simp)] at hstretch
                rw [hstretch]
                exact moves_of_reads hloaded
                  ((h.withFocus hmeant h.tidy).replace_bind husable (fun _ _ _ => rfl) holds)

end CommentIndex.Workspace
