import CommentIndex.Subscriptions
import Mathlib.Data.List.Induction

/-!
# Handles of subscriptions

Whoever registers a callback gets a handle that undoes the registration. The handle knows its
callback, and not its place in the list, so it takes the first one of that callback off. A `Ledger`
is what the program keeps along a history of registrations, notifications and calls of handles; a
`Record` is what one would keep to undo each subscription by itself.

By `Ledger.calls_iff` notifications call the callbacks of the live subscriptions, in order, as long
as each handle that is called spares the others: if its callback is registered at all, then its own
subscription is live, and so are only subscriptions of the same callback from the first one of that
callback up to its own. Callbacks that are all different always spare each other.
-/

namespace CommentIndex

variable {κ : Type}

/-- What is done with subscriptions. A handle has the number of its registration. -/
inductive SubscriptionStep (κ : Type) where
  | watch (callback : κ)
  | undo (handle : Nat)
  | notify
deriving DecidableEq, Repr

/-- What is kept of a history of subscriptions. -/
structure Ledger (κ : Type) where
  subscriptions : Subscriptions κ := .empty
  /-- The callback that each handle knows. -/
  handles : List κ := []
  /-- The callbacks that each notification has called, in order. -/
  calls : List (List κ) := []
deriving DecidableEq, Repr

/-- What would be kept of a history in which each subscription is undone by itself. -/
structure Record (κ : Type) where
  /-- The subscriptions that are not undone, in order of registration, each with its handle. -/
  live : List (Nat × κ) := []
  /-- How many handles there are. -/
  handles : Nat := 0
  calls : List (List κ) := []
deriving DecidableEq, Repr

namespace Ledger

variable [DecidableEq κ]

/-- A ledger after one more step. -/
def take (ledger : Ledger κ) : SubscriptionStep κ → Ledger κ
  | .watch callback =>
    { ledger with
      subscriptions := ledger.subscriptions.watch callback
      handles := ledger.handles ++ [callback] }
  | .undo handle =>
    match ledger.handles[handle]? with
    | some callback =>
      { ledger with subscriptions := ledger.subscriptions.unwatch callback }
    | none => ledger
  | .notify => { ledger with calls := ledger.calls ++ [ledger.subscriptions.notified] }

/-- What is kept after a history. -/
def ofSteps (steps : List (SubscriptionStep κ)) : Ledger κ :=
  steps.foldl take {}

theorem ofSteps_concat (steps : List (SubscriptionStep κ)) (step : SubscriptionStep κ) :
    ofSteps (steps ++ [step]) = (ofSteps steps).take step := by
  simp [ofSteps]

end Ledger

namespace Record

/-- A record after one more step. -/
def take (record : Record κ) : SubscriptionStep κ → Record κ
  | .watch callback =>
    { record with
      live := record.live ++ [(record.handles, callback)]
      handles := record.handles + 1 }
  | .undo handle => { record with live := record.live.filter fun entry => entry.1 ≠ handle }
  | .notify => { record with calls := record.calls ++ [record.live.map (·.2)] }

/-- What would be kept after a history. -/
def ofSteps (steps : List (SubscriptionStep κ)) : Record κ :=
  steps.foldl take {}

theorem ofSteps_concat (steps : List (SubscriptionStep κ)) (step : SubscriptionStep κ) :
    ofSteps (steps ++ [step]) = (ofSteps steps).take step := by
  simp [ofSteps]

/-- If a callback has a live subscription, then the one of the handle is live, and from the first
one of the callback up to it all that are live are of this callback. -/
def Spares (live : List (Nat × κ)) (handle : Nat) (callback : κ) : Prop :=
  ∀ first, (first, callback) ∈ live →
    (handle, callback) ∈ live ∧
      ∀ between other, (between, other) ∈ live → first ≤ between → between ≤ handle →
        other = callback

/-! ## The first one of a callback -/

section Erasing

variable {live : List (Nat × κ)} {handle : Nat} {callback : κ}

/-- A handle that comes before all that are live has none of them. -/
theorem filter_eq_self_of_lt (h : ∀ entry ∈ live, handle < entry.1) :
    live.filter (fun entry => entry.1 ≠ handle) = live :=
  List.filter_eq_self.mpr fun entry hmem => decide_eq_true (Nat.ne_of_gt (h entry hmem))

/-- Without the subscription of a handle there is one callback less in front iff those up to it are
all of that callback. -/
theorem map_eq_cons_filter_iff (hsorted : live.Pairwise fun entry other => entry.1 < other.1)
    (hown : ∀ other, (handle, other) ∈ live → other = callback) :
    live.map (·.2) = callback :: (live.filter fun entry => entry.1 ≠ handle).map (·.2) ↔
      (handle, callback) ∈ live ∧
        ∀ between other, (between, other) ∈ live → between ≤ handle → other = callback := by
  induction live with
  | nil => simp
  | cons entry rest ih =>
      obtain ⟨number, known⟩ := entry
      obtain ⟨hfirst, hrest⟩ := List.pairwise_cons.mp hsorted
      by_cases hnumber : number = handle
      · subst hnumber
        obtain rfl := hown known List.mem_cons_self
        have hfilter : ((number, known) :: rest).filter (fun entry => entry.1 ≠ number) = rest := by
          rw [List.filter_cons_of_neg (by simp)]
          exact filter_eq_self_of_lt hfirst
        rw [hfilter]
        refine ⟨fun _ => ⟨List.mem_cons_self, fun between other hmem hle => ?_⟩, fun _ => rfl⟩
        rcases List.mem_cons.mp hmem with heq | hmem
        · exact (Prod.mk.inj heq).2
        · exact absurd (hfirst _ hmem) (Nat.not_lt.mpr hle)
      · have hih := ih hrest fun other hmem => hown other (List.mem_cons_of_mem _ hmem)
        have hmem : (handle, callback) ∈ (number, known) :: rest ↔ (handle, callback) ∈ rest := by
          simp [Ne.symm hnumber]
        rw [List.filter_cons_of_pos (by simpa using hnumber), List.map_cons, List.map_cons,
          List.cons.injEq, hmem]
        constructor
        · rintro ⟨rfl, htail⟩
          obtain ⟨hlive, hall⟩ := hih.mp htail
          refine ⟨hlive, fun between other hmem hle => ?_⟩
          rcases List.mem_cons.mp hmem with heq | hmem
          · exact (Prod.mk.inj heq).2
          · exact hall between other hmem hle
        · rintro ⟨hlive, hall⟩
          have hknown : known = callback :=
            hall number known List.mem_cons_self (Nat.le_of_lt (hfirst _ hlive))
          subst hknown
          exact ⟨rfl, hih.mpr ⟨hlive, fun between other hmem =>
            hall between other (List.mem_cons_of_mem _ hmem)⟩⟩

/-- Of a callback whose subscriptions all come later, those that are in front do not matter. -/
theorem spares_cons_of_ne {number : Nat} {known : κ} (hknown : known ≠ callback)
    (hfirst : ∀ entry ∈ live, number < entry.1) :
    Spares ((number, known) :: live) handle callback ↔ Spares live handle callback := by
  have hmem (place : Nat) :
      (place, callback) ∈ (number, known) :: live ↔ (place, callback) ∈ live := by
    simp [Ne.symm hknown]
  unfold Spares
  constructor
  · intro hspares first hlive
    obtain ⟨hhandle, hall⟩ := hspares first ((hmem first).mpr hlive)
    exact ⟨(hmem handle).mp hhandle, fun between other hbetween =>
      hall between other (List.mem_cons_of_mem _ hbetween)⟩
  · intro hspares first hlive
    rw [hmem] at hlive ⊢
    obtain ⟨hhandle, hall⟩ := hspares first hlive
    refine ⟨hhandle, fun between other hbetween hge hle => ?_⟩
    rcases List.mem_cons.mp hbetween with heq | hbetween
    · obtain ⟨rfl, rfl⟩ := Prod.mk.inj heq
      exact absurd (hfirst _ hlive) (Nat.not_lt.mpr hge)
    · exact hall between other hbetween hge hle

/-- If the first of all subscriptions is one of the callback, then all up to that of the handle have
to be. -/
theorem spares_cons_self {number : Nat} (hnumber : number ≠ handle)
    (hfirst : ∀ entry ∈ live, number < entry.1) :
    Spares ((number, callback) :: live) handle callback ↔
      (handle, callback) ∈ live ∧
        ∀ between other, (between, other) ∈ live → between ≤ handle → other = callback := by
  have hmem : (handle, callback) ∈ (number, callback) :: live ↔ (handle, callback) ∈ live := by
    simp [Ne.symm hnumber]
  constructor
  · intro hspares
    obtain ⟨hlive, hall⟩ := hspares number List.mem_cons_self
    exact ⟨hmem.mp hlive, fun between other hbetween hle =>
      hall between other (List.mem_cons_of_mem _ hbetween) (Nat.le_of_lt (hfirst _ hbetween)) hle⟩
  · rintro ⟨hlive, hall⟩ first -
    refine ⟨hmem.mpr hlive, fun between other hbetween _ hle => ?_⟩
    rcases List.mem_cons.mp hbetween with heq | hbetween
    · exact (Prod.mk.inj heq).2
    · exact hall between other hbetween hle

/-- The first one of a callback is taken off as the subscription of a handle is iff that handle
spares the others. -/
theorem erase_map_eq_iff [DecidableEq κ]
    (hsorted : live.Pairwise fun entry other => entry.1 < other.1)
    (hown : ∀ other, (handle, other) ∈ live → other = callback) :
    (live.map (·.2)).erase callback = (live.filter fun entry => entry.1 ≠ handle).map (·.2) ↔
      Spares live handle callback := by
  induction live with
  | nil => simp [Spares]
  | cons entry rest ih =>
      obtain ⟨number, known⟩ := entry
      obtain ⟨hfirst, hrest⟩ := List.pairwise_cons.mp hsorted
      have hown' : ∀ other, (handle, other) ∈ rest → other = callback :=
        fun other hmem => hown other (List.mem_cons_of_mem _ hmem)
      rw [List.map_cons]
      by_cases hknown : known = callback
      · subst hknown
        rw [List.erase_cons_head]
        by_cases hnumber : number = handle
        · -- The subscription of the handle is the first one of its callback.
          subst hnumber
          rw [List.filter_cons_of_neg (by simp), filter_eq_self_of_lt hfirst]
          refine iff_of_true rfl fun first _ => ⟨List.mem_cons_self, ?_⟩
          intro between other hbetween _ hle
          rcases List.mem_cons.mp hbetween with heq | hbetween
          · exact (Prod.mk.inj heq).2
          · exact absurd (hfirst _ hbetween) (Nat.not_lt.mpr hle)
        · rw [List.filter_cons_of_pos (by simpa using hnumber), List.map_cons,
            map_eq_cons_filter_iff hrest hown', spares_cons_self hnumber hfirst]
      · -- A callback in front of the first one stays where it is.
        have hnumber : number ≠ handle := by
          rintro rfl
          exact hknown (hown known List.mem_cons_self)
        rw [List.erase_cons_tail (by simpa using hknown),
          List.filter_cons_of_pos (by simpa using hnumber), List.map_cons,
          List.cons_inj_right, ih hrest hown', spares_cons_of_ne hknown hfirst]

end Erasing

end Record

/-! ## Histories -/

namespace Ledger

open Record (Spares)

variable [DecidableEq κ]

/-- A ledger and a record of one history have the same handles. -/
structure Shares (ledger : Ledger κ) (record : Record κ) : Prop where
  handles : record.handles = ledger.handles.length
  sorted : record.live.Pairwise fun entry other => entry.1 < other.1
  owned : ∀ handle callback, (handle, callback) ∈ record.live →
    ledger.handles[handle]? = some callback

/-- A ledger that has called what the record would have called, and would call it now. -/
structure Agrees (ledger : Ledger κ) (record : Record κ) : Prop where
  callbacks : ledger.subscriptions.notified = record.live.map (·.2)
  calls : ledger.calls = record.calls

theorem handles_undo (ledger : Ledger κ) (handle : Nat) :
    (ledger.take (.undo handle)).handles = ledger.handles := by
  simp only [Ledger.take]
  split <;> rfl

theorem Shares.take {ledger : Ledger κ} {record : Record κ} (h : Shares ledger record)
    (step : SubscriptionStep κ) : Shares (ledger.take step) (record.take step) := by
  cases step with
  | notify => exact ⟨h.handles, h.sorted, h.owned⟩
  | undo handle =>
      have hhandles := ledger.handles_undo handle
      refine ⟨h.handles.trans (congrArg List.length hhandles.symm), h.sorted.filter _, ?_⟩
      intro other callback hmem
      rw [hhandles]
      exact h.owned other callback (List.mem_filter.mp hmem).1
  | watch callback =>
      have hlt : ∀ entry ∈ record.live, entry.1 < record.handles := by
        intro entry hmem
        rw [h.handles]
        exact (List.getElem?_eq_some_iff.mp (h.owned entry.1 entry.2 hmem)).1
      constructor
      · show record.handles + 1 = (ledger.handles ++ [callback]).length
        rw [List.length_append, h.handles]
        rfl
      · refine List.pairwise_append.mpr ⟨h.sorted, List.pairwise_singleton _ _, ?_⟩
        intro entry hmem other hother
        rw [List.mem_singleton.mp hother]
        exact hlt entry hmem
      · intro handle known hmem
        show (ledger.handles ++ [callback])[handle]? = some known
        rcases List.mem_append.mp hmem with hold | hnew
        · have hknown := h.owned handle known hold
          rw [List.getElem?_append_left (List.getElem?_eq_some_iff.mp hknown).1]
          exact hknown
        · obtain ⟨rfl, rfl⟩ := Prod.mk.inj (List.mem_singleton.mp hnew)
          rw [h.handles]
          exact List.getElem?_concat_length

theorem shares_ofSteps (steps : List (SubscriptionStep κ)) :
    Shares (ofSteps steps) (Record.ofSteps steps) := by
  induction steps using List.reverseRecOn with
  | nil => exact ⟨rfl, .nil, fun _ _ hmem => absurd hmem List.not_mem_nil⟩
  | append_singleton front step ih =>
      rw [ofSteps_concat, Record.ofSteps_concat]
      exact ih.take step

/-- The call of a handle that no registration has given changes nothing. -/
theorem Shares.undo_of_none {ledger : Ledger κ} {record : Record κ} (h : Shares ledger record)
    {handle : Nat} (hhandle : ledger.handles[handle]? = none) :
    ledger.take (.undo handle) = ledger ∧ record.take (.undo handle) = record := by
  refine ⟨by simp [Ledger.take, hhandle], ?_⟩
  have hlive : ∀ entry ∈ record.live, entry.1 ≠ handle := by
    rintro ⟨number, callback⟩ hmem rfl
    exact Option.some_ne_none callback ((h.owned number callback hmem).symm.trans hhandle)
  simp only [Record.take]
  rw [List.filter_eq_self.mpr fun entry hmem => decide_eq_true (hlive entry hmem)]

/-- The call of a handle leaves a ledger that agrees iff the handle spares the other
subscriptions. -/
theorem Agrees.undo_iff {ledger : Ledger κ} {record : Record κ} (hshares : Shares ledger record)
    (h : Agrees ledger record) {handle : Nat} {callback : κ}
    (hhandle : ledger.handles[handle]? = some callback) :
    Agrees (ledger.take (.undo handle)) (record.take (.undo handle)) ↔
      Spares record.live handle callback := by
  have hown : ∀ other, (handle, other) ∈ record.live → other = callback :=
    fun other hmem => Option.some.inj ((hshares.owned handle other hmem).symm.trans hhandle)
  have hledger : ledger.take (.undo handle) =
      { ledger with subscriptions := ledger.subscriptions.unwatch callback } := by
    simp [Ledger.take, hhandle]
  have hagrees : Agrees (ledger.take (.undo handle)) (record.take (.undo handle)) ↔
      (record.live.map (·.2)).erase callback =
        (record.live.filter fun entry => entry.1 ≠ handle).map (·.2) := by
    rw [hledger, ← h.callbacks]
    exact ⟨fun hagrees => hagrees.callbacks, fun hcallbacks => ⟨hcallbacks, h.calls⟩⟩
  rw [hagrees, Record.erase_map_eq_iff hshares.sorted hown]

/-- A step goes on to agree unless it is the call of a handle that does not spare the others. -/
theorem Agrees.take_iff {ledger : Ledger κ} {record : Record κ} (hshares : Shares ledger record)
    (h : Agrees ledger record) (step : SubscriptionStep κ) :
    Agrees (ledger.take step) (record.take step) ↔
      ∀ handle callback, step = .undo handle → ledger.handles[handle]? = some callback →
        Spares record.live handle callback := by
  cases step with
  | watch callback =>
      refine iff_of_true ⟨?_, h.calls⟩ (by simp)
      show ledger.subscriptions.callbacks ++ [callback] =
        (record.live ++ [(record.handles, callback)]).map (·.2)
      rw [List.map_append, ← h.callbacks]
      rfl
  | notify =>
      refine iff_of_true ⟨h.callbacks, ?_⟩ (by simp)
      show ledger.calls ++ [_] = record.calls ++ [_]
      rw [h.calls, h.callbacks]
  | undo handle =>
      cases hhandle : ledger.handles[handle]? with
      | none =>
          obtain ⟨hledger, hrecord⟩ := hshares.undo_of_none hhandle
          rw [hrecord, hledger]
          refine iff_of_true h fun other callback hother hsome => ?_
          obtain rfl := SubscriptionStep.undo.inj hother
          rw [hhandle] at hsome
          contradiction
      | some callback =>
          rw [h.undo_iff hshares hhandle]
          constructor
          · rintro hspares other known hother hsome
            obtain rfl := SubscriptionStep.undo.inj hother
            rw [hhandle] at hsome
            rwa [← Option.some.inj hsome]
          · exact fun hspares => hspares handle callback rfl hhandle

/-! ## Independence -/

/-- Each handle that is called in a history spares the other subscriptions. -/
def SparesAll (steps : List (SubscriptionStep κ)) : Prop :=
  ∀ before handle callback, before ++ [.undo handle] <+: steps →
    (ofSteps before).handles[handle]? = some callback →
    Spares (Record.ofSteps before).live handle callback

/-- A ledger agrees all along a history iff each handle that is called spares the others. -/
theorem agrees_iff (steps : List (SubscriptionStep κ)) :
    (∀ before, before <+: steps → Agrees (ofSteps before) (Record.ofSteps before)) ↔
      SparesAll steps := by
  constructor
  · intro h before handle callback hprefix hhandle
    have hagrees := h _ hprefix
    rw [ofSteps_concat, Record.ofSteps_concat,
      (h before ((List.prefix_append _ _).trans hprefix)).take_iff (shares_ofSteps before)]
      at hagrees
    exact hagrees handle callback rfl hhandle
  · intro h before hprefix
    induction before using List.reverseRecOn with
    | nil => exact ⟨rfl, rfl⟩
    | append_singleton front step ih =>
        rw [ofSteps_concat, Record.ofSteps_concat,
          (ih ((List.prefix_append _ _).trans hprefix)).take_iff (shares_ofSteps front)]
        rintro handle callback rfl hhandle
        exact h front handle callback hprefix hhandle

/-- A notification at any time calls the callbacks of the subscriptions that are not undone, once
each and in order of registration, iff each handle that is called spares the others. -/
theorem calls_iff (steps : List (SubscriptionStep κ)) :
    (∀ before, before <+: steps →
      (ofSteps (before ++ [.notify])).calls = (Record.ofSteps (before ++ [.notify])).calls) ↔
      SparesAll steps := by
  rw [← agrees_iff]
  refine forall₂_congr fun before _ => ?_
  rw [ofSteps_concat, Record.ofSteps_concat]
  constructor
  · intro h
    obtain ⟨hcalls, hlast⟩ := List.append_inj' h rfl
    exact ⟨List.singleton_inj.mp hlast, hcalls⟩
  · intro h
    show _ ++ [_] = _ ++ [_]
    rw [h.calls, h.callbacks]

/-- A callback is registered twice, and the first handle is called twice: the second call undoes the
other registration. With another callback between them, the handle of the second registration undoes
the first one. -/
theorem handles_not_independent :
    let twice : List (SubscriptionStep Char) := [.watch 'f', .watch 'f', .undo 0, .undo 0, .notify]
    let around : List (SubscriptionStep Char) :=
      [.watch 'f', .watch 'g', .watch 'f', .undo 2, .notify]
    ((ofSteps twice).calls = [[]] ∧ (Record.ofSteps twice).calls = [['f']]) ∧
      (ofSteps around).calls = [['g', 'f']] ∧ (Record.ofSteps around).calls = [['f', 'g']] := by
  decide +kernel

theorem isPrefix_handles {before steps : List (SubscriptionStep κ)} (h : before <+: steps) :
    (ofSteps before).handles <+: (ofSteps steps).handles := by
  obtain ⟨rest, rfl⟩ := h
  induction rest using List.reverseRecOn with
  | nil => simp
  | append_singleton front step ih =>
      rw [← List.append_assoc, ofSteps_concat]
      refine ih.trans ?_
      cases step with
      | watch callback => exact List.prefix_append _ _
      | notify => exact List.prefix_refl _
      | undo handle => simp [handles_undo]

/-- Subscriptions of different callbacks are independent. -/
theorem agrees_of_nodup {steps : List (SubscriptionStep κ)} (h : (ofSteps steps).handles.Nodup) :
    Agrees (ofSteps steps) (Record.ofSteps steps) := by
  refine (agrees_iff steps).mpr ?_ steps (List.prefix_refl _)
  intro before handle callback hprefix hhandle first hfirst
  have hbefore := (isPrefix_handles ((List.prefix_append _ _).trans hprefix)).sublist.nodup h
  -- Only one handle knows the callback.
  have hsame {number : Nat} {known : κ} (hmem : (number, known) ∈ (Record.ofSteps before).live) :
      (ofSteps before).handles[number]? = some known :=
    (shares_ofSteps before).owned number known hmem
  have hlt := (List.getElem?_eq_some_iff.mp (hsame hfirst)).1
  obtain rfl : first = handle :=
    (List.getElem?_inj hlt hbefore).mp ((hsame hfirst).trans hhandle.symm)
  refine ⟨hfirst, fun between other hmem hge hle => ?_⟩
  obtain rfl := Nat.le_antisymm hge hle
  exact Option.some.inj ((hsame hmem).symm.trans hhandle)

end Ledger

end CommentIndex
