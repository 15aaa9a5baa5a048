import CommentIndex.Proofs.Session.Edits
import Mathlib.Data.List.Count
import Mathlib.Data.List.Induction

/-!
# Widgets that turn a deaf ear

A widget has its callbacks passed over while it draws itself: its watcher is told to suppress
notifications when a context is entered, and to listen when the context is left, however the body
of the context ends. A `WidgetScript` is a program of nested contexts whose bodies may raise, and
`WidgetScript.events` is what happens when it is run.

Whether a widget is suppressing is a flag, and not a count: a context that is left ends the
suppression of those around it. By `callback_answers_iff` a callback runs on a notification iff its
widget has not been unmounted since it was registered, and no context of the widget is open or the
last thing that happened to those contexts was that one of them was left.
-/

namespace CommentIndex

/-- Something that happens to the widgets of a session. -/
inductive WidgetEvent where
  /-- A callback of a widget is registered. -/
  | watch (name : String)
  /-- All registrations of a widget are undone. -/
  | unmount (name : String)
  /-- A context is entered in which a widget suppresses notifications. -/
  | enter (name : String)
  /-- The context is left. -/
  | leave (name : String)
  /-- The workspace notifies those who watch it. -/
  | notify
deriving DecidableEq, Repr

/-- A program that uses widgets. -/
inductive WidgetScript where
  | pass
  | watch (name : String)
  | unmount (name : String)
  | notify
  /-- Raises an exception. -/
  | raise
  | andThen (first second : WidgetScript)
  /-- Runs the body in a context in which a widget suppresses notifications. -/
  | suppressing (name : String) (body : WidgetScript)
  /-- Runs the body and catches what it raises. -/
  | attempt (body : WidgetScript)

/-- Whether a callback is one of a widget. -/
def Listener.isOf (name : String) : Listener → Bool
  | .widget other _ => other = name
  | .counter _ | .panel _ _ => false

namespace WidgetScript

/-- Whether the program ends with an exception. -/
def raises : WidgetScript → Bool
  | .raise => true
  | .andThen first second => first.raises || second.raises
  | .suppressing _ body => body.raises
  | .pass | .watch _ | .unmount _ | .notify | .attempt _ => false

/-- What happens when the program is run. A context is left however its body ends. -/
def events : WidgetScript → List WidgetEvent
  | .pass | .raise => []
  | .watch name => [.watch name]
  | .unmount name => [.unmount name]
  | .notify => [.notify]
  | .andThen first second =>
    if first.raises then first.events else first.events ++ second.events
  | .suppressing name body => .enter name :: (body.events ++ [.leave name])
  | .attempt body => body.events

end WidgetScript

/-! ## Contexts -/

namespace WidgetEvent

/-- Whether a context of a widget is entered or left. -/
def isContextOf (name : String) (event : WidgetEvent) : Bool :=
  event = .enter name || event = .leave name

/-- How many contexts of a widget are open. -/
def openContexts (name : String) (events : List WidgetEvent) : Nat :=
  events.count (.enter name) - events.count (.leave name)

/-- What happened last to the contexts of a widget. -/
def lastContext? (name : String) (events : List WidgetEvent) : Option WidgetEvent :=
  (events.filter (isContextOf name)).getLast?

theorem lastContext?_concat (name : String) (events : List WidgetEvent) (event : WidgetEvent) :
    lastContext? name (events ++ [event]) =
      if event.isContextOf name then some event else lastContext? name events := by
  unfold lastContext?
  rw [List.filter_append]
  by_cases h : event.isContextOf name
  · rw [List.filter_cons_of_pos h, if_pos h]
    simp
  · rw [List.filter_cons_of_neg h, if_neg h]
    simp

/-- If a context of a widget is open, then one was entered last or left. -/
theorem lastContext?_of_openContexts_pos {name : String} {events : List WidgetEvent}
    (h : 0 < openContexts name events) :
    lastContext? name events = some (.enter name) ∨
      lastContext? name events = some (.leave name) := by
  have henter : .enter name ∈ events.filter (isContextOf name) := by
    refine List.mem_filter.mpr ⟨?_, by simp [isContextOf]⟩
    exact List.count_pos_iff.mp (Nat.lt_of_lt_of_le h (Nat.sub_le _ _))
  obtain ⟨event, hlast⟩ : ∃ event, lastContext? name events = some event :=
    ⟨_, List.getLast?_eq_some_getLast (List.ne_nil_of_mem henter)⟩
  have hcontext := (List.mem_filter.mp (List.mem_of_getLast? hlast)).2
  have hevent : event = .enter name ∨ event = .leave name := by
    simpa [isContextOf] using hcontext
  rcases hevent with rfl | rfl
  · exact .inl hlast
  · exact .inr hlast

/-- As many contexts of a widget are left as are entered, and none before it is entered. -/
structure IsNested (name : String) (events : List WidgetEvent) : Prop where
  prefixes : ∀ start, start <+: events → start.count (.leave name) ≤ start.count (.enter name)
  whole : events.count (.leave name) = events.count (.enter name)

theorem IsNested.of_none {name : String} {events : List WidgetEvent}
    (h : ∀ event ∈ events, ¬ event.isContextOf name) : IsNested name events := by
  have hleave : .leave name ∉ events := fun hmem => h _ hmem (by simp [isContextOf])
  have henter : .enter name ∉ events := fun hmem => h _ hmem (by simp [isContextOf])
  constructor
  · intro start hstart
    rw [List.count_eq_zero_of_not_mem fun hmem => hleave (hstart.subset hmem)]
    exact Nat.zero_le _
  · rw [List.count_eq_zero_of_not_mem hleave, List.count_eq_zero_of_not_mem henter]

theorem IsNested.append {name : String} {first second : List WidgetEvent}
    (hfirst : IsNested name first) (hsecond : IsNested name second) :
    IsNested name (first ++ second) := by
  constructor
  · intro start hstart
    rcases List.prefix_or_prefix_of_prefix hstart (List.prefix_append first second) with h | h
    · exact hfirst.prefixes start h
    · obtain ⟨rest, rfl⟩ := h
      have hrest := hsecond.prefixes rest ((List.prefix_append_right_inj first).mp hstart)
      rw [List.count_append, List.count_append, hfirst.whole]
      exact Nat.add_le_add_left hrest _
  · rw [List.count_append, List.count_append, hfirst.whole, hsecond.whole]

/-- A context around what is nested. -/
theorem IsNested.suppressing {name other : String} {events : List WidgetEvent}
    (h : IsNested name events) :
    IsNested name (.enter other :: (events ++ [.leave other])) := by
  by_cases hother : other = name
  · subst hother
    constructor
    · intro start hstart
      rcases List.prefix_cons_iff.mp hstart with rfl | ⟨rest, rfl, hrest⟩
      · exact Nat.le_refl 0
      · rw [List.count_cons_of_ne (by simp), List.count_cons_self]
        rcases List.prefix_concat_iff.mp hrest with rfl | hrest
        · simp [h.whole]
        · exact Nat.le_succ_of_le (h.prefixes rest hrest)
    · simp [h.whole]
  · have hcontext (event : WidgetEvent) (hevent : event = .enter other ∨ event = .leave other) :
        ¬ event.isContextOf name := by
      rcases hevent with rfl | rfl <;> simp [isContextOf, hother]
    have henter : IsNested name [WidgetEvent.enter other] :=
      .of_none fun event hmem => hcontext event (.inl (List.mem_singleton.mp hmem))
    have hleave : IsNested name [WidgetEvent.leave other] :=
      .of_none fun event hmem => hcontext event (.inr (List.mem_singleton.mp hmem))
    exact henter.append (h.append hleave)

/-- In what is nested, a context of the widget is open if one was entered last. -/
theorem IsNested.openContexts_pos {name : String} {events start : List WidgetEvent}
    (h : IsNested name events) (hstart : start <+: events)
    (hlast : lastContext? name start = some (.enter name)) : 0 < openContexts name start := by
  induction start using List.reverseRecOn with
  | nil => contradiction
  | append_singleton front event ih =>
      have hfront : front <+: events := (List.prefix_append front [event]).trans hstart
      have hle := h.prefixes front hfront
      rw [lastContext?_concat] at hlast
      unfold openContexts at ih ⊢
      by_cases hevent : event.isContextOf name
      · rw [if_pos hevent] at hlast
        obtain rfl := Option.some.inj hlast
        simp only [List.count_append, List.count_singleton_self]
        rw [List.count_singleton, if_neg (by simp)]
        omega
      · rw [if_neg hevent] at hlast
        have hne : event ≠ .enter name ∧ event ≠ .leave name := by
          simpa [isContextOf] using hevent
        simpa [List.count_singleton, hne.1, hne.2] using ih hfront hlast

end WidgetEvent

open WidgetEvent

/-- However the bodies of its contexts end, a program enters and leaves them properly. -/
theorem WidgetScript.isNested_events (script : WidgetScript) (name : String) :
    IsNested name script.events := by
  induction script with
  | pass | raise => exact .of_none (by simp [events])
  | watch | unmount | notify => exact .of_none (by simp [events, isContextOf])
  | andThen first second hfirst hsecond =>
      unfold events
      split
      · exact hfirst
      · exact hfirst.append hsecond
  | suppressing other body hbody => exact hbody.suppressing
  | attempt body hbody => exact hbody

/-! ## Sessions with widgets -/

namespace Session

/-- What is done to a session by what happens to its widgets. -/
def take (session : Session) : WidgetEvent → Session
  | .watch name => session.watchWidget name
  | .unmount name => session.unmountWidget name
  | .enter name => session.modifyWidget name .suppress
  | .leave name => session.modifyWidget name .listen
  | .notify => session.hear .changed

/-- What is done to a session by all that happens to its widgets, one after the other. -/
def takeAll (session : Session) (events : List WidgetEvent) : Session :=
  events.foldl take session

/-- The watcher of a widget that has been used. -/
def watcher? (session : Session) (name : String) : Option (Watcher Listener) :=
  (session.widgets.find? name).map (·.watcher)

/-- The watcher of a widget. -/
def watcherOf (session : Session) (name : String) : Watcher Listener :=
  (session.watcher? name).getD {}

/-- Whether a callback runs the code of its widget when it is called. -/
def answers (session : Session) : Listener → Bool
  | .widget name _ => (session.watcher? name).any fun watcher => !watcher.isSuppressing
  | .counter _ | .panel _ _ => false

/-- The callbacks of widgets whose code a notification runs. -/
def answering (session : Session) : List Listener :=
  session.subscriptions.notified.filter session.answers

/-- No widget has been used. -/
structure HasNoWidgets (session : Session) : Prop where
  widgets : ∀ name, session.watcher? name = none
  callbacks : ∀ name serial, .widget name serial ∉ session.subscriptions.callbacks

theorem watcher_widget (session : Session) (name : String) :
    (session.widget name).watcher = session.watcherOf name := by
  unfold widget watcherOf watcher?
  cases session.widgets.find? name <;> rfl

theorem isSome_watcher?_of_mem {session : Session} {name : String} {listener : Listener}
    (h : listener ∈ (session.watcherOf name).watches) : (session.watcher? name).isSome := by
  unfold watcherOf at h
  cases hwatcher : session.watcher? name with
  | none =>
      rw [hwatcher] at h
      exact absurd h (List.not_mem_nil)
  | some watcher => rfl

/-! ### Notifications -/

/-- Two sessions with the same widgets, but for their calls. -/
structure SameWidgets (session after : Session) : Prop where
  watchers : ∀ name, after.watcher? name = session.watcher? name
  callbacks : ∀ name serial,
    after.subscriptions.callbacks.count (.widget name serial) =
      session.subscriptions.callbacks.count (.widget name serial)
  serial : after.serial = session.serial

theorem SameWidgets.refl (session : Session) : SameWidgets session session :=
  ⟨fun _ => rfl, fun _ _ => rfl, rfl⟩

theorem SameWidgets.trans {session middle after : Session} (hfirst : SameWidgets session middle)
    (hsecond : SameWidgets middle after) : SameWidgets session after :=
  ⟨fun name => (hsecond.watchers name).trans (hfirst.watchers name),
    fun name serial => (hsecond.callbacks name serial).trans (hfirst.callbacks name serial),
    hsecond.serial.trans hfirst.serial⟩

theorem SameWidgets.answers {session after : Session} (h : SameWidgets session after) :
    after.answers = session.answers := by
  funext listener
  cases listener with
  | counter number => rfl
  | panel name serial => rfl
  | widget name serial => exact congrArg (Option.any _) (h.watchers name)

/-- A callback changes no widget but for its calls. -/
theorem sameWidgets_call (session : Session) (listener : Listener) :
    SameWidgets session (session.call listener) := by
  cases listener with
  | counter number =>
      simp only [call]
      split
      · exact ⟨fun _ => rfl, fun _ _ => List.count_erase_of_ne (by simp), rfl⟩
      · exact ⟨fun _ => rfl, fun _ _ => rfl, rfl⟩
  | panel name serial =>
      simp only [call]
      split
      · split <;> exact ⟨fun _ => rfl, fun _ _ => rfl, rfl⟩
      · exact .refl session
  | widget name serial =>
      simp only [call]
      cases hwidget : session.widgets.find? name with
      | none => exact .refl session
      | some widget =>
          dsimp only
          split
          · exact .refl session
          · refine ⟨fun other => ?_, fun _ _ => rfl, rfl⟩
            unfold watcher?
            rw [KeyedList.find?_insert]
            split
            · next h => subst h; rw [hwidget]; rfl
            · rfl

/-- A callback counts one call of its widget if it answers. -/
theorem calls_call (session : Session) (listener : Listener) (name : String) :
    ((session.call listener).widget name).calls =
      (session.widget name).calls +
        if session.answers listener && listener.isOf name then 1 else 0 := by
  cases listener with
  | counter number =>
      simp only [call]
      split <;> rfl
  | panel other serial =>
      simp only [call]
      split
      · split <;> rfl
      · rfl
  | widget other serial =>
      rcases hwidget : session.widgets.find? other with - | found
      · simp [call, answers, watcher?, hwidget]
      · cases hsuppressing : found.watcher.isSuppressing with
        | true => simp [call, answers, watcher?, hwidget, hsuppressing]
        | false =>
            by_cases hname : other = name
            · subst hname
              simp [call, answers, watcher?, hwidget, hsuppressing, Listener.isOf, widget]
            · simp [call, answers, watcher?, hwidget, hsuppressing, Listener.isOf, widget, hname,
                KeyedList.find?_insert_ne _ (Ne.symm hname)]

theorem sameWidgets_foldl_call (listeners : List Listener) (session : Session) :
    SameWidgets session (listeners.foldl call session) := by
  induction listeners generalizing session with
  | nil => exact .refl session
  | cons listener rest ih => exact (session.sameWidgets_call listener).trans (ih _)

theorem calls_foldl_call (listeners : List Listener) (session : Session) (name : String) :
    ((listeners.foldl call session).widget name).calls =
      (session.widget name).calls +
        (listeners.filter session.answers).countP (·.isOf name) := by
  induction listeners generalizing session with
  | nil => rfl
  | cons listener rest ih =>
      rw [List.foldl_cons, ih, (session.sameWidgets_call listener).answers, calls_call,
        List.countP_filter, List.countP_filter, List.countP_cons, Bool.and_comm]
      omega

theorem sameWidgets_hear (session : Session) : SameWidgets session (session.hear .changed) :=
  sameWidgets_foldl_call _ session

/-- A notification runs the code of a widget once for each callback of it that answers. -/
theorem calls_hear (session : Session) (name : String) :
    ((session.hear .changed).widget name).calls =
      (session.widget name).calls + session.answering.countP (·.isOf name) :=
  calls_foldl_call _ session name

/-! ### What happens to widgets -/

/-- Which watcher a widget has once that of another one, or its own, has been put. -/
theorem watcherOf_insert (session : Session) (name other : String) (widget : Widget)
    (subscriptions : Subscriptions Listener) (serial : Nat) :
    ({ session with
        widgets := session.widgets.insert name widget
        subscriptions := subscriptions
        serial := serial }).watcherOf other =
      if other = name then widget.watcher else session.watcherOf other := by
  unfold watcherOf watcher?
  dsimp only
  rw [KeyedList.find?_insert]
  split <;> rfl

theorem watcherOf_watch (session : Session) (name other : String) :
    (session.take (.watch name)).watcherOf other =
      if other = name then
        { session.watcherOf name with
          watches := (session.watcherOf name).watches ++ [.widget name session.serial] }
      else session.watcherOf other := by
  rw [← watcher_widget session name]
  exact watcherOf_insert ..

theorem watcherOf_unmount (session : Session) (name other : String) :
    (session.take (.unmount name)).watcherOf other =
      if other = name then { session.watcherOf name with watches := [] }
      else session.watcherOf other := by
  rw [← watcher_widget session name]
  exact watcherOf_insert ..

theorem watcherOf_modifyWidget (session : Session) (name other : String)
    (change : Watcher Listener → Watcher Listener) :
    (session.modifyWidget name change).watcherOf other =
      if other = name then change (session.watcherOf name) else session.watcherOf other := by
  rw [← watcher_widget session name]
  exact watcherOf_insert ..

theorem watcherOf_notify (session : Session) (name : String) :
    (session.take .notify).watcherOf name = session.watcherOf name :=
  congrArg (·.getD {}) (session.sameWidgets_hear.watchers name)

/-- Whether a widget is suppressing notifications is told by what happens to its contexts. -/
theorem isSuppressing_take (session : Session) (event : WidgetEvent) (name : String) :
    ((session.take event).watcherOf name).isSuppressing =
      if event.isContextOf name then decide (event = .enter name)
      else (session.watcherOf name).isSuppressing := by
  cases event with
  | notify => rw [watcherOf_notify]; rfl
  | watch other =>
      rw [watcherOf_watch]
      split
      · next h => subst h; rfl
      · rfl
  | unmount other =>
      rw [watcherOf_unmount]
      split
      · next h => subst h; rfl
      · rfl
  | enter other =>
      rw [take, watcherOf_modifyWidget]
      by_cases h : name = other
      · subst h; simp [isContextOf, Watcher.suppress]
      · simp [isContextOf, h, Ne.symm h]
  | leave other =>
      rw [take, watcherOf_modifyWidget]
      by_cases h : name = other
      · subst h; simp [isContextOf, Watcher.listen]
      · simp [isContextOf, h, Ne.symm h]

/-- A widget is suppressing notifications iff a context of it was entered last. -/
theorem isSuppressing_takeAll {session : Session} {name : String}
    (h : (session.watcherOf name).isSuppressing = false) (events : List WidgetEvent) :
    ((session.takeAll events).watcherOf name).isSuppressing =
      decide (lastContext? name events = some (.enter name)) := by
  induction events using List.reverseRecOn with
  | nil => exact h
  | append_singleton front event ih =>
      rw [takeAll, List.foldl_append, List.foldl_cons, List.foldl_nil, ← takeAll,
        isSuppressing_take, lastContext?_concat, ih]
      split <;> simp

/-- The callbacks of widgets are registered as their watchers know them, and under serials that have
been used. -/
structure Registers (session : Session) : Prop where
  owned : ∀ name listener, listener ∈ (session.watcherOf name).watches →
    ∃ serial < session.serial, listener = .widget name serial
  counted : ∀ name serial,
    session.subscriptions.callbacks.count (.widget name serial) =
      (session.watcherOf name).watches.count (.widget name serial)

theorem HasNoWidgets.registers {session : Session} (h : session.HasNoWidgets) :
    session.Registers := by
  have hwatcher (name : String) : session.watcherOf name = {} := by
    rw [watcherOf, h.widgets]
    rfl
  constructor
  · intro name listener hmem
    rw [hwatcher] at hmem
    exact absurd hmem List.not_mem_nil
  · intro name serial
    rw [hwatcher, List.count_eq_zero_of_not_mem (h.callbacks name serial)]
    rfl

/-- What a widget has registered once something has happened. -/
theorem watches_take (session : Session) (event : WidgetEvent) (name : String) :
    ((session.take event).watcherOf name).watches =
      if event = .watch name then
        (session.watcherOf name).watches ++ [.widget name session.serial]
      else if event = .unmount name then [] else (session.watcherOf name).watches := by
  cases event with
  | notify => rw [watcherOf_notify]; rfl
  | watch other =>
      rw [watcherOf_watch]
      by_cases h : name = other
      · subst h; simp
      · simp [h, Ne.symm h]
  | unmount other =>
      rw [watcherOf_unmount]
      by_cases h : name = other
      · subst h; simp
      · simp [h, Ne.symm h]
  | enter other | leave other =>
      rw [take, watcherOf_modifyWidget]
      split
      · next h => subst h; rfl
      · rfl

theorem callbacks_foldl_unwatch (listeners : List Listener)
    (subscriptions : Subscriptions Listener) :
    (listeners.foldl (fun subscriptions listener => subscriptions.unwatch listener)
        subscriptions).callbacks = subscriptions.callbacks.diff listeners := by
  induction listeners generalizing subscriptions with
  | nil => rfl
  | cons listener rest ih => rw [List.foldl_cons, ih, List.diff_cons]; rfl

/-- What happens to a widget leaves no callback registered that its watcher does not know. -/
theorem Registers.take {session : Session} (h : session.Registers) (event : WidgetEvent) :
    (session.take event).Registers := by
  have hserial : session.serial ≤ (session.take event).serial := by
    cases event with
    | watch name => exact Nat.le_succ _
    | notify => exact Nat.le_of_eq session.sameWidgets_hear.serial.symm
    | unmount name | enter name | leave name => exact Nat.le_refl _
  constructor
  · intro name listener hmem
    rw [watches_take] at hmem
    split at hmem
    · next hevent =>
        subst hevent
        rcases List.mem_append.mp hmem with hold | hnew
        · obtain ⟨serial, hlt, rfl⟩ := h.owned name listener hold
          exact ⟨serial, Nat.lt_of_lt_of_le hlt hserial, rfl⟩
        · exact ⟨session.serial, Nat.lt_succ_self _, List.mem_singleton.mp hnew⟩
    · split at hmem
      · exact absurd hmem List.not_mem_nil
      · obtain ⟨serial, hlt, rfl⟩ := h.owned name listener hmem
        exact ⟨serial, Nat.lt_of_lt_of_le hlt hserial, rfl⟩
  · intro name serial
    rw [watches_take]
    cases event with
    | notify =>
        rw [if_neg (by simp), if_neg (by simp), ← h.counted]
        exact session.sameWidgets_hear.callbacks name serial
    | enter other | leave other =>
        rw [if_neg (by simp), if_neg (by simp)]
        exact h.counted name serial
    | watch other =>
        show (session.subscriptions.callbacks ++ [Listener.widget other session.serial]).count _ = _
        rw [List.count_append, h.counted]
        by_cases hname : other = name
        · subst hname
          rw [if_pos rfl, List.count_append]
        · simp [hname]
    | unmount other =>
        show ((session.widget other).watcher.watches.foldl _ session.subscriptions).callbacks.count
          _ = _
        rw [callbacks_foldl_unwatch, watcher_widget, List.count_diff, h.counted]
        by_cases hname : other = name
        · subst hname
          simp
        · have hnone : .widget name serial ∉ (session.watcherOf other).watches := by
            intro hmem
            obtain ⟨_, _, hlistener⟩ := h.owned other _ hmem
            exact hname (Listener.widget.inj hlistener).1.symm
          simp [hname, List.count_eq_zero_of_not_mem hnone]

theorem Registers.takeAll {session : Session} (h : session.Registers)
    (events : List WidgetEvent) : (session.takeAll events).Registers := by
  induction events generalizing session with
  | nil => exact h
  | cons event rest ih => exact ih (h.take event)

/-- A callback that was registered stays so until its widget is unmounted. -/
theorem Registers.mem_watches_takeAll {session : Session} (h : session.Registers) {name : String}
    {serial : Nat} (hserial : serial < session.serial) (events : List WidgetEvent) :
    .widget name serial ∈ ((session.takeAll events).watcherOf name).watches ↔
      .widget name serial ∈ (session.watcherOf name).watches ∧ .unmount name ∉ events := by
  induction events generalizing session with
  | nil => simp [Session.takeAll]
  | cons event rest ih =>
      have hlt : serial < (session.take event).serial := by
        cases event with
        | watch name => exact Nat.lt_succ_of_lt hserial
        | notify => exact Nat.lt_of_lt_of_eq hserial session.sameWidgets_hear.serial.symm
        | unmount name | enter name | leave name => exact hserial
      rw [Session.takeAll, List.foldl_cons, ← Session.takeAll, ih (h.take event) hlt, watches_take]
      by_cases hwatch : event = .watch name
      · subst hwatch
        simp [Nat.ne_of_lt hserial]
      · rw [if_neg hwatch]
        by_cases hunmount : event = .unmount name
        · subst hunmount; simp
        · simp [hunmount, Ne.symm hunmount]

/-- A callback is registered iff its watcher knows it. -/
theorem Registers.mem_answering {session : Session} (h : session.Registers) (name : String)
    (serial : Nat) :
    .widget name serial ∈ session.answering ↔
      .widget name serial ∈ (session.watcherOf name).watches ∧
        (session.watcherOf name).isSuppressing = false := by
  have hmem : .widget name serial ∈ session.subscriptions.callbacks ↔
      .widget name serial ∈ (session.watcherOf name).watches := by
    rw [← List.count_pos_iff, h.counted, List.count_pos_iff]
  unfold answering Subscriptions.notified
  rw [List.mem_filter, hmem, and_congr_right_iff]
  intro hwatches
  obtain ⟨watcher, hwatcher⟩ := Option.isSome_iff_exists.mp (isSome_watcher?_of_mem hwatches)
  simp [answers, watcherOf, hwatcher]

/-- A callback that was registered answers iff its widget has not been unmounted since, and what
happened last to the contexts of the widget is not that one was entered. -/
theorem mem_answering_iff {session : Session} (hsession : session.HasNoWidgets)
    (first second : List WidgetEvent) (name : String) :
    .widget name (session.takeAll first).serial ∈
        (session.takeAll (first ++ .watch name :: second)).answering ↔
      .unmount name ∉ second ∧
        lastContext? name (first ++ .watch name :: second) ≠ some (.enter name) := by
  have hwatched := (hsession.registers.takeAll first).take (.watch name)
  have htake : session.takeAll (first ++ .watch name :: second) =
      ((session.takeAll first).take (.watch name)).takeAll second := by
    rw [takeAll, List.foldl_append, List.foldl_cons]
    rfl
  have hlistens : (session.watcherOf name).isSuppressing = false := by
    rw [watcherOf, hsession.widgets]
    rfl
  have hknown : .widget name (session.takeAll first).serial ∈
      (((session.takeAll first).take (.watch name)).watcherOf name).watches := by
    rw [watches_take, if_pos rfl]
    exact List.mem_append_right _ (List.mem_singleton_self _)
  rw [(hsession.registers.takeAll _).mem_answering, isSuppressing_takeAll hlistens, htake,
    hwatched.mem_watches_takeAll (Nat.lt_succ_self _), and_iff_right hknown,
    decide_eq_false_iff_not]

/-- In a run of a program of nested contexts, a notification runs the code of a widget once for each
callback of it that answers. A callback does iff its widget has not been unmounted since it was
registered, and if contexts of the widget are open, then what happened last to such a context is
that one was left. -/
theorem callback_answers_iff {session : Session} (hsession : session.HasNoWidgets)
    (script : WidgetScript) (first second : List WidgetEvent) (name : String)
    {before after : List WidgetEvent} (hevents : script.events = before ++ .notify :: after)
    (hbefore : before = first ++ .watch name :: second) :
    ((session.takeAll (before ++ [.notify])).widget name).calls =
        ((session.takeAll before).widget name).calls +
          (session.takeAll before).answering.countP (·.isOf name) ∧
      (.widget name (session.takeAll first).serial ∈ (session.takeAll before).answering ↔
        .unmount name ∉ second ∧
          (0 < openContexts name before → lastContext? name before = some (.leave name))) := by
  refine ⟨?_, ?_⟩
  · rw [takeAll, List.foldl_append]
    exact (session.takeAll before).calls_hear name
  · have hanswers := mem_answering_iff hsession first second name
    rw [← hbefore] at hanswers
    rw [hanswers, and_congr_right_iff]
    intro _
    have hprefix : before <+: script.events := by
      rw [hevents]
      exact List.prefix_append _ _
    constructor
    · intro hlast hopen
      exact (lastContext?_of_openContexts_pos hopen).resolve_left hlast
    · intro hopen hlast
      have hpos := (script.isNested_events name).openContexts_pos hprefix hlast
      rw [hopen hpos] at hlast
      simp at hlast

/-- A widget is unmounted in a context that is left by an exception, and another one draws itself in
nested contexts. -/
def nestedContexts : WidgetScript :=
  .andThen (.watch "list") <| .andThen (.watch "tree") <|
    .andThen (.attempt (.suppressing "list" (.andThen (.unmount "list") .raise))) <|
      .suppressing "tree" (.andThen .notify (.suppressing "tree" .notify))

/-- The widget that has the inner contexts hears neither of the notifications in them. -/
theorem callback_answers_iff_nested :
    let before : List WidgetEvent :=
      [.watch "list", .watch "tree", .enter "list", .unmount "list", .leave "list", .enter "tree",
        .notify, .enter "tree"]
    loaded.HasNoWidgets ∧
      nestedContexts.events = before ++ .notify :: [.leave "tree", .leave "tree"] ∧
      .widget "list" 0 ∉ (loaded.takeAll before).answering ∧
      .widget "tree" 1 ∉ (loaded.takeAll before).answering := by
  intro before
  have hfresh : loaded.HasNoWidgets := ⟨fun _ => rfl, fun _ _ => List.not_mem_nil⟩
  have hevents : nestedContexts.events = before ++ .notify :: [.leave "tree", .leave "tree"] := by
    decide +kernel
  have hlist := callback_answers_iff hfresh nestedContexts [] _ "list" hevents rfl
  have htree := callback_answers_iff hfresh nestedContexts [.watch "list"] _ "tree" hevents rfl
  refine ⟨hfresh, hevents, fun h => ?_, fun h => ?_⟩
  · exact absurd (hlist.2.mp h).1 (by decide +kernel)
  · exact absurd (htree.2.mp h).2 (by decide +kernel)

/-- When an inner context of a widget is left, its callback runs although the outer one is open. -/
theorem callback_answers_in_open_context :
    let before : List WidgetEvent := [.watch "tree", .enter "tree", .enter "tree", .leave "tree"]
    let script : WidgetScript :=
      .andThen (.watch "tree")
        (.suppressing "tree" (.andThen (.suppressing "tree" .pass) .notify))
    script.events = before ++ .notify :: [.leave "tree"] ∧ openContexts "tree" before = 1 ∧
      .widget "tree" 0 ∈ (loaded.takeAll before).answering ∧
      ((loaded.takeAll (before ++ [.notify])).widget "tree").calls = 1 := by
  decide +kernel

end Session

end CommentIndex
