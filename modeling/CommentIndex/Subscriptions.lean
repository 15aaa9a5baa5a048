/-!
# Subscriptions

Callbacks that are called when something changes. `Subscriptions` lists them in the order in which
they were registered; undoing a registration takes the first one of its callback off the list. A
`Watcher` is one who has callbacks registered and can turn them a deaf ear for a while.
-/

namespace CommentIndex

/-- The callbacks that are registered, as often as they are. -/
structure Subscriptions (κ : Type) where
  callbacks : List κ
deriving DecidableEq, Repr

namespace Subscriptions

variable {κ : Type}

/-- No callbacks. -/
def empty : Subscriptions κ := ⟨[]⟩

instance : Inhabited (Subscriptions κ) := ⟨empty⟩

/-- Registers a callback. -/
def watch (subscriptions : Subscriptions κ) (callback : κ) : Subscriptions κ :=
  ⟨subscriptions.callbacks ++ [callback]⟩

/-- Undoes a registration of a callback. -/
def unwatch [DecidableEq κ] (subscriptions : Subscriptions κ) (callback : κ) : Subscriptions κ :=
  ⟨subscriptions.callbacks.erase callback⟩

/-- The callbacks that a notification calls, in order. -/
def notified (subscriptions : Subscriptions κ) : List κ :=
  subscriptions.callbacks

end Subscriptions

/-- One who has callbacks registered. -/
structure Watcher (κ : Type) where
  /-- The registered callbacks. -/
  watches : List κ := []
  /-- Whether notifications are passed over. -/
  isSuppressing : Bool := false
deriving DecidableEq, Repr, Inhabited

namespace Watcher

variable {κ : Type}

/-- Registers a callback of a watcher. -/
def watch (watcher : Watcher κ) (subscriptions : Subscriptions κ) (callback : κ) :
    Watcher κ × Subscriptions κ :=
  ({ watcher with watches := watcher.watches ++ [callback] }, subscriptions.watch callback)

/-- Begins to pass over notifications. -/
def suppress (watcher : Watcher κ) : Watcher κ :=
  { watcher with isSuppressing := true }

/-- Ends to pass over notifications. -/
def listen (watcher : Watcher κ) : Watcher κ :=
  { watcher with isSuppressing := false }

/-- Undoes all registrations of a watcher that is not needed any more. -/
def unmount [DecidableEq κ] (watcher : Watcher κ) (subscriptions : Subscriptions κ) :
    Watcher κ × Subscriptions κ :=
  ({ watcher with watches := [] },
    watcher.watches.foldl (fun subscriptions callback => subscriptions.unwatch callback)
      subscriptions)

end Watcher

end CommentIndex
