import CommentIndex.Proofs.Registry.Merging

/-!
# Whatever is done to a registry

A registry that is reached from the empty one by registering tags, taking tags out and applying
entries of settings, in any order, has each tag under its own name in capitals, once. This is
`inOrder_after`, from one lemma for each operation.
-/

namespace CommentIndex.Registry

/-- What can be done to a registry. -/
inductive Operation where
  | register (tag : Tag)
  | unregister (name : String)
  | apply (name : String) (entry : List (Value × Value))

/-- The registry after an operation. -/
def perform (registry : Registry) : Operation → Registry
  | .register tag => registry.register tag
  | .unregister name => registry.unregister name
  | .apply name entry => registry.apply name entry

/-- The registry after some operations, from the empty one. -/
def after (operations : List Operation) : Registry :=
  operations.foldl perform empty

/-- What an operation has come in or takes out. -/
def Operation.logged : Operation → String × Bool
  | .register tag => (tag.key, true)
  | .unregister name => (Text.upperString name, false)
  | .apply name entry => (Text.upperString name, !turnsOff entry)

variable {log : Log} {registry : Registry}

/-- An operation keeps the tags in order. -/
theorem InOrder.perform (h : InOrder log registry) (operation : Operation) :
    InOrder (log ++ [operation.logged]) (registry.perform operation) := by
  cases operation with
  | register tag => exact h.register tag
  | unregister name => exact h.unregister name
  | apply name entry => exact h.apply (name, entry)

/-- Whatever is done to it, a registry has its tags in order. -/
theorem inOrder_after (operations : List Operation) :
    InOrder (operations.map Operation.logged) (after operations) := by
  have hrun {log : Log} {registry : Registry} (h : InOrder log registry) :
      InOrder (log ++ operations.map Operation.logged)
        (operations.foldl Registry.perform registry) := by
    induction operations generalizing log registry with
    | nil => simpa using h
    | cons operation rest ih => simpa using ih (h.perform operation)
  exact hrun inOrder_empty

end CommentIndex.Registry
