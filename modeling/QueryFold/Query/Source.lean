import QueryFold.Query.Error

/-!
# Sources and their identities

Identities are drawn one after the other from a supply. The supply is any sequence of
identities, and the number of identities drawn so far is state: an identity once drawn
stays drawn, also if the operation that drew it fails later.
-/

namespace QueryFold

/-- A computation in a monad that may fail and that draws identities; the state counts them. -/
abbrev DrawT (m : Type → Type) (ε : Type) := ExceptT ε (StateT Nat m)

/-- A computation that may fail and that draws identities. -/
abbrev DrawM (ε : Type) := DrawT Id ε

variable {m : Type → Type} [Monad m] {ε : Type}

/-- The supply that counts upward from one. -/
def SourceId.countUp (drawn : Nat) : SourceId := ⟨drawn + 1⟩

/-- Draw the next identity from a supply. -/
def SourceId.draw (ids : Nat → SourceId) : DrawT m ε SourceId := do
  let drawn ← get
  set (drawn + 1)
  return ids drawn

namespace Source

/-- A new source for items of a given name and type. No identity is drawn for an empty name. -/
def create (ids : Nat → SourceId) (item : Param) : DrawT m QueryError Source := do
  if item.name = "" then throw .emptyItemName
  return ⟨← SourceId.draw ids, item⟩

/-- The source with another item name. References to it stay valid. -/
def rename (s : Source) (name : String) : Except QueryError Source :=
  if name = "" then .error .emptyItemName else .ok { s with item := { s.item with name := name } }

/-- The source with another item type and, since references to it were made for the old type, a new
identity. -/
def retype (ids : Nat → SourceId) (s : Source) (type : Ty) : DrawT m ε Source := do
  return ⟨← SourceId.draw ids, { s.item with type := type }⟩

end Source

end QueryFold
