/-!
# Static types

Every expression of a query carries a static type: a name applied to generic
arguments. Types are only passed along, never checked; the one question asked of
a type is whether it is a sequence, and of what.
-/

namespace QueryFold

/-- A static type: a name applied to generic arguments. -/
structure Ty where
  /-- The name of the type or of the type constructor. -/
  name : String
  /-- The generic arguments, none for a plain type. -/
  args : List Ty
  deriving Inhabited

namespace Ty

mutual

/-- Equality of types can be decided: names and arguments are compared in order. -/
def decEq : (s t : Ty) → Decidable (s = t)
  | ⟨name, args⟩, ⟨name', args'⟩ =>
    have := decEqArgs args args'
    decidable_of_iff (name = name' ∧ args = args') (by simp)

/-- Equality of argument lists can be decided. -/
def decEqArgs : (ss ts : List Ty) → Decidable (ss = ts)
  | [], [] => isTrue rfl
  | [], _ :: _ => isFalse (by simp)
  | _ :: _, [] => isFalse (by simp)
  | s :: ss, t :: ts =>
    have := decEq s t
    have := decEqArgs ss ts
    decidable_of_iff (s = t ∧ ss = ts) (by simp)

end

instance : DecidableEq Ty := decEq

/-! ### Common types -/

/-- A type without arguments. -/
def plain (name : String) : Ty := ⟨name, []⟩

/-- The type of truth values. -/
def bool : Ty := plain "bool"

/-- The type of integers. -/
def int : Ty := plain "int"

/-- The type of everything. -/
def object : Ty := plain "object"

/-- Arrays of `element`. -/
def array (element : Ty) : Ty := ⟨"[]", [element]⟩

/-- Sequences of `element` that are enumerated in memory. -/
def enumerable (element : Ty) : Ty := ⟨"IEnumerable", [element]⟩

/-- Sequences of `element` that are the result of a query. -/
def queryable (element : Ty) : Ty := ⟨"IQueryable", [element]⟩

/-- Groups of `element` under a common `key`. -/
def grouping (key element : Ty) : Ty := ⟨"IGrouping", [key, element]⟩

/-- Functions from the types `params` to the type `result`. -/
def function (params : List Ty) (result : Ty) : Ty := ⟨"Func", params ++ [result]⟩

/-! ### Sequences -/

/-- The type constructors whose single argument is the type of their items. -/
def sequenceNames : List String :=
  ["[]", "IEnumerable", "IQueryable", "IOrderedEnumerable", "IOrderedQueryable", "List"]

/-- The type of the items of a sequence type. A grouping is a sequence of its second
argument, whatever follows; the other sequence types have exactly one argument. -/
def element? (t : Ty) : Option Ty :=
  if t.name = "IGrouping" then t.args[1]?
  else match t.args with
    | [element] => if t.name ∈ sequenceNames then some element else none
    | _ => none

/-- Whether values of the type can be iterated over. -/
def isSequence (t : Ty) : Bool := t.element?.isSome

@[simp] theorem element?_array (t : Ty) : (array t).element? = some t := by
  simp [array, element?, sequenceNames]

@[simp] theorem element?_enumerable (t : Ty) : (enumerable t).element? = some t := by
  simp [enumerable, element?, sequenceNames]

@[simp] theorem element?_queryable (t : Ty) : (queryable t).element? = some t := by
  simp [queryable, element?, sequenceNames]

@[simp] theorem element?_grouping (k t : Ty) : (grouping k t).element? = some t := by
  simp [grouping, element?]

/-! ### Text -/

mutual

/-- The text of a type: `Cook[]` for an array, `Name<A, B>` for other applications. -/
def render : Ty → String
  | ⟨name, []⟩ => name
  | ⟨name, [arg]⟩ =>
    if name = "[]" then arg.render ++ "[]" else name ++ "<" ++ arg.render ++ ">"
  | ⟨name, arg :: args⟩ => name ++ "<" ++ ", ".intercalate (arg.render :: renderArgs args) ++ ">"

/-- The texts of a list of types. -/
def renderArgs : List Ty → List String
  | [] => []
  | t :: ts => t.render :: renderArgs ts

end

theorem renderArgs_eq_map (ts : List Ty) : renderArgs ts = ts.map render := by
  induction ts with
  | nil => rfl
  | cons t ts ih => simp [renderArgs, ih]

end Ty

end QueryFold
