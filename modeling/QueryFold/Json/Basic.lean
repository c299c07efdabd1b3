/-!
# JSON documents

A document keeps what later steps need to tell apart: integers are separate from
other numbers, and the members of an object stand in the order in which they were
written, repeated names included. A part can be well formed and yet stand for no value;
this does no harm as long as nobody asks for that part.
-/

namespace QueryFold

/-- A JSON value. -/
inductive Json where
  /-- The value `null`. -/
  | null
  /-- A truth value. -/
  | bool (value : Bool)
  /-- A number written as an integer of at most sixty-four bits. -/
  | int (value : Int)
  /-- Any other number. -/
  | float (value : Float)
  /-- A text. -/
  | string (value : String)
  /-- A list of values. -/
  | array (items : List Json)
  /-- Named values in the order in which they are written. -/
  | object (members : List (String × Json))
  /-- A well-formed part that stands for no value: half of a character, a number that is too large,
  an object with such a name, or a list or object that is nested too deep. -/
  | unreadable
  deriving Inhabited

namespace Json

mutual

/-- How deeply lists and objects are nested in a value. -/
def height : Json → Nat
  | .array items => heightItems items + 1
  | .object members => heightMembers members + 1
  | _ => 0

/-- The height of the highest of several values. -/
def heightItems : List Json → Nat
  | [] => 0
  | item :: items => max item.height (heightItems items)

/-- The height of the highest of several members. -/
def heightMembers : List (String × Json) → Nat
  | [] => 0
  | (_, value) :: members => max value.height (heightMembers members)

end

/-- Set the value of a member, at its old place if there is one of that name. -/
def put (name : String) (value : Json) : List (String × Json) → List (String × Json)
  | [] => [(name, value)]
  | (key, old) :: members =>
    if key = name then (key, value) :: members else (key, old) :: put name value members

mutual

/-- The value in which the last of several members of one name stands for all of them, at the place
of the first. -/
def lastWins : Json → Json
  | .array items => .array (lastWinsItems items)
  | .object members => .object (lastWinsMembers [] members)
  | value => value

/-- `lastWins` on each of several values. -/
def lastWinsItems : List Json → List Json
  | [] => []
  | item :: items => item.lastWins :: lastWinsItems items

/-- `lastWins` on the value of each of several members, which are then put one by one into the
members `done`. -/
def lastWinsMembers (done : List (String × Json)) : List (String × Json) → List (String × Json)
  | [] => done
  | (key, value) :: members => lastWinsMembers (put key value.lastWins done) members

end

mutual

/-- Whether every part of a value can be read. -/
def isReadable : Json → Bool
  | .unreadable => false
  | .array items => itemsReadable items
  | .object members => membersReadable members
  | _ => true

/-- `isReadable` for all of several values. -/
def itemsReadable : List Json → Bool
  | [] => true
  | item :: items => item.isReadable && itemsReadable items

/-- `isReadable` for the values of several members. -/
def membersReadable : List (String × Json) → Bool
  | [] => true
  | (_, value) :: members => value.isReadable && membersReadable members

end

mutual

/-- The value in which no list or object can be read that is nested in `depth` others. -/
def limitDepth : (depth : Nat) → Json → Json
  | 0, .array _ => .unreadable
  | 0, .object _ => .unreadable
  | depth + 1, .array items => .array (limitItems depth items)
  | depth + 1, .object members => .object (limitMembers depth members)
  | _, value => value

/-- `limitDepth` on each of several values. -/
def limitItems (depth : Nat) : List Json → List Json
  | [] => []
  | item :: items => item.limitDepth depth :: limitItems depth items

/-- `limitDepth` on the value of each of several members. -/
def limitMembers (depth : Nat) : List (String × Json) → List (String × Json)
  | [] => []
  | (key, value) :: members => (key, value.limitDepth depth) :: limitMembers depth members

end

end Json

end QueryFold
