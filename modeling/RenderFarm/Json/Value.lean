/-!
JSON values. A number is whole or a double. A scalar that is written correctly but has no value, such as
an unpaired surrogate or a number beyond the doubles, is kept as `unreadable`: it may be passed over but
not read.
-/

namespace RenderFarm

/-- A JSON value; the members of an object are in the order written, repeated names included. -/
inductive Json where
  | null
  | bool (b : Bool)
  | int (n : Int)
  | float (x : Float)
  | string (s : String)
  | array (items : List Json)
  | object (members : List (String × Json))
  | unreadable
deriving Inhabited

namespace Json

/-- The last member of a name. -/
def member? (name : String) : Json → Option Json
  | .object members => (members.reverse.find? (·.1 == name)).map (·.2)
  | _ => none

/-- The number of members with a name. -/
def count (name : String) : Json → Nat
  | .object members => (members.filter (·.1 == name)).length
  | _ => 0

mutual

/-- Two values are equal: objects as sets of members, doubles by comparison. -/
def same : Json → Json → Bool
  | .null, .null => true
  | .bool a, .bool b => a == b
  | .int a, .int b => a == b
  | .float a, .float b => a == b
  | .string a, .string b => a == b
  | .array as, .array bs => sameItems as bs
  | .object as, .object bs => as.length == bs.length && sameMembers as bs
  | .unreadable, .unreadable => true
  | _, _ => false

/-- Two lists of values are equal item by item. -/
def sameItems : List Json → List Json → Bool
  | [], [] => true
  | a :: as, b :: bs => same a b && sameItems as bs
  | _, _ => false

/-- Every member on the left has an equal one of the same name on the right. -/
def sameMembers : List (String × Json) → List (String × Json) → Bool
  | [], _ => true
  | (name, a) :: as, bs =>
    (match bs.find? (·.1 == name) with
      | some (_, b) => same a b
      | none => false) && sameMembers as bs

end

mutual

/-- How many arrays and objects lie inside each other at the deepest place. -/
def depth : Json → Nat
  | .array items => itemsDepth items + 1
  | .object members => membersDepth members + 1
  | _ => 0

/-- The greatest depth of the items. -/
def itemsDepth : List Json → Nat
  | [] => 0
  | item :: items => max (depth item) (itemsDepth items)

/-- The greatest depth of the members. -/
def membersDepth : List (String × Json) → Nat
  | [] => 0
  | (_, v) :: members => max (depth v) (membersDepth members)

end

mutual

/-- Whether every scalar of the value can be read. -/
def readable : Json → Bool
  | .array items => itemsReadable items
  | .object members => membersReadable members
  | .unreadable => false
  | _ => true

/-- Whether every item can be read. -/
def itemsReadable : List Json → Bool
  | [] => true
  | item :: items => readable item && itemsReadable items

/-- Whether every member can be read. -/
def membersReadable : List (String × Json) → Bool
  | [] => true
  | (_, v) :: members => readable v && membersReadable members

end

end Json

end RenderFarm
