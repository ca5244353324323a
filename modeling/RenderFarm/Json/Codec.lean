import RenderFarm.Json.Reader
import RenderFarm.Path

/-!
Values that have a JSON form. A structure is an object with its fields in order, or an array of just its
fields; unknown members are passed over and a repeated one is refused.
-/

namespace RenderFarm

/-- A JSON form: writing always works, reading may fail. -/
class JsonForm (α : Type) where
  toJson : α → Json
  ofJson? : Json → Option α

export JsonForm (toJson ofJson?)

namespace Json

instance : JsonForm String where
  toJson := .string
  ofJson?
    | .string s => some s
    | _ => none

instance : JsonForm Bool where
  toJson := .bool
  ofJson?
    | .bool b => some b
    | _ => none

instance : JsonForm Path where
  toJson p := .string p.text
  ofJson?
    | .string s => some ⟨s⟩
    | _ => none

/-- Reads a whole number between bounds. -/
def intBetween? (lo hi : Int) : Json → Option Int
  | .int n => if lo ≤ n ∧ n ≤ hi then some n else none
  | _ => none

instance : JsonForm UInt32 where
  toJson n := .int n.toNat
  ofJson? v := (intBetween? 0 (twoTo 32 - 1) v).map fun n => UInt32.ofNat n.toNat

instance : JsonForm Nat where
  toJson n := .int n
  ofJson? v := (intBetween? 0 (twoTo 64 - 1) v).map Int.toNat

instance : JsonForm Int64 where
  toJson n := .int n.toInt
  ofJson? v := (intBetween? (-(twoTo 63 : Int)) (twoTo 63 - 1) v).map Int64.ofInt

/-- The double nearest to a whole number. -/
def floatOfInt (n : Int) : Float :=
  if n < 0 then -(Float.ofNat n.natAbs) else Float.ofNat n.natAbs

instance : JsonForm Float where
  toJson x := if x.isFinite then .float x else .null
  ofJson?
    | .float x => some x
    | .int n => some (floatOfInt n)
    | _ => none

instance {α : Type} [JsonForm α] : JsonForm (Option α) where
  toJson
    | none => .null
    | some a => toJson a
  ofJson?
    | .null => some none
    | v => (ofJson? v).map some

/-- Reads every item of a list. -/
def readAll? {α : Type} [JsonForm α] : List Json → Option (List α)
  | [] => some []
  | v :: vs => do
    let a ← ofJson? v
    let as ← readAll? vs
    pure (a :: as)

instance {α : Type} [JsonForm α] : JsonForm (List α) where
  toJson as := .array (as.map toJson)
  ofJson?
    | .array vs => readAll? vs
    | _ => none

/-- Values of any form nested up to 127 levels deep. -/
instance : JsonForm Json where
  toJson v := v
  ofJson? v := if v.readable && v.depth < 128 then some v else none

/-- The fields of a record in a form that is looked up by name: those of an object, or those of an array that
holds them in order and leaves out none of the first `required` ones. -/
def asRecord? (names : List String) (required : Nat) : Json → Option Json
  | .object members =>
    if names.all fun name => Json.count name (.object members) ≤ 1 then some (.object members) else none
  | .array items =>
    if required ≤ items.length ∧ items.length ≤ names.length then some (.object (names.zip items))
    else none
  | _ => none

/-- The fields of a record none of which may be left out of an array. -/
def asStruct? (names : List String) (v : Json) : Option Json :=
  v.asRecord? names names.length

/-- Reads a field. One that is missing counts as null, which only an optional value accepts. -/
def field? {α : Type} [JsonForm α] (v : Json) (name : String) : Option α :=
  ofJson? ((v.member? name).getD .null)

/-- Reads a field that may be missing altogether, but not null. -/
def fieldD? {α : Type} [JsonForm α] (v : Json) (name : String) (default : α) : Option α :=
  match v.member? name with
  | none => some default
  | some v => ofJson? v

/-- An object in which members without a value are left out. -/
def objectOf (members : List (String × Option Json)) : Json :=
  .object (members.filterMap fun (name, v) => v.map fun v => (name, v))

end Json

end RenderFarm
