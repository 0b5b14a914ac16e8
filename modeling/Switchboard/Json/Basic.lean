import Switchboard.Number.Binary64

/-!
# JSON values

A value is kept as its text has it: the members of an object stand in text order, equal keys
included. `Json.normalize` gives the value that a receiver works with: members sorted by key, the
last of equal keys kept, at every level.

* `Json.IsNormal` says without reference to `normalize` what a normalized value looks like.
* `Json.depth` counts the levels of arrays and objects.
-/

namespace Switchboard

/-- A JSON number: whole numbers are exact, all others are binary floating point. -/
inductive Json.Number
  | int (n : Int)
  | float (x : Binary64)
deriving DecidableEq, Repr, Inhabited

/-- A JSON value. -/
inductive Json
  | null
  | bool (b : Bool)
  | num (n : Json.Number)
  | str (s : String)
  | arr (items : List Json)
  | obj (members : List (String × Json))
deriving Repr, Inhabited

namespace Json

/-- A name with its value. -/
abbrev Member := String × Json

/-! ## Equality -/

mutual

/-- Whether two values are the same, members in the same order. -/
def decEq : (x y : Json) → Decidable (x = y)
  | .null, .null => isTrue rfl
  | .bool a, .bool b => if h : a = b then isTrue (h ▸ rfl) else isFalse (by simp [h])
  | .num a, .num b => if h : a = b then isTrue (h ▸ rfl) else isFalse (by simp [h])
  | .str a, .str b => if h : a = b then isTrue (h ▸ rfl) else isFalse (by simp [h])
  | .arr a, .arr b =>
    match decEqItems a b with
    | isTrue h => isTrue (h ▸ rfl)
    | isFalse h => isFalse (by simp [h])
  | .obj a, .obj b =>
    match decEqMembers a b with
    | isTrue h => isTrue (h ▸ rfl)
    | isFalse h => isFalse (by simp [h])
  | .null, .bool _ | .null, .num _ | .null, .str _ | .null, .arr _ | .null, .obj _
  | .bool _, .null | .bool _, .num _ | .bool _, .str _ | .bool _, .arr _ | .bool _, .obj _
  | .num _, .null | .num _, .bool _ | .num _, .str _ | .num _, .arr _ | .num _, .obj _
  | .str _, .null | .str _, .bool _ | .str _, .num _ | .str _, .arr _ | .str _, .obj _
  | .arr _, .null | .arr _, .bool _ | .arr _, .num _ | .arr _, .str _ | .arr _, .obj _
  | .obj _, .null | .obj _, .bool _ | .obj _, .num _ | .obj _, .str _ | .obj _, .arr _ =>
    isFalse (by simp)

/-- Whether two lists of values are the same. -/
def decEqItems : (x y : List Json) → Decidable (x = y)
  | [], [] => isTrue rfl
  | [], _ :: _ | _ :: _, [] => isFalse (by simp)
  | a :: x, b :: y =>
    match decEq a b, decEqItems x y with
    | isTrue h, isTrue t => isTrue (h ▸ t ▸ rfl)
    | isFalse h, _ => isFalse (by simp [h])
    | _, isFalse t => isFalse (by simp [t])

/-- Whether two lists of members are the same. -/
def decEqMembers : (x y : List Member) → Decidable (x = y)
  | [], [] => isTrue rfl
  | [], _ :: _ | _ :: _, [] => isFalse (by simp)
  | (k, a) :: x, (l, b) :: y =>
    if h : k = l then
      match decEq a b, decEqMembers x y with
      | isTrue i, isTrue t => isTrue (h ▸ i ▸ t ▸ rfl)
      | isFalse i, _ => isFalse (by simp [i])
      | _, isFalse t => isFalse (by simp [t])
    else isFalse (by simp [h])

end

instance : DecidableEq Json := decEq

/-! ## Objects as finite maps -/

/-- Members sorted by key, with `k` standing for `v`. -/
def insert (k : String) (v : Json) : List Member → List Member
  | [] => [(k, v)]
  | (k', v') :: rest =>
    if k = k' then (k, v) :: rest
    else if k < k' then (k, v) :: (k', v') :: rest
    else (k', v') :: insert k v rest

/-- Members as a map: sorted, the last of equal keys kept. -/
def toMap (members : List Member) : List Member :=
  members.foldl (fun m (k, v) => insert k v m) []

/-- The value of a key. -/
def find? (k : String) : List Member → Option Json
  | [] => none
  | (k', v) :: rest => if k = k' then some v else find? k rest

mutual

/-- The value with all its objects turned into maps. -/
def normalize : Json → Json
  | .arr items => .arr (normalizeItems items)
  | .obj members => .obj (toMap (normalizeMembers members))
  | v => v

/-- `normalize` on every item. -/
def normalizeItems : List Json → List Json
  | [] => []
  | v :: rest => normalize v :: normalizeItems rest

/-- `normalize` on every member's value. -/
def normalizeMembers : List Member → List Member
  | [] => []
  | (k, v) :: rest => (k, normalize v) :: normalizeMembers rest

end

/-- Whether keys strictly ascend. -/
def KeysAscend (members : List Member) : Prop := (members.map Prod.fst).Pairwise (· < ·)

instance (members : List Member) : Decidable (KeysAscend members) :=
  inferInstanceAs (Decidable (List.Pairwise _ _))

mutual

/-- Keys strictly ascend at every level of the value. -/
def IsNormal : Json → Prop
  | .arr items => AreNormal items
  | .obj members => KeysAscend members ∧ AreNormalMembers members
  | _ => True

/-- `IsNormal` for every item. -/
def AreNormal : List Json → Prop
  | [] => True
  | v :: rest => IsNormal v ∧ AreNormal rest

/-- `IsNormal` for every member's value. -/
def AreNormalMembers : List Member → Prop
  | [] => True
  | (_, v) :: rest => IsNormal v ∧ AreNormalMembers rest

end

/-! ## Depth -/

mutual

/-- How many arrays and objects stand inside one another. -/
def depth : Json → Nat
  | .arr items => depthItems items + 1
  | .obj members => depthMembers members + 1
  | _ => 0

/-- The greatest depth of an item. -/
def depthItems : List Json → Nat
  | [] => 0
  | v :: rest => max (depth v) (depthItems rest)

/-- The greatest depth of a member's value. -/
def depthMembers : List Member → Nat
  | [] => 0
  | (_, v) :: rest => max (depth v) (depthMembers rest)

end

end Json
end Switchboard
