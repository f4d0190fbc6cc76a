/-!
# JSON documents

* `Json` — a document as it was written: members keep their order and may repeat a key;
* `Json.depth` — how many arrays and objects nest;
* `Json.limitDepth` — the document with everything below a given level made unreadable.

A document may hold parts that can be skipped but not read: a string whose escapes spell no text, or a part
that nests too deep.  Such a part is `Json.unreadable`; whoever asks for its content gets nothing.
-/

namespace ScriptLowering

/-- A JSON document. -/
inductive Json where
  | null
  | bool (value : Bool)
  /-- A number written with digits alone. -/
  | natural (value : Nat)
  /-- A number written with a sign, a fraction or an exponent, kept as its text. -/
  | decimal (text : String)
  | string (text : String)
  | array (items : List Json)
  | object (members : List (String × Json))
  /-- A part that may be skipped and never read. -/
  | unreadable

namespace Json

/-! ### Depth -/

mutual

/-- How many arrays and objects nest; a scalar has depth zero. -/
def depth : Json → Nat
  | .array items => depthOfItems items + 1
  | .object members => depthOfMembers members + 1
  | _ => 0

/-- The depth of the deepest item. -/
def depthOfItems : List Json → Nat
  | [] => 0
  | item :: rest => max item.depth (depthOfItems rest)

/-- The depth of the deepest member. -/
def depthOfMembers : List (String × Json) → Nat
  | [] => 0
  | (_, value) :: rest => max value.depth (depthOfMembers rest)

end

mutual

/-- The document with every array and object below level `n` made unreadable. -/
def limitDepth (n : Nat) : Json → Json
  | .array items =>
    match n with
    | 0 => .unreadable
    | n + 1 => .array (limitItems n items)
  | .object members =>
    match n with
    | 0 => .unreadable
    | n + 1 => .object (limitMembers n members)
  | .null => .null
  | .bool value => .bool value
  | .natural value => .natural value
  | .decimal text => .decimal text
  | .string text => .string text
  | .unreadable => .unreadable

/-- Every item, limited. -/
def limitItems (n : Nat) : List Json → List Json
  | [] => []
  | item :: rest => limitDepth n item :: limitItems n rest

/-- Every member, its value limited. -/
def limitMembers (n : Nat) : List (String × Json) → List (String × Json)
  | [] => []
  | (key, value) :: rest => (key, limitDepth n value) :: limitMembers n rest

end

mutual

/-- A document within the limit is left as it is. -/
theorem limitDepth_eq_self (n : Nat) : ∀ j : Json, j.depth ≤ n → j.limitDepth n = j
  | .array items, h => by
    cases n with
    | zero => simp [depth] at h
    | succ n => simp only [limitDepth, limitItems_eq_self n items (by simpa [depth] using h)]
  | .object members, h => by
    cases n with
    | zero => simp [depth] at h
    | succ n => simp only [limitDepth, limitMembers_eq_self n members (by simpa [depth] using h)]
  | .null, _ => rfl
  | .bool _, _ => rfl
  | .natural _, _ => rfl
  | .decimal _, _ => rfl
  | .string _, _ => rfl
  | .unreadable, _ => rfl

/-- Items within the limit are left as they are. -/
theorem limitItems_eq_self (n : Nat) : ∀ items : List Json, depthOfItems items ≤ n →
    limitItems n items = items
  | [], _ => rfl
  | item :: rest, h => by
    simp only [depthOfItems, Nat.max_le] at h
    rw [limitItems, limitDepth_eq_self n item h.1, limitItems_eq_self n rest h.2]

/-- Members within the limit are left as they are. -/
theorem limitMembers_eq_self (n : Nat) : ∀ members : List (String × Json), depthOfMembers members ≤ n →
    limitMembers n members = members
  | [], _ => rfl
  | (key, value) :: rest, h => by
    simp only [depthOfMembers, Nat.max_le] at h
    rw [limitMembers, limitDepth_eq_self n value h.1, limitMembers_eq_self n rest h.2]

end

end Json

end ScriptLowering
