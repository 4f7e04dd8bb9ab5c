import LedgerNode.Json

namespace LedgerNode

namespace Json

/-!
# Records and variants as documents

A record is an object with a member for each field, or an array of the fields
in their order.  Members with other names are passed over, but no field may
occur twice.

A variant is an object whose one member is named for it and holds its content.
A variant without content may also be just its name.
-/

/-- When a field may be left out. -/
inductive Presence where
  | required
  /-- The member of an object may be missing, the item of an array may not. -/
  | optional
  /-- The field has a default value. -/
  | defaulted
deriving DecidableEq

def membersNamed (name : String) (members : List (String × Json)) : List Json :=
  (members.filter (·.1 == name)).map (·.2)

/-- The field with the given name, if an object has it once. -/
def member? (members : List (String × Json)) (field : String × Presence) :
    Option (Option Json) :=
  match membersNamed field.1 members with
  | [] => if field.2 = .required then none else some none
  | [value] => some (some value)
  | _ => none

/-- The fields of an array, as far as it goes. -/
def fieldsOfItems : List (String × Presence) → List Json → Option (List (Option Json))
  | [], [] => some []
  | [], _ :: _ => none
  | field :: fields, [] =>
    if field.2 = .defaulted then (fieldsOfItems fields []).map (none :: ·) else none
  | _ :: fields, item :: items => (fieldsOfItems fields items).map (some item :: ·)

/-- The fields of a record in the order in which they are given. -/
def fields? (fields : List (String × Presence)) : Json → Option (List (Option Json))
  | .object members => do
    let named ← members.mapM fun (name, value) => do
      let name ← spelledText? name
      some (name, value)
    fields.mapM (member? named)
  | .array items => fieldsOfItems fields items
  | _ => none

def allFields? (names : List String) (document : Json) : Option (List Json) := do
  let fields ← document.fields? (names.map fun name => (name, .required))
  fields.mapM id

/-- The name of a variant, and its content if it has any. -/
def variant? : Json → Option (String × Option Json)
  | .string spelling => do
    let name ← spelledText? spelling
    some (name, none)
  | .object [(spelling, content)] => do
    let name ← spelledText? spelling
    some (name, some content)
  | _ => none

/-- The name of a variant without content. -/
def unitVariant? (document : Json) : Option String := do
  match ← document.variant? with
  | (name, none) => some name
  | (name, some .null) => some name
  | _ => none

end Json

end LedgerNode
