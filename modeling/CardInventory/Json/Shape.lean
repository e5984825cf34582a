import CardInventory.Json.Mismatch
import CardInventory.SortedMap
import CardInventory.Uuid

/-
# Shapes of JSON values

A shape says how the values of a type stand in JSON; writing and reading both follow from it.

A record is written as an object with its fields in order, an optional field without a value being
left out. It is read from an object with its members in any order, in which members of other names
are passed over, or from an array of its fields in order. A choice is read from the text of its
name or from an object with the name as only key and null as its value. Of two entries of a map
with one key the later one stays, while a repeated field of a record is refused.

Reading goes from left to right and reports the first thing that is wrong.
-/

namespace CardInventory
namespace Json

mutual

/-- How the values of a type stand in JSON. -/
inductive Shape where
  | text
  /-- The whole numbers below a limit, under the name of their range. -/
  | whole (limit : Nat) (name : String)
  | uuid
  /-- One of some names. -/
  | choice (names : List String)
  | list (item : Shape)
  | map (item : Shape)
  | record (name : String) (fields : Fields)

/-- The fields of a record, in order. -/
inductive Fields where
  | done
  | needed (name : String) (shape : Shape) (rest : Fields)
  /-- A field that may be absent or null. -/
  | optional (name : String) (shape : Shape) (rest : Fields)

end

mutual

/-- The values of a shape. -/
@[reducible] def Shape.Value : Shape → Type
  | .text => String
  | .whole limit _ => Fin limit
  | .uuid => Uuid
  | .choice names => Fin names.length
  | .list item => List item.Value
  | .map item => SortedMap item.Value
  | .record _ fields => fields.Values

/-- The values of the fields of a record. -/
@[reducible] def Fields.Values : Fields → Type
  | .done => Unit
  | .needed _ shape rest => shape.Value × rest.Values
  | .optional _ shape rest => Option shape.Value × rest.Values

end

/-- How many fields there are. -/
def Fields.size : Fields → Nat
  | .done => 0
  | .needed _ _ rest => rest.size + 1
  | .optional _ _ rest => rest.size + 1

/-- A record of which some fields have been read. -/
@[reducible] def Fields.Draft : Fields → Type
  | .done => Unit
  | .needed _ shape rest => Option shape.Value × rest.Draft
  | .optional _ shape rest => Option (Option shape.Value) × rest.Draft

/-- A record of which no field has been read. -/
def Fields.blank : (fs : Fields) → fs.Draft
  | .done => ()
  | .needed _ _ rest => (none, rest.blank)
  | .optional _ _ rest => (none, rest.blank)

/-- The record that a draft holds; the first needed field without a value is missing. -/
def Fields.finish : (fs : Fields) → fs.Draft → Except DecodeError fs.Values
  | .done, _ => .ok ()
  | .needed name _ rest, (v, draft) =>
    match v with
    | none => .error (.unfit (.missingField name))
    | some v => (rest.finish draft).map fun vs => (v, vs)
  | .optional _ _ rest, (v, draft) => (rest.finish draft).map fun vs => (v.getD none, vs)

/-! ## Writing -/

mutual

/-- The JSON value of a value. -/
def Shape.encode : (s : Shape) → s.Value → Json
  | .text, v => .text v
  | .whole _ _, v => .number (.natural v.val)
  | .uuid, v => .text v.render
  | .choice names, v => .text names[v]
  | .list item, vs => .array (vs.map item.encode)
  | .map item, m => .object (m.entries.map fun e => (e.1, item.encode e.2))
  | .record _ fields, vs => .object (fields.encode vs)

/-- The members of a record. -/
def Fields.encode : (fs : Fields) → fs.Values → List (String × Json)
  | .done, _ => []
  | .needed name shape rest, (v, vs) => (name, shape.encode v) :: rest.encode vs
  | .optional name shape rest, (v, vs) =>
    match v with
    | none => rest.encode vs
    | some v => (name, shape.encode v) :: rest.encode vs

end

/-! ## Reading -/

/-- The number of a name among some names. -/
def choose (names : List String) (name : String) : Except DecodeError (Fin names.length) :=
  match names.finIdxOf? name with
  | some i => .ok i
  | none => .error (.unfit (.unknownVariant name names))

/-- Reads one of some names. -/
def decodeChoice (names : List String) : Tree → Except DecodeError (Fin names.length)
  | .text units =>
    match unitText? units with
    | some name => choose names name
    | none => .error .notJson
  | .object ((key, value) :: rest) closed =>
    match unitText? key with
    | none => .error .notJson
    | some name => do
      let i ← choose names name
      match value with
      | .null => if rest.isEmpty && closed then .ok i else .error .notJson
      | value => value.refuse "unit"
  | _ => .error .notJson

/-- Reads an array with a reader for its items. -/
def decodeItems {α : Type} (item : Tree → Except DecodeError α) :
    List Tree → Bool → Except DecodeError (List α)
  | [], closed => if closed then .ok [] else .error .notJson
  | t :: ts, closed => do
    let v ← item t
    let vs ← decodeItems item ts closed
    return v :: vs

/-- Reads the entries of a map with a reader for its values. -/
def decodeEntries {α : Type} (item : Tree → Except DecodeError α) (m : SortedMap α) :
    List (List TextUnit × Tree) → Bool → Except DecodeError (SortedMap α)
  | [], closed => if closed then .ok m else .error .notJson
  | (key, t) :: rest, closed =>
    match unitText? key with
    | none => .error .notJson
    | some key => do
      let v ← item t
      decodeEntries item (m.insert key v) rest closed

/-- Takes in the members of an object one after the other. `put` gives nothing for a name that is
none of the fields; the value of such a member need only be free of faults. -/
def decodeMembers {δ : Type} (put : δ → String → Tree → Except DecodeError (Option δ)) (draft : δ) :
    List (List TextUnit × Tree) → Bool → Except DecodeError δ
  | [], closed => if closed then .ok draft else .error .notJson
  | (key, t) :: rest, closed =>
    match unitText? key with
    | none => .error .notJson
    | some key => do
      match ← put draft key t with
      | some draft => decodeMembers put draft rest closed
      | none => if t.intact then decodeMembers put draft rest closed else .error .notJson

mutual

/-- Reads a value of a shape. -/
def Shape.decode : (s : Shape) → Tree → Except DecodeError s.Value
  | .text, t => t.asText "a string"
  | .whole limit name, t => t.asWhole limit name
  | .uuid, t => do
    let s ← t.asText "a formatted UUID string"
    match Uuid.parse? s with
    | some u => .ok u
    | none => .error (.unfit .badUuid)
  | .choice names, t => decodeChoice names t
  | .list item, t =>
    match t with
    | .array items closed => decodeItems item.decode items closed
    | t => t.refuse "a sequence"
  | .map item, t =>
    match t with
    | .object members closed => decodeEntries item.decode {} members closed
    | t => t.refuse "a map"
  | .record name fields, t =>
    match t with
    | .object members closed => do
      let draft ← decodeMembers fields.put fields.blank members closed
      fields.finish draft
    | .array items closed => fields.ofItems name fields.size 0 items closed
    | t => t.refuse ("struct " ++ name)

/-- Reads the field of a name into a draft, if there is one of that name. -/
def Fields.put : (fs : Fields) → fs.Draft → String → Tree → Except DecodeError (Option fs.Draft)
  | .done, _, _, _ => .ok none
  | .needed name shape rest, (v, draft), key, t =>
    if key = name then
      match v with
      | some _ => .error (.unfit (.duplicateField name))
      | none => (shape.decode t).map fun v => some (some v, draft)
    else (rest.put draft key t).map fun draft => draft.map fun draft => (v, draft)
  | .optional name shape rest, (v, draft), key, t =>
    if key = name then
      match v, t with
      | some _, _ => .error (.unfit (.duplicateField name))
      | none, .null => .ok (some (some none, draft))
      | none, t => (shape.decode t).map fun v => some (some (some v), draft)
    else (rest.put draft key t).map fun draft => draft.map fun draft => (v, draft)

/-- Reads the fields from the items of an array. `record` and `total` name the record and the
count of its fields, `index` is that of the first item. -/
def Fields.ofItems : (fs : Fields) → (record : String) → (total index : Nat) → List Tree → Bool →
    Except DecodeError fs.Values
  | .done, _, _, _, items, closed =>
    if items.isEmpty && closed then .ok () else .error .notJson
  | .needed _ shape rest, record, total, index, items, closed =>
    match items with
    | [] => .error (if closed then .unfit (.tooShort index record total) else .notJson)
    | t :: ts => do
      let v ← shape.decode t
      let vs ← rest.ofItems record total (index + 1) ts closed
      return (v, vs)
  | .optional _ shape rest, record, total, index, items, closed =>
    match items with
    | [] =>
      if closed then (rest.ofItems record total (index + 1) [] closed).map fun vs => (none, vs)
      else .error .notJson
    | t :: ts => do
      let v ← match t with
        | .null => pure none
        | t => (shape.decode t).map some
      let vs ← rest.ofItems record total (index + 1) ts closed
      return (v, vs)

end

/-- Reads a value of a shape from a whole text: what follows the value is looked at last. -/
def Shape.ofText (s : Shape) (text : String) : Except DecodeError s.Value := do
  let (tree, clean) := readTree text
  let v ← s.decode tree
  if clean then .ok v else .error .notJson

/-! ## Types with a shape -/

/-- A type whose values are written as, and read from, the values of a shape. -/
class Shaped (α : Type) where
  shape : Shape
  toValue : α → shape.Value
  ofValue : shape.Value → α

/-- The JSON value of a value. -/
def encode {α : Type} [Shaped α] (a : α) : Json := (Shaped.shape α).encode (Shaped.toValue a)

/-- Reads a value from a JSON text. -/
def decode (α : Type) [Shaped α] (text : String) : Except DecodeError α :=
  ((Shaped.shape α).ofText text).map Shaped.ofValue

/-! ## Any JSON value -/

mutual

/-- The JSON value of a tree, the members of an object sorted by key and the last one of a key
kept; nothing if there is a fault, or half of a surrogate pair, or a number beyond the greatest. -/
def Tree.value? : Tree → Option Json
  | .null => some .null
  | .bool b => some (.bool b)
  | .number l => l.value?.map .number
  | .text units => (unitText? units).map .text
  | .array items closed => if closed then (itemValues? items).map .array else none
  | .object members closed =>
    if closed then (memberValues? members).map fun ms => .object (SortedMap.ofList ms).entries
    else none
  | .fault => none

/-- The values of items. -/
def itemValues? : List Tree → Option (List Json)
  | [] => some []
  | t :: ts =>
    match t.value?, itemValues? ts with
    | some v, some vs => some (v :: vs)
    | _, _ => none

/-- The members with their values. -/
def memberValues? : List (List TextUnit × Tree) → Option (List (String × Json))
  | [] => some []
  | (key, t) :: rest =>
    match unitText? key, t.value?, memberValues? rest with
    | some key, some v, some vs => some ((key, v) :: vs)
    | _, _, _ => none

end

/-- Reads any JSON value from a text. -/
def parse? (text : String) : Option Json :=
  let (tree, clean) := readTree text
  if clean then tree.value? else none

end Json
end CardInventory
