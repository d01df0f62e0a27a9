/-!
# JSON values

Values as a JSON text spells them: the entries of an object keep their order, and repeated keys are
kept too, so that a record can refuse them.

* `Json.Fields`: reading the fields of a record. A field that a record does not know is ignored; one
  that it knows may stand there only once.
* `Json.record?`: the fields of a record, which is an object or an array.
-/

namespace Wiring

/-- A JSON value. -/
inductive Json where
  | null
  | bool (value : Bool)
  /-- A number without fraction and exponent. -/
  | integer (value : Int)
  /-- Any other number, as it is written. -/
  | decimal (literal : String)
  | string (value : String)
  | array (items : List Json)
  | object (entries : List (String × Json))
  /-- Text that has the form of a value and denotes none: half a surrogate pair, a number that is too
  large, or brackets nested too deeply. It can be skipped and it fits nowhere. -/
  | invalid
deriving Inhabited

namespace Json

/-- The items of an array, each decoded. -/
def list? {α : Type} (decode : Json → Option α) : Json → Option (List α)
  | .array items => items.mapM decode
  | _ => none

def string? : Json → Option String
  | .string value => some value
  | _ => none

def bool? : Json → Option Bool
  | .bool value => some value
  | _ => none

/-- A value that may be `null`. -/
def nullable? {α : Type} (decode : Json → Option α) : Json → Option (Option α)
  | .null => some none
  | value => (decode value).map some

mutual

/-- Whether every part of the value denotes something. -/
def isValid : Json → Bool
  | .invalid => false
  | .array items => areValid items
  | .object entries => entriesAreValid entries
  | _ => true

def areValid : List Json → Bool
  | [] => true
  | item :: items => isValid item && areValid items

def entriesAreValid : List (String × Json) → Bool
  | [] => true
  | (_, value) :: entries => isValid value && entriesAreValid entries

end

/-- The entries of an object. -/
abbrev Fields := List (String × Json)

namespace Fields

/-- No key among `keys` stands there twice. -/
def unrepeated (keys : List String) (fields : Fields) : Bool :=
  keys.all fun key => (fields.filter (·.1 = key)).length ≤ 1

/-- The value of a field. -/
def get? (fields : Fields) (key : String) : Option Json :=
  (fields.find? (·.1 = key)).map (·.2)

/-- A field that has to be there. -/
def required? {α : Type} (decode : Json → Option α) (fields : Fields) (key : String) : Option α :=
  (fields.get? key).bind decode

/-- A field that may be left out; if it is there it has to fit. -/
def optional? {α : Type} (decode : Json → Option α) (default : α) (fields : Fields) (key : String) :
    Option α :=
  match fields.get? key with
  | none => some default
  | some value => decode value

/-- A truth value, false if it is left out. -/
def flag? (fields : Fields) (key : String) : Option Bool :=
  fields.optional? bool? false key

end Fields

/-- The fields of a record, if no key among `keys` is repeated. An array is a record too: it holds the
values of the first of the `keys`, in their order. -/
def record? (keys : List String) : Json → Option Fields
  | .object fields => if Fields.unrepeated keys fields then some fields else none
  | .array items => if items.length ≤ keys.length then some (keys.zip items) else none
  | _ => none

/-- The field of a record that says what its other fields are, and a record that holds these. -/
def tagged? (key : String) : Json → Option (Json × Json)
  | .object fields =>
    if Fields.unrepeated [key] fields then (Fields.get? fields key).map (·, .object fields)
    else none
  | .array (tag :: items) => some (tag, .array items)
  | _ => none

end Json

end Wiring
