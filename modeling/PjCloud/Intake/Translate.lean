import Mathlib.Tactic.Lemma

/-!
# The body of an SQS message

`translate_body` (`mcap_catalog_builder/s3_producer.py`): from the body of a message to the records that
the worker has to handle. A body that is not as it should be raises, so that the message is left for the
dead-letter queue; what is irrelevant in a good body is left out.

`Library` are `json.loads` and `urllib.parse.unquote_plus`.
-/

namespace PjCloud.Intake

/-- A parsed JSON document. -/
inductive Json where
  | null
  | bool (b : Bool)
  | num (n : Int)
  | str (s : String)
  | arr (items : List Json)
  | obj (fields : List (String × Json))

/-- The parts of the Python library that the translation uses. -/
structure Library where
  loads : String → Except String Json
  unquotePlus : String → String

/-- What a record asks for. -/
inductive Kind where
  | catalog
  | delete
  deriving DecidableEq, Repr

/-- `_classify`: what an event name asks for; none if it is irrelevant. -/
def classify (eventName : String) : Option Kind :=
  if eventName.startsWith "ObjectCreated" then some .catalog
  else if eventName.startsWith "ObjectRemoved" then some .delete
  else if eventName.startsWith "LifecycleExpiration" then some .delete
  else none

/-- A subscript with a string, `j[key]`. -/
def Json.item (j : Json) (key : String) : Except String Json :=
  match j with
  | .obj fields =>
    match fields.lookup key with
    | some value => .ok value
    | none => .error "KeyError"
  | _ => .error "TypeError"

def Json.text : Json → Except String String
  | .str s => .ok s
  | _ => .error "AttributeError"

/-- `j.get(key, default)`. -/
def Json.getD (j : Json) (key : String) (default : Json) : Except String Json :=
  match j with
  | .obj fields => .ok ((fields.lookup key).getD default)
  | _ => .error "AttributeError"

variable (L : Library)

/-- One entry of `Records`; none if it is irrelevant. -/
def translateRecord (rec : Json) : Except String (Option (Kind × String)) := do
  let name ← rec.getD "eventName" (.str "")
  let key ← (← (← (← rec.item "s3").item "object").item "key").text
  let key := L.unquotePlus key
  match classify (← name.text) with
  | none => return none
  | some kind => return if key.endsWith ".mcap" then some (kind, key) else none

/-- The records of a body. -/
def translateBody (body : String) : Except String (List (Kind × String)) := do
  match ← L.loads body with
  | .obj fields =>
    match (fields.lookup "Records").getD (.arr []) with
    | .arr records => return (← records.mapM (translateRecord L)).filterMap id
    | _ => throw "Records is not a list"
  | _ => throw "SQS body is not a JSON object"

end PjCloud.Intake
