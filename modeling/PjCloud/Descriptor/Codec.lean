import Mathlib.Data.List.Sort
import PjCloud.Lib.Fallible
import PjCloud.Lib.Json

/-!
# Source descriptors

`source_descriptor.cpp` of the plugin: the description of a fetch that a layout embeds. There are two kinds, each
with its own list of fields. The canonical text is what the identity is computed over; it leaves out the name that
is shown. A text that is not UTF-8 is no JSON, so texts are strings here, and their sizes are those in UTF-8.
-/

namespace PjCloud.Descriptor
open Lib Json

structure SourceDescriptor where
  version : Int := 1
  kind : String := ""
  serverUri : String := ""
  s3Keys : List String := []
  topics : List String := []
  startNs : Int := 0
  endNs : Int := 0
  includeLatched : Bool := true
  selectionId : String := ""
  displayName : String := ""
  deriving DecidableEq, Repr

def kSessionKind : String := "mcap-cloud-session"

def kSelectionKind : String := "mcap-cloud-selection"

def kMaxDescriptorBytes : Nat := 64 * 1024

def kMaxKeys : Nat := 512

def kMaxTopics : Nat := 4096

def kMaxStringBytes : Nat := 4096

def kSessionFields : List String :=
  ["v", "kind", "server_uri", "s3_keys", "topics", "start_ns", "end_ns", "include_latched", "display_name"]

def kSelectionFields : List String := ["v", "kind", "server_uri", "selection_id", "display_name"]

def kindFields (kind : String) : List String := if kind = kSelectionKind then kSelectionFields else kSessionFields

/-! ## Parts of a descriptor -/

def maxInt64 : Int := 2 ^ 63 - 1

/-- The loop of `parseDecimalNs`. -/
def parseDigits : Int → List Char → Option Int
  | value, [] => some value
  | value, c :: rest =>
    if c < '0' ∨ '9' < c then none
    else
      let digit : Int := c.toNat - 48
      if (maxInt64 - digit) / 10 < value then none else parseDigits (value * 10 + digit) rest

def parseDecimalNs (text : String) : Option Int :=
  if text = "" ∨ 20 < text.utf8ByteSize then none else parseDigits 0 text.toList

/-- The characters after a scheme. -/
def afterScheme (uri : String) : Option (List Char) :=
  if "ws://".toList <+: uri.toList then some (uri.toList.drop 5)
  else if "wss://".toList <+: uri.toList then some (uri.toList.drop 6)
  else none

def validateServerUri (uri : String) : Except String Unit :=
  match afterScheme uri with
  | none => .error "server_uri scheme must be ws:// or wss://"
  | some rest =>
    if '?' ∈ uri.toList then .error "server_uri must not contain a query string"
    else if '#' ∈ uri.toList then .error "server_uri must not contain a fragment"
    else if '@' ∈ rest.takeWhile (· ≠ '/') then .error "server_uri must not contain userinfo"
    else .ok ()

section
variable (fields : List (String × Value))

def missing (field : String) : String := "missing field \"" ++ field ++ "\""

def takeString (field : String) : Except String String :=
  match fields.lookup field with
  | none => .error (missing field)
  | some (.str text) =>
    if kMaxStringBytes < text.utf8ByteSize then
      .error ("field \"" ++ field ++ "\" exceeds the " ++ toString kMaxStringBytes ++ "-byte string limit")
    else .ok text
  | some _ => .error ("field \"" ++ field ++ "\" must be a string")

/-- The loop of `takeStringArray`. -/
def takeEntries (field : String) : List (Option String) → Except String (List String)
  | [] => .ok []
  | none :: _ => .error ("field \"" ++ field ++ "\" must be an array of strings")
  | some value :: rest =>
    if kMaxStringBytes < value.utf8ByteSize then
      .error ("field \"" ++ field ++ "\" entry exceeds the " ++ toString kMaxStringBytes ++ "-byte string limit")
    else do
      let values ← takeEntries field rest
      pure (value :: values)

def takeStringArray (field : String) (maxEntries : Nat) : Except String (List String) :=
  match fields.lookup field with
  | none => .error (missing field)
  | some (.array entries) =>
    if maxEntries < entries.length then .error (field ++ " exceeds the " ++ toString maxEntries ++ "-entry limit")
    else takeEntries field entries
  | some _ => .error ("field \"" ++ field ++ "\" must be an array of strings")

def takeNs (field : String) : Except String Int := do
  let text ← takeString fields field
  match parseDecimalNs text with
  | some ns => pure ns
  | none => .error (field ++ " is not a decimal nanosecond string")

/-- The version is compared as the integer that it is. -/
def checkVersion : Except String Unit :=
  match fields.lookup "v" with
  | none => .error (missing "v")
  | some (.int n) =>
    if n = 1 then .ok () else .error ("unsupported descriptor version " ++ toString n ++ " (expected 1)")
  | some _ => .error "field \"v\" must be an integer"

def checkKind (kind : String) : Except String Unit :=
  if kind = kSelectionKind ∨ kind = kSessionKind then .ok ()
  else .error ("unsupported kind \"" ++ kind ++ "\" (expected \"" ++ kSessionKind ++ "\" or \"" ++
    kSelectionKind ++ "\")")

/-- The first field that the list of the kind does not have is an error. -/
def checkFields (kind : String) : Except String Unit :=
  match (fields.map Prod.fst).find? (· ∉ kindFields kind) with
  | some key => .error ("unknown field \"" ++ key ++ "\" for kind \"" ++ kind ++ "\"")
  | none => .ok ()

def takeDisplayName : Except String String :=
  if (fields.lookup "display_name").isSome then takeString fields "display_name" else pure ""

def takeLatched : Except String Bool :=
  match fields.lookup "include_latched" with
  | none => .error (missing "include_latched")
  | some (.bool b) => .ok b
  | some _ => .error "field \"include_latched\" must be a boolean"

/-- The loop over the sorted keys, with the one before. -/
def checkSortedKeys : Option String → List String → Except String Unit
  | _, [] => .ok ()
  | before, key :: rest =>
    if key = "" then .error "s3_keys must not contain empty keys"
    else if before = some key then .error ("s3_keys must not contain duplicate keys (\"" ++ key ++ "\")")
    else checkSortedKeys (some key) rest

def checkKeys (keys : List String) : Except String Unit :=
  if keys = [] then .error "s3_keys must contain at least one key"
  else checkSortedKeys none (keys.insertionSort (· ≤ ·))

def checkWindow (startNs endNs : Int) : Except String Unit :=
  if endNs < startNs then .error ("end_ns " ++ toString endNs ++ " is before start_ns " ++ toString startNs)
  else .ok ()

/-! ## Descriptors -/

/-- The fields of a selection. -/
def parseSelection (d : SourceDescriptor) : Except String SourceDescriptor := do
  let selectionId ← takeString fields "selection_id"
  if selectionId = "" then .error "selection_id must not be empty"
  else pure { d with selectionId := selectionId }

/-- The fields of a session. -/
def parseSession (d : SourceDescriptor) : Except String SourceDescriptor := do
  let s3Keys ← takeStringArray fields "s3_keys" kMaxKeys
  let topics ← takeStringArray fields "topics" kMaxTopics
  checkKeys s3Keys
  let startNs ← takeNs fields "start_ns"
  let endNs ← takeNs fields "end_ns"
  let includeLatched ← takeLatched fields
  checkWindow startNs endNs
  pure { d with s3Keys, topics, startNs, endNs, includeLatched }

def parseFields : Except String SourceDescriptor := do
  checkVersion fields
  let kind ← takeString fields "kind"
  checkKind kind
  checkFields fields kind
  let serverUri ← takeString fields "server_uri"
  validateServerUri serverUri
  let displayName ← takeDisplayName fields
  if kind = kSelectionKind then parseSelection fields { kind, serverUri, displayName }
  else parseSession fields { kind, serverUri, displayName }

end

def parseSourceDescriptor (lib : Library) (json : String) : Except String SourceDescriptor :=
  if kMaxDescriptorBytes < json.utf8ByteSize then
    .error ("descriptor exceeds the " ++ toString kMaxDescriptorBytes ++ "-byte limit")
  else
    match lib.parse json with
    | none => .error "descriptor is not valid JSON"
    | some none => .error "descriptor is not a JSON object"
    | some (some fields) => parseFields fields

def selectionOut (d : SourceDescriptor) : List (String × Out) :=
  [("kind", .str d.kind), ("selection_id", .str d.selectionId), ("server_uri", .str d.serverUri),
    ("v", .int d.version)]

/-- The fields of a session in the order of their names, with the texts of its window. -/
def sessionOut (d : SourceDescriptor) (startNs endNs : String) : List (String × Out) :=
  [("end_ns", .str endNs), ("include_latched", .bool d.includeLatched), ("kind", .str d.kind),
    ("s3_keys", .strings d.s3Keys), ("server_uri", .str d.serverUri), ("start_ns", .str startNs),
    ("topics", .strings d.topics), ("v", .int d.version)]

def canonicalOut (d : SourceDescriptor) : List (String × Out) :=
  if d.kind = kSelectionKind then selectionOut d else sessionOut d (toString d.startNs) (toString d.endNs)

def canonicalSourceDescriptorJson (d : SourceDescriptor) : String := dump (canonicalOut d)

/-- `toSourceDescriptorJson`: the name that is shown sorts first. -/
def toSourceDescriptorJson (d : SourceDescriptor) : String :=
  dump (("display_name", .str d.displayName) :: canonicalOut d)

/-- `descriptorIdentity`, for a function that gives the first 16 bytes of a SHA-256 in hexadecimal. -/
def descriptorIdentity (sha256Hex : String → String) (d : SourceDescriptor) : String :=
  "mcap-cloud:v1:sha256/128:" ++ sha256Hex (canonicalSourceDescriptorJson d)

end PjCloud.Descriptor
