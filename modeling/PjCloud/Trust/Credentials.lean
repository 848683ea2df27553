import Mathlib.Data.List.AList
import PjCloud.Trust.Origins

/-!
# Tokens of servers

`normalizeServerKey` of `server_history.cpp`, the stored object of `credential_store.cpp` and
`credential_resolve.cpp`. Tokens are stored under a key that many URIs of one server share. The key of a URI with
an origin is a URI of the same origin, if there is no white space at its end (`parse_key`). So URIs of different
origins have different keys, except if the key of one had white space cut off or a grpc scheme.
-/

namespace PjCloud.Trust
open Lib.Ascii

def isSpace (c : Char) : Bool := c ∈ [' ', '\t', '\n', '\r', Char.ofNat 12, Char.ofNat 11]

def trimmed (value : List Char) : List Char := ((value.dropWhile isSpace).reverse.dropWhile isSpace).reverse

def kGrpcScheme : List Char := "grpc://".toList

def kGrpcTlsScheme : List Char := "grpc+tls://".toList

def kWsScheme : List Char := "ws://".toList

def kWssScheme : List Char := "wss://".toList

def startsWithCaseInsensitive (value scheme : List Char) : Prop := toLower scheme <+: toLower value

instance (value scheme : List Char) : Decidable (startsWithCaseInsensitive value scheme) :=
  inferInstanceAs (Decidable (_ <+: _))

/-- The scheme that is part of a key, and what is after it. -/
def keyScheme (s : List Char) : List Char × List Char :=
  if kGrpcTlsScheme <+: s then ([], s.drop kGrpcTlsScheme.length)
  else if kGrpcScheme <+: s then ([], s.drop kGrpcScheme.length)
  else if startsWithCaseInsensitive s kWssScheme then (kWssScheme, s.drop kWssScheme.length)
  else if startsWithCaseInsensitive s kWsScheme then (kWsScheme, s.drop kWsScheme.length)
  else ([], s)

def dropSlash (s : List Char) : List Char := if s.getLast? = some '/' then s.dropLast else s

def canonicalized (s : List Char) : List Char := toLower (s.takeWhile (· ≠ ':')) ++ s.dropWhile (· ≠ ':')

def normalizeServerKey (uri : List Char) : List Char :=
  if trimmed uri = [] then []
  else
    let (scheme, rest) := keyScheme (trimmed uri)
    if dropSlash rest = [] then [] else scheme ++ canonicalized (dropSlash rest)

/-! ## The stored object -/

abbrev Object := AList fun _ : List Char => Option String

namespace Object

/-- `FileCredentialStore::get` -/
def get (obj : Object) (serverUrl : List Char) : Option String :=
  if normalizeServerKey serverUrl = [] then none
  else (obj.lookup (normalizeServerKey serverUrl)).join

/-- `FileCredentialStore::set` -/
def set (obj : Object) (serverUrl : List Char) (token : String) : Object :=
  if normalizeServerKey serverUrl = [] then obj else obj.insert (normalizeServerKey serverUrl) (some token)

/-- `FileCredentialStore::erase` -/
def erase (obj : Object) (serverUrl : List Char) : Object :=
  if normalizeServerKey serverUrl = [] then obj else AList.erase (normalizeServerKey serverUrl) obj

end Object

/-- An object after these tokens were set, each for its URI. The file may not be written. Entries can get lost: they
are erased, or the file is read as empty and written again. -/
inductive Reached : List (List Char × String) → Object → Prop
  | empty : Reached [] ∅
  | set {tokens obj} (uri : List Char) (token : String) : Reached tokens obj →
      Reached ((uri, token) :: tokens) (obj.set uri token)
  | skip {tokens obj} (uri : List Char) (token : String) : Reached tokens obj → Reached ((uri, token) :: tokens) obj
  | lose {tokens obj obj'} : Reached tokens obj → (∀ key entry, obj'.lookup key = some entry →
      obj.lookup key = some entry) → Reached tokens obj'

/-! ## Credentials -/

/-- The settings of the host. -/
structure Settings where
  getString : List Char → String
  getBool : List Char → Bool → Bool

/-- The variables of the environment. -/
structure Env where
  mcapCloudUrl : Option (List Char)
  mcapCloudApiKey : Option String

inductive TokenSource where
  | kNone
  | kEnvironment
  | kStored
  deriving DecidableEq, Repr

structure ServerCredentials where
  certPath : String
  apiKey : String
  allowInsecure : Bool
  apiKeySource : TokenSource
  deriving DecidableEq, Repr

def resolveStoredToken (env stored : Option String) : String :=
  if env.isSome ∧ env ≠ some "" then env.getD "" else stored.getD ""

/-- `credentialsSettingsPrefix` -/
def credentialsSettings (uri : List Char) : List Char :=
  "mcap_cloud/server_cache/".toList ++ normalizeServerKey uri ++ ['/']

def loadCredentialsForUri (settings : Settings) (obj : Object) (uri : List Char) : ServerCredentials where
  certPath := settings.getString (credentialsSettings uri ++ "cert_path".toList)
  apiKey := (obj.get uri).getD ""
  allowInsecure := settings.getBool (credentialsSettings uri ++ "allow_insecure".toList) false
  apiKeySource := .kNone

/-- The token of the environment, if its URL has the origin of the URI. -/
def envToken (env : Env) (uri : List Char) : Option String :=
  match env.mcapCloudUrl with
  | none => none
  | some url => if sameWsOrigin url uri then env.mcapCloudApiKey else none

def resolveCredentials (env : Env) (settings : Settings) (obj : Object) (uri : List Char) : ServerCredentials :=
  let creds := loadCredentialsForUri settings obj uri
  let token := envToken env uri
  let stored := obj.get uri
  { creds with
    apiKey := resolveStoredToken token stored
    apiKeySource :=
      if token.isSome ∧ token ≠ some "" then .kEnvironment
      else if stored.isSome then .kStored
      else .kNone }

/-! ## Keys and origins -/

lemma keyScheme_eq {scheme rest : List Char} (known : toLower scheme = ws ∨ toLower scheme = wss) :
    keyScheme (scheme ++ separator ++ rest) = (toLower scheme ++ separator, rest) := by
  have size : scheme.length = (toLower scheme).length := by rw [toLower, List.length_map]
  have lower : toLower (scheme ++ separator ++ rest) = toLower scheme ++ separator ++ toLower rest := by
    unfold toLower
    rw [List.map_append, List.map_append]
    rfl
  -- a grpc scheme starts with another letter
  have head : ∀ {front : List Char}, front.head? = some 'g' → ¬ front <+: scheme ++ separator ++ rest := by
    rintro front first ⟨after, shape⟩
    cases front with
    | nil => cases first
    | cons c front =>
      cases first
      rw [← shape] at lower
      rcases known with known | known <;> rw [known] at lower <;> cases lower
  have starts : ∀ front, startsWithCaseInsensitive (scheme ++ separator ++ rest) front ↔
      toLower front <+: toLower scheme ++ separator ++ toLower rest := by
    intro front
    unfold startsWithCaseInsensitive
    rw [lower]
  have drop : (scheme ++ separator ++ rest).drop (toLower scheme ++ separator).length = rest := by
    rw [List.length_append, ← size, ← List.length_append]
    exact List.drop_left
  unfold keyScheme
  rw [if_neg (head rfl), if_neg (head rfl)]
  rcases known with known | known <;> rw [known] at starts drop ⊢
  · have notWss : ¬ startsWithCaseInsensitive (scheme ++ separator ++ rest) kWssScheme := by
      rw [starts]
      rintro ⟨after, shape⟩
      cases shape
    rw [if_neg notWss, if_pos ((starts kWsScheme).mpr (List.prefix_append (ws ++ separator) _))]
    exact Prod.ext rfl drop
  · rw [if_pos ((starts kWssScheme).mpr (List.prefix_append (wss ++ separator) _))]
    exact Prod.ext rfl drop

lemma toLower_canonicalized (s : List Char) : toLower (canonicalized s) = toLower s := by
  have parts : toLower s = toLower (s.takeWhile (· ≠ ':')) ++ toLower (s.dropWhile (· ≠ ':')) := by
    unfold toLower
    rw [← List.map_append, List.takeWhile_append_dropWhile]
  rw [parts, ← toLower_toLower (s.takeWhile _)]
  exact List.map_append

lemma dropSlash_cases (s : List Char) : s = dropSlash s ∨ s = dropSlash s ++ ['/'] := by
  unfold dropSlash
  split
  · rename_i slash
    right
    obtain ⟨front, rfl⟩ := List.getLast?_eq_some_iff.mp slash
    rw [List.dropLast_concat]
  · exact .inl rfl

lemma authority_dropSlash (s : List Char) : (dropSlash s).takeWhile (· ≠ '/') = s.takeWhile (· ≠ '/') := by
  rcases dropSlash_cases s with same | same
  · rw [← same]
  · nth_rewrite 2 [same]
    rw [List.takeWhile_append]
    split
    · rename_i all
      rw [List.takeWhile_cons_of_neg (by decide), List.append_nil]
      exact (List.takeWhile_prefix _).eq_of_length all
    · rfl

lemma parse_key {u : List Char} {origin : Origin} (parsed : parseWsOrigin u = some origin) (trim : trimmed u = u) :
    parseWsOrigin (normalizeServerKey u) = some origin := by
  obtain ⟨scheme, rest, rfl, noColon, known, own, noQuery, noFragment⟩ := of_parse parsed
  have some : dropSlash rest ≠ [] := by
    intro none
    rw [← authority_dropSlash, none] at own
    cases own
  have lower : toLower (toLower scheme ++ separator ++ canonicalized (dropSlash rest)) =
      toLower (scheme ++ separator ++ dropSlash rest) := by
    have canon := toLower_canonicalized (dropSlash rest)
    have again := toLower_toLower scheme
    unfold toLower at *
    rw [List.map_append, List.map_append, List.map_append, List.map_append, canon, again]
  have shorter : ∀ c, c ∈ scheme ++ separator ++ dropSlash rest → c ∈ scheme ++ separator ++ rest := by
    intro c mem
    rcases dropSlash_cases rest with same | same
    · rw [same]
      exact mem
    · rw [same, ← List.append_assoc]
      exact List.mem_append_left _ mem
  unfold normalizeServerKey
  rw [trim, if_neg (by simp [separator]), keyScheme_eq known]
  dsimp only
  rw [if_neg some, ← parse_lower, lower, parse_lower,
    parse_append noColon known (fun mem => noQuery (shorter _ mem)) (fun mem => noFragment (shorter _ mem)),
    authority_dropSlash, own]

lemma same_origin_of_key {u v : List Char} (parsed : (parseWsOrigin u).isSome) (parsed' : (parseWsOrigin v).isSome)
    (trim : trimmed u = u) (trim' : trimmed v = v) (same : normalizeServerKey u = normalizeServerKey v) :
    sameWsOrigin u v := by
  obtain ⟨origin, parsed⟩ := Option.isSome_iff_exists.mp parsed
  obtain ⟨origin', parsed'⟩ := Option.isSome_iff_exists.mp parsed'
  have key := parse_key parsed trim
  rw [same, parse_key parsed' trim'] at key
  cases key
  exact ⟨origin, parsed, parsed'⟩

/-! ## Tokens -/

section
variable {obj obj' : Object} {u v : List Char} {token : String} {tokens : List (List Char × String)}

lemma Reached.lookup (reached : Reached tokens obj) {key : List Char} (found : obj.lookup key = some (some token)) :
    ∃ v, (v, token) ∈ tokens ∧ normalizeServerKey v = key := by
  induction reached with
  | empty => cases found
  | @set tokens obj v t _ ih =>
    unfold Object.set at found
    split at found
    · obtain ⟨w, mem, same⟩ := ih found
      exact ⟨w, List.mem_cons_of_mem _ mem, same⟩
    · by_cases own : key = normalizeServerKey v
      · subst own
        rw [AList.lookup_insert] at found
        cases found
        exact ⟨v, List.mem_cons_self, rfl⟩
      · rw [AList.lookup_insert_ne own] at found
        obtain ⟨w, mem, same⟩ := ih found
        exact ⟨w, List.mem_cons_of_mem _ mem, same⟩
  | skip _ _ _ ih =>
    obtain ⟨w, mem, same⟩ := ih found
    exact ⟨w, List.mem_cons_of_mem _ mem, same⟩
  | lose _ fewer ih => exact ih (fewer _ _ found)

lemma Reached.get (reached : Reached tokens obj) (found : obj.get u = some token) :
    ∃ v, (v, token) ∈ tokens ∧ normalizeServerKey v = normalizeServerKey u := by
  unfold Object.get at found
  split at found
  · cases found
  · exact reached.lookup (Option.join_eq_some_iff.mp found)

lemma get_set (other : normalizeServerKey u ≠ normalizeServerKey v) : (obj.set v token).get u = obj.get u := by
  unfold Object.get Object.set
  split
  · rfl
  · split
    · rfl
    · rw [AList.lookup_insert_ne other]

lemma get_erase (other : normalizeServerKey u ≠ normalizeServerKey v) : (obj.erase v).get u = obj.get u := by
  unfold Object.get Object.erase
  split
  · rfl
  · split
    · rfl
    · rw [AList.lookup_erase_ne other]

lemma resolve_congr {env : Env} {settings : Settings} (same : obj'.get u = obj.get u) :
    resolveCredentials env settings obj' u = resolveCredentials env settings obj u := by
  unfold resolveCredentials loadCredentialsForUri
  rw [same]

end

lemma token_source {env : Env} {settings : Settings} {obj : Object} {u : List Char} {token : String}
    (resolved : (resolveCredentials env settings obj u).apiKey = token) (nonempty : token ≠ "") :
    (∃ url, env.mcapCloudUrl = some url ∧ sameWsOrigin url u ∧ env.mcapCloudApiKey = some token) ∨
      obj.get u = some token := by
  change resolveStoredToken (envToken env u) (obj.get u) = token at resolved
  unfold resolveStoredToken at resolved
  split at resolved
  · rename_i there
    left
    obtain ⟨own, found⟩ := Option.isSome_iff_exists.mp there.1
    rw [found, Option.getD_some] at resolved
    subst resolved
    unfold envToken at found
    split at found
    · cases found
    · rename_i url set
      split at found
      · rename_i same
        exact ⟨url, set, same, found⟩
      · cases found
  · right
    cases stored : obj.get u with
    | none =>
      rw [stored] at resolved
      exact absurd resolved.symm nonempty
    | some t =>
      rw [stored, Option.getD_some] at resolved
      rw [resolved]

/-- Trust is by origin, and so is the token of the environment. A stored token is that of a URI with the same key. For
URIs that have an origin and no white space around them, that is one of the same origin. -/
theorem trust_and_tokens_by_origin :
    (∀ (recorded : List (List Char)) (u : List Char),
      isTrusted (recorded.foldl recordOrigin []) u = true ↔ ∃ v ∈ recorded, sameWsOrigin u v) ∧
    (∀ (env : Env) (settings : Settings) (tokens : List (List Char × String)) (obj : Object) (u : List Char),
      Reached tokens obj → (resolveCredentials env settings obj u).apiKey ≠ "" →
      (∃ url, env.mcapCloudUrl = some url ∧ sameWsOrigin url u ∧
        env.mcapCloudApiKey = some (resolveCredentials env settings obj u).apiKey) ∨
      ∃ v, (v, (resolveCredentials env settings obj u).apiKey) ∈ tokens ∧
        normalizeServerKey v = normalizeServerKey u ∧
        ((parseWsOrigin u).isSome → (parseWsOrigin v).isSome → trimmed u = u → trimmed v = v → sameWsOrigin u v)) ∧
    (∀ (env : Env) (settings : Settings) (obj : Object) (u v : List Char) (token : String),
      (parseWsOrigin u).isSome → (parseWsOrigin v).isSome → trimmed u = u → trimmed v = v → ¬ sameWsOrigin u v →
      resolveCredentials env settings (obj.set v token) u = resolveCredentials env settings obj u ∧
        resolveCredentials env settings (obj.erase v) u = resolveCredentials env settings obj u) := by
  refine ⟨isTrusted_iff, ?_, ?_⟩
  · intro env settings tokens obj u reached nonempty
    refine (token_source rfl nonempty).imp_right fun stored => ?_
    obtain ⟨v, mem, same⟩ := reached.get stored
    exact ⟨v, mem, same, fun parsed parsed' trim trim' => same_origin_of_key parsed parsed' trim trim' same.symm⟩
  · intro env settings obj u v token parsed parsed' trim trim' other
    have keys : normalizeServerKey u ≠ normalizeServerKey v :=
      fun same => other (same_origin_of_key parsed parsed' trim trim' same)
    exact ⟨resolve_congr (get_set keys), resolve_congr (get_erase keys)⟩

def noSettings : Settings := { getString := fun _ => "", getBool := fun _ value => value }

def noEnv : Env := { mcapCloudUrl := none, mcapCloudApiKey := none }

theorem token_of_other_host_kept :
    (resolveCredentials noEnv noSettings ((Object.set ∅ "ws://a:80/x".toList "t").set "wss://a".toList "u")
      "WS://A:80/x/".toList).apiKey = "t" := by
  have kept := (trust_and_tokens_by_origin.2.2 noEnv noSettings (Object.set ∅ "ws://a:80/x".toList "t")
    "WS://A:80/x/".toList "wss://a".toList "u" (by decide) (by decide) (by decide) (by decide) (by decide)).1
  rw [kept]
  decide

/-- The host of a URI with a space at its end is another one, but the key is the same. -/
theorem token_of_padded_uri :
    (parseWsOrigin "ws://h".toList).isSome ∧ (parseWsOrigin "ws://h ".toList).isSome ∧
      ¬ sameWsOrigin "ws://h".toList "ws://h ".toList ∧
      (resolveCredentials noEnv noSettings (Object.set ∅ "ws://h ".toList "t") "ws://h".toList).apiKey = "t" := by
  decide

end PjCloud.Trust
