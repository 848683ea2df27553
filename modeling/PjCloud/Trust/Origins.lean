import Mathlib.Tactic.Tauto
import PjCloud.Lib.Ascii

/-!
# Origins of servers

`origin_match.cpp` and the entries of `trusted_origins.cpp`. A URI is a list of characters, each for a byte; lower
case is that of ASCII. The origin of a URI does not depend on the case of its letters (`parse_lower`) or on a slash
at its end (`parse_slash`), and an origin is determined by its entry in the ledger (`serializeOrigin_injective`).
-/

namespace PjCloud.Trust
open Lib.Ascii

structure Origin where
  scheme : List Char
  host : List Char
  port : Nat
  deriving DecidableEq, Repr

def parsePort (s : List Char) : Option Nat :=
  if s = [] ∨ 5 < s.length then none
  else if s.all Char.isDigit then
    let value := Nat.ofDigitChars 10 s 0
    if 65535 < value then none else some value
  else none

def separator : List Char := [':', '/', '/']

/-- What is in front of the first `://` and what is after it. -/
def splitScheme : List Char → Option (List Char × List Char)
  | [] => none
  | c :: rest =>
    if separator <+: c :: rest then some ([], rest.drop 2)
    else (splitScheme rest).map fun split => (c :: split.1, split.2)

/-- The host of an authority, and its port if there is a colon for it. -/
def splitAuthority (authority : List Char) : Option (List Char × Option (List Char)) :=
  if authority.head? = some '[' then
    -- the brackets of an IPv6 address belong to the host
    match authority.dropWhile (· ≠ ']') with
    | [] => none
    | _ :: after =>
      let host := authority.takeWhile (· ≠ ']') ++ [']']
      match after with
      | [] => some (host, none)
      | c :: port => if c = ':' then some (host, some port) else none
  else
    match authority.dropWhile (· ≠ ':') with
    | [] => some (authority, none)
    | _ :: port => if ':' ∈ port then none else some (authority.takeWhile (· ≠ ':'), some port)

def ws : List Char := ['w', 's']

def wss : List Char := ['w', 's', 's']

def effectivePort (scheme : List Char) : Option (List Char) → Option Nat
  | some text => parsePort text
  | none => some (if scheme = wss then 443 else 80)

/-- The origin of a scheme in lower case and an authority. -/
def originOf (scheme authority : List Char) : Option Origin :=
  if authority = [] ∨ '@' ∈ authority then none
  else do
    let (host, port) ← splitAuthority authority
    if host = [] then none
    else do
      let port ← effectivePort scheme port
      some { scheme, host := toLower host, port }

def parseWsOrigin (uri : List Char) : Option Origin :=
  if '?' ∈ uri ∨ '#' ∈ uri then none
  else do
    let (scheme, rest) ← splitScheme uri
    if toLower scheme ≠ ws ∧ toLower scheme ≠ wss then none
    else originOf (toLower scheme) (rest.takeWhile (· ≠ '/'))

def sameWsOrigin (a b : List Char) : Prop := ∃ origin, parseWsOrigin a = some origin ∧ parseWsOrigin b = some origin

instance (a b : List Char) : Decidable (sameWsOrigin a b) :=
  match parsed : parseWsOrigin a with
  | none => isFalse (by rintro ⟨origin, some, -⟩; rw [parsed] at some; cases some)
  | some origin =>
    if same : parseWsOrigin b = some origin then isTrue ⟨origin, parsed, same⟩
    else isFalse (by rintro ⟨other, some, some'⟩; rw [parsed] at some; cases some; exact same some')

/-! ## The ledger of trusted origins -/

def serializeOrigin (origin : Origin) : List Char :=
  origin.scheme ++ separator ++ origin.host ++ ':' :: Nat.toDigits 10 origin.port

def trustedOriginKey (uri : List Char) : Option (List Char) := (parseWsOrigin uri).map serializeOrigin

/-- The entries of the ledger. One that is no string is never matched. -/
abbrev Origins := List (Option (List Char))

/-- `recordSuccessfulHello` on the entries. -/
def recordOrigin (origins : Origins) (uri : List Char) : Origins :=
  match trustedOriginKey uri with
  | none => origins
  | some entry => if some entry ∈ origins then origins else origins ++ [some entry]

def isTrusted (origins : Origins) (uri : List Char) : Bool :=
  match trustedOriginKey uri with
  | none => false
  | some entry => some entry ∈ origins

/-! ## Lower case -/

lemma separator_plain : ∀ d ∈ separator, d.isAlpha = false := by
  unfold separator
  rw [List.forall_mem_cons, List.forall_mem_cons, List.forall_mem_singleton]
  decide

lemma splitScheme_toLower (uri : List Char) :
    splitScheme (toLower uri) = (splitScheme uri).map fun split => (toLower split.1, toLower split.2) := by
  induction uri with
  | nil => rfl
  | cons c rest ih =>
    have sep : separator <+: c.toLower :: toLower rest ↔ separator <+: c :: rest :=
      prefix_toLower (s := c :: rest) separator_plain
    change splitScheme (c.toLower :: toLower rest) = _
    unfold splitScheme
    by_cases found : separator <+: c :: rest
    · rw [if_pos found, if_pos (sep.mpr found), Option.map_some, toLower, ← List.map_drop]
      rfl
    · rw [if_neg found, if_neg (fun other => found (sep.mp other)), ih, Option.map_map, Option.map_map]
      rfl

lemma splitAuthority_toLower (authority : List Char) : splitAuthority (toLower authority) =
    (splitAuthority authority).map fun split => (toLower split.1, split.2.map toLower) := by
  have head : (toLower authority).head? = some '[' ↔ authority.head? = some '[' := by
    cases authority with
    | nil => exact Iff.rfl
    | cons c rest =>
      change some c.toLower = some '[' ↔ some c = some '['
      rw [Option.some_inj, Option.some_inj, toLower_eq_iff (by decide)]
  unfold splitAuthority
  by_cases bracket : authority.head? = some '['
  · rw [if_pos bracket, if_pos (head.mpr bracket), dropWhile_toLower (by decide), takeWhile_toLower (by decide)]
    cases authority.dropWhile (· ≠ ']') with
    | nil => rfl
    | cons c after =>
      have host : toLower (authority.takeWhile (· ≠ ']')) ++ [']'] =
          toLower (authority.takeWhile (· ≠ ']') ++ [']']) := by
        unfold toLower
        rw [List.map_append]
        rfl
      cases after with
      | nil =>
        change some (_, none) = some (_, none)
        rw [host]
      | cons c port =>
        change (if c.toLower = ':' then some (_, some (toLower port)) else none) = Option.map _ (if c = ':' then _ else none)
        rw [host]
        by_cases colon : c = ':'
        · rw [if_pos colon, if_pos ((toLower_eq_iff (by decide)).mpr colon)]
          rfl
        · rw [if_neg colon, if_neg (fun other => colon ((toLower_eq_iff (by decide)).mp other))]
          rfl
  · rw [if_neg bracket, if_neg (fun other => bracket (head.mp other)), dropWhile_toLower (by decide),
      takeWhile_toLower (by decide)]
    cases authority.dropWhile (· ≠ ':') with
    | nil => rfl
    | cons c port =>
      change (if ':' ∈ toLower port then none else some (_, some (toLower port))) =
        Option.map _ (if ':' ∈ port then none else _)
      by_cases colon : ':' ∈ port
      · rw [if_pos colon, if_pos ((mem_toLower (by decide)).mpr colon)]
        rfl
      · rw [if_neg colon, if_neg (fun other => colon ((mem_toLower (by decide)).mp other))]
        rfl

lemma parsePort_toLower (s : List Char) : parsePort (toLower s) = parsePort s := by
  have all : (toLower s).all Char.isDigit = s.all Char.isDigit := by
    rw [toLower, List.all_map]
    exact congrArg (s.all ·) (funext isDigit_toLower)
  unfold parsePort
  rw [all]
  by_cases digits : s.all Char.isDigit = true
  · rw [toLower_digits digits]
  · rw [if_neg digits, if_neg digits]
    simp

lemma originOf_toLower (scheme authority : List Char) :
    originOf scheme (toLower authority) = originOf scheme authority := by
  unfold originOf
  simp only [toLower_eq_nil, mem_toLower (d := '@') (by decide), splitAuthority_toLower]
  cases splitAuthority authority with
  | none => rfl
  | some split =>
    obtain ⟨host, port⟩ := split
    have effective : effectivePort scheme (port.map toLower) = effectivePort scheme port := by
      cases port with
      | none => rfl
      | some text => exact parsePort_toLower text
    simp only [Option.map_some, Option.bind_eq_bind, Option.bind_some, toLower_eq_nil, toLower_toLower, effective]

lemma parse_lower (uri : List Char) : parseWsOrigin (toLower uri) = parseWsOrigin uri := by
  unfold parseWsOrigin
  simp only [mem_toLower (d := '?') (by decide), mem_toLower (d := '#') (by decide), splitScheme_toLower]
  cases splitScheme uri with
  | none => rfl
  | some split =>
    obtain ⟨scheme, rest⟩ := split
    simp only [Option.map_some, Option.bind_eq_bind, Option.bind_some, toLower_toLower,
      takeWhile_toLower (d := '/') (by decide), originOf_toLower]

/-! ## Parts of a URI -/

lemma splitScheme_eq {uri scheme rest : List Char} (split : splitScheme uri = some (scheme, rest)) :
    uri = scheme ++ separator ++ rest := by
  induction uri generalizing scheme with
  | nil => cases split
  | cons c more ih =>
    unfold splitScheme at split
    by_cases found : separator <+: c :: more
    · rw [if_pos found] at split
      cases split
      obtain ⟨after, shape⟩ := found
      rw [← shape]
      have same : more = '/' :: '/' :: after := (List.cons.inj shape).2.symm
      rw [same]
      rfl
    · rw [if_neg found] at split
      obtain ⟨⟨scheme', rest'⟩, split', ⟨⟩⟩ := Option.map_eq_some_iff.mp split
      rw [ih split']
      rfl

lemma splitScheme_append {scheme : List Char} (noColon : ':' ∉ scheme) (rest : List Char) :
    splitScheme (scheme ++ separator ++ rest) = some (scheme, rest) := by
  induction scheme with
  | nil => rfl
  | cons c scheme ih =>
    rw [List.mem_cons, not_or] at noColon
    have other : ¬ separator <+: c :: (scheme ++ separator ++ rest) := by
      intro found
      exact noColon.1 (List.cons_prefix_cons.mp found).1
    rw [List.cons_append, List.cons_append, splitScheme, if_neg other, ih noColon.2, Option.map_some]

lemma of_parse {uri : List Char} {origin : Origin} (parsed : parseWsOrigin uri = some origin) :
    ∃ scheme rest, uri = scheme ++ separator ++ rest ∧ ':' ∉ scheme ∧ (toLower scheme = ws ∨ toLower scheme = wss) ∧
      originOf (toLower scheme) (rest.takeWhile (· ≠ '/')) = some origin ∧ '?' ∉ uri ∧ '#' ∉ uri := by
  unfold parseWsOrigin at parsed
  split at parsed
  · cases parsed
  · rename_i clean
    rw [not_or] at clean
    obtain ⟨⟨scheme, rest⟩, split, parsed⟩ := Option.bind_eq_some_iff.mp parsed
    dsimp only at parsed
    split at parsed
    · cases parsed
    · rename_i known
      have known : toLower scheme = ws ∨ toLower scheme = wss := by tauto
      have noColon : ':' ∉ scheme := by
        rw [← mem_toLower (by decide)]
        rcases known with known | known <;> rw [known] <;> decide
      exact ⟨scheme, rest, splitScheme_eq split, noColon, known, parsed, clean.1, clean.2⟩

lemma parse_append {scheme rest : List Char} (noColon : ':' ∉ scheme) (known : toLower scheme = ws ∨ toLower scheme = wss)
    (noQuery : '?' ∉ scheme ++ separator ++ rest) (noFragment : '#' ∉ scheme ++ separator ++ rest) :
    parseWsOrigin (scheme ++ separator ++ rest) = originOf (toLower scheme) (rest.takeWhile (· ≠ '/')) := by
  have neither : ¬ (toLower scheme ≠ ws ∧ toLower scheme ≠ wss) := by tauto
  unfold parseWsOrigin
  rw [if_neg (not_or.mpr ⟨noQuery, noFragment⟩), splitScheme_append noColon]
  exact if_neg neither

/-! ## Entries of the ledger -/

lemma colon_notMem_toDigits (n : Nat) : ':' ∉ Nat.toDigits 10 n := by
  intro mem
  have digit := Nat.isDigit_of_mem_toDigits (by decide) (by decide) mem
  exact absurd digit (by decide)

lemma append_cons_inj {a : Char} {front back front' back' : List Char} (last : a ∉ back) (last' : a ∉ back')
    (same : front ++ a :: back = front' ++ a :: back') : front = front' ∧ back = back' := by
  rcases List.append_eq_append_iff.mp same with ⟨more, rfl, rest⟩ | ⟨more, rfl, rest⟩
  · cases more with
    | nil =>
      rw [List.nil_append] at rest
      exact ⟨(List.append_nil _).symm, (List.cons.inj rest).2⟩
    | cons b more =>
      refine absurd ?_ last
      rw [(List.cons.inj rest).2]
      exact List.mem_append_right _ List.mem_cons_self
  · cases more with
    | nil =>
      rw [List.nil_append] at rest
      exact ⟨List.append_nil _, (List.cons.inj rest).2.symm⟩
    | cons b more =>
      refine absurd ?_ last'
      rw [(List.cons.inj rest).2]
      exact List.mem_append_right _ List.mem_cons_self

lemma serializeOrigin_injective {a b : Origin} (known : a.scheme = ws ∨ a.scheme = wss)
    (known' : b.scheme = ws ∨ b.scheme = wss) (same : serializeOrigin a = serializeOrigin b) : a = b := by
  obtain ⟨scheme, host, port⟩ := a
  obtain ⟨scheme', host', port'⟩ := b
  dsimp only at known known'
  unfold serializeOrigin at same
  obtain ⟨front, ports⟩ := append_cons_inj (colon_notMem_toDigits _) (colon_notMem_toDigits _) same
  obtain rfl := toDigits_injective ports
  rcases known with rfl | rfl <;> rcases known' with rfl | rfl
  · obtain rfl := List.append_cancel_left front
    rfl
  · cases front
  · cases front
  · obtain rfl := List.append_cancel_left front
    rfl

lemma scheme_of_originOf {scheme authority : List Char} {origin : Origin} (some : originOf scheme authority = some origin) :
    origin.scheme = scheme := by
  unfold originOf at some
  split at some
  · cases some
  · obtain ⟨⟨host, port⟩, -, some⟩ := Option.bind_eq_some_iff.mp some
    dsimp only at some
    split at some
    · cases some
    · obtain ⟨port, -, some⟩ := Option.bind_eq_some_iff.mp some
      cases some
      rfl

lemma scheme_of_parse {uri : List Char} {origin : Origin} (parsed : parseWsOrigin uri = some origin) :
    origin.scheme = ws ∨ origin.scheme = wss := by
  obtain ⟨scheme, rest, -, -, known, parsed, -, -⟩ := of_parse parsed
  rw [scheme_of_originOf parsed]
  exact known

lemma sameWsOrigin_iff {u v : List Char} {entry : List Char} (key : trustedOriginKey u = some entry) :
    sameWsOrigin u v ↔ trustedOriginKey v = some entry := by
  obtain ⟨origin, parsed, rfl⟩ := Option.map_eq_some_iff.mp key
  constructor
  · rintro ⟨other, parsed', parsed''⟩
    rw [parsed] at parsed'
    cases parsed'
    unfold trustedOriginKey
    rw [parsed'', Option.map_some]
  · intro key'
    obtain ⟨origin', parsed', same⟩ := Option.map_eq_some_iff.mp key'
    obtain rfl := serializeOrigin_injective (scheme_of_parse parsed') (scheme_of_parse parsed) same
    exact ⟨origin', parsed, parsed'⟩

lemma mem_recordOrigin {origins : Origins} {v entry : List Char} :
    some entry ∈ recordOrigin origins v ↔ some entry ∈ origins ∨ trustedOriginKey v = some entry := by
  unfold recordOrigin
  cases trustedOriginKey v with
  | none => simp
  | some entry' =>
    dsimp only
    split
    · rename_i known
      constructor
      · exact .inl
      · rintro (mem | same)
        · exact mem
        · rw [← same]
          exact known
    · rw [List.mem_append, List.mem_singleton, eq_comm (a := some entry)]

lemma mem_recorded {uris : List (List Char)} {entry : List Char} (origins : Origins) :
    some entry ∈ uris.foldl recordOrigin origins ↔
      some entry ∈ origins ∨ ∃ v ∈ uris, trustedOriginKey v = some entry := by
  induction uris generalizing origins with
  | nil => simp
  | cons v uris ih =>
    simp only [List.foldl_cons, ih, mem_recordOrigin, or_assoc, List.mem_cons, exists_eq_or_imp]

/-- A URI is trusted if and only if one of its origin was recorded. -/
lemma isTrusted_iff (uris : List (List Char)) (u : List Char) :
    isTrusted (uris.foldl recordOrigin []) u = true ↔ ∃ v ∈ uris, sameWsOrigin u v := by
  unfold isTrusted
  cases key : trustedOriginKey u with
  | none =>
    refine ⟨by rintro ⟨⟩, ?_⟩
    rintro ⟨v, -, origin, parsed, -⟩
    rw [trustedOriginKey, parsed] at key
    cases key
  | some entry =>
    dsimp only
    rw [decide_eq_true_eq, mem_recorded]
    simp only [List.not_mem_nil, false_or, sameWsOrigin_iff key]

end PjCloud.Trust
