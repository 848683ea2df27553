import PjCloud.Query.Meaning

/-!
# The rows that a filter shows

`query_filter.h`, `name_filter.h` and `date_filter.h` of the plugin. One Lua state serves all rows: the metadata of a row
is assigned to globals, the query is run, and the same globals are set to nil. A global of the libraries that has the name
of a key does not come back.
-/

namespace PjCloud.Query
open Lib

structure FilterSequence where
  name : Text
  minTsNs : Int := 0
  maxTsNs : Int := 0
  metadata : Metadata := []

structure FilterParams where
  nameFilter : Text := []
  nameRegex : Bool := false
  queryText : Text := []
  dateFromNs : Int := 0
  dateToNs : Int := 0

def containsCaseInsensitive (haystack needle : Text) : Bool :=
  haystack.tails.any fun tail => lower (tail.take needle.length) = lower needle

/-- `search` is the search of an expression in a text, or `none` where it is no expression. -/
def nameMatches (search : Text → Text → Option Bool) (name pattern : Text) (regex : Bool) : Bool :=
  if pattern = [] then true
  else if !regex then containsCaseInsensitive name pattern
  else (search pattern name).getD false

def dateFilterMatches (seqMin seqMax fromNs toNs : Int) : Bool :=
  if seqMin = 0 ∧ seqMax = 0 then decide (fromNs = 0 ∧ toNs = 0)
  else if fromNs ≠ 0 ∧ seqMax ≠ 0 ∧ seqMax < fromNs then false
  else if toNs ≠ 0 ∧ seqMin ≠ 0 ∧ seqMin > toNs then false
  else true

/-! ## The engine over any Lua -/

/-- A Lua interpreter: `start` has the libraries open, and a run gives a value, or an error, and another state. -/
structure Interpreter where
  State : Type
  start : State
  get : State → Lua.Globals
  assign : State → Text → Lua.Value → State
  load : Text → Bool
  run : State → Text → Option Lua.Value × State

namespace Interpreter
variable (lua : Interpreter)

def set (s : lua.State) (metadata : Metadata) : lua.State :=
  metadata.foldl (fun s (key, value) => lua.assign s key (inject value)) s

def clear (s : lua.State) (metadata : Metadata) : lua.State :=
  metadata.foldl (fun s (key, _) => lua.assign s key .nil) s

def chunk (text : Text) : Text := "return (".toList ++ text ++ [')']

def eval (s : lua.State) (q : Parsed) : Bool × lua.State :=
  if q.lua = [] then (false, s)
  else
    let (result, s) := lua.run s (chunk q.lua)
    (result.any Lua.Value.truthy, s)

def validate (text : Text) : Bool :=
  if text = [] then false
  else lua.load (chunk (if (query text).lua = [] then text else (query text).lua))

end Interpreter

variable (lua : Interpreter) (search : Text → Text → Option Bool)

def rowMatches (params : FilterParams) (seq : FilterSequence) : Bool :=
  nameMatches search seq.name params.nameFilter params.nameRegex &&
    dateFilterMatches seq.minTsNs seq.maxTsNs params.dateFromNs params.dateToNs

def applyQuery (text : Text) : Bool :=
  let queryEmpty := decide (text = [])
  let queryValid := queryEmpty || lua.validate text
  !queryEmpty && queryValid

/-- The loop of `computeVisibleSequences`, from row `i` on. -/
def visibleFrom (params : FilterParams) : Nat → lua.State → List FilterSequence → List Nat
  | _, _, [] => []
  | i, s, seq :: rest =>
    if !nameMatches search seq.name params.nameFilter params.nameRegex then visibleFrom params (i + 1) s rest
    else if !dateFilterMatches seq.minTsNs seq.maxTsNs params.dateFromNs params.dateToNs then
      visibleFrom params (i + 1) s rest
    else if applyQuery lua params.queryText then
      let (luaMatch, s') := lua.eval (lua.set s seq.metadata) (query params.queryText)
      let s' := lua.clear s' seq.metadata
      if !luaMatch then visibleFrom params (i + 1) s' rest else i :: visibleFrom params (i + 1) s' rest
    else i :: visibleFrom params (i + 1) s rest

def computeVisibleSequences (sequences : List FilterSequence) (params : FilterParams) : List Nat :=
  visibleFrom lua search params 0 lua.start sequences

/-! ## What is taken from Lua -/

/-- Globals are read as they were assigned, and an expression that compares and connects is evaluated. -/
structure Interpreter.Lawful (host : Lua.Host) : Prop where
  get_start : lua.get lua.start = library
  get_assign : ∀ s key value, lua.get (lua.assign s key value) = Function.update (lua.get s) key value
  load_of : ∀ text e, Lua.parseChunk text = some e → lua.load text = true
  run_of : ∀ text e, Lua.parseChunk text = some e → ∀ s, (lua.run s text).1 = host.eval (lua.get s) e ∧
    lua.get (lua.run s text).2 = lua.get s

/-- Lua for expressions that compare and connect: the state is the globals. -/
def comparisons (host : Lua.Host) : Interpreter where
  State := Lua.Globals
  start := library
  get s := s
  assign := Function.update
  load text := (Lua.parseChunk text).isSome
  run s text := ((Lua.parseChunk text).bind (host.eval s), s)

lemma lawful_comparisons (host : Lua.Host) : (comparisons host).Lawful host where
  get_start := rfl
  get_assign _ _ _ := rfl
  load_of text e parsed := by simp [comparisons, parsed]
  run_of text e parsed s := ⟨by simp [comparisons, parsed], rfl⟩

/-- The query computes something from the globals and assigns none: it has no effect. -/
def Interpreter.Plain (text : Text) : Prop :=
  ∃ f : Lua.Globals → Option Lua.Value, ∀ s,
    (lua.run s (Interpreter.chunk (query text).lua)).1 = f (lua.get s) ∧
      lua.get (lua.run s (Interpreter.chunk (query text).lua)).2 = lua.get s

lemma Interpreter.Lawful.plain_of_parsed {lua : Interpreter} {host : Lua.Host} (lawful : lua.Lawful host) {text : Text}
    {e : Lua.Exp} (parsed : Lua.parseChunk (chunk (query text).lua) = some e) : lua.Plain text :=
  ⟨fun globals => host.eval globals e, lawful.run_of _ _ parsed⟩

/-- Row `i` is shown as if it were the only one. -/
def Independent (sequences : List FilterSequence) (params : FilterParams) (i : Fin sequences.length) : Prop :=
  i.val ∈ computeVisibleSequences lua search sequences params ↔
    0 ∈ computeVisibleSequences lua search [sequences.get i] params

/-- A row has a key that is a global of the libraries, and a later row does not have it. -/
def Shadows (sequences : List FilterSequence) (params : FilterParams) : Prop :=
  ∃ j i : Fin sequences.length, j < i ∧ rowMatches search params (sequences.get j) = true ∧
    rowMatches search params (sequences.get i) = true ∧ ∃ key ∈ (sequences.get j).metadata.map Prod.fst,
      library key ≠ .nil ∧ key ∉ (sequences.get i).metadata.map Prod.fst

/-! ## The shared state -/

section Globals

variable {metadata : Metadata} {globals globals' : Lua.Globals}

lemma set_other {name : Text} (other : name ∉ metadata.map Prod.fst) : set globals metadata name = globals name := by
  induction metadata generalizing globals with
  | nil => rfl
  | cons pair metadata ih =>
    simp only [List.map_cons, List.mem_cons, not_or] at other
    exact (ih other.2).trans (by simp [Function.update, other.1])

lemma set_congr (same : ∀ name, name ∉ metadata.map Prod.fst → globals name = globals' name) :
    set globals metadata = set globals' metadata := by
  induction metadata generalizing globals globals' with
  | nil => exact funext fun name => same name (by simp)
  | cons pair metadata ih =>
    refine ih fun name other => ?_
    by_cases first : name = pair.1
    · simp [first]
    · simp only [Function.update, first, eq_rec_constant, dite_false]
      exact same name (by simp [first, other])

end Globals

variable (params : FilterParams)

attribute [local instance] lawful_text

def cleared (rows : List FilterSequence) (globals : Lua.Globals) : Lua.Globals := fun name =>
  if ∃ seq ∈ rows, rowMatches search params seq = true ∧ name ∈ seq.metadata.map Prod.fst then .nil else globals name

lemma cleared_cons (seq : FilterSequence) (rows : List FilterSequence) (globals : Lua.Globals) :
    cleared search params (seq :: rows) globals = cleared search params rows (cleared search params [seq] globals) := by
  funext name
  simp only [cleared, List.mem_cons, List.not_mem_nil, or_false, exists_eq_left, exists_eq_or_imp]
  by_cases later : ∃ a ∈ rows, rowMatches search params a = true ∧ name ∈ a.metadata.map Prod.fst
  · simp only [later, or_true, if_true]
  · simp only [later, or_false, if_false]

section Lawful

variable {lua search params} {host : Lua.Host} (lawful : lua.Lawful host)
include lawful

lemma get_set (metadata : Metadata) (s : lua.State) : lua.get (lua.set s metadata) = set (lua.get s) metadata := by
  induction metadata generalizing s with
  | nil => rfl
  | cons pair metadata ih =>
    have rest := ih (lua.assign s pair.1 (inject pair.2))
    rw [lawful.get_assign] at rest
    exact rest

lemma get_clear (metadata : Metadata) (s : lua.State) (name : Text) :
    lua.get (lua.clear s metadata) name = if name ∈ metadata.map Prod.fst then .nil else lua.get s name := by
  induction metadata generalizing s with
  | nil => rfl
  | cons pair metadata ih =>
    have rest := ih (lua.assign s pair.1 .nil)
    rw [lawful.get_assign] at rest
    refine rest.trans ?_
    by_cases later : name ∈ metadata.map Prod.fst
    · simp [later]
    · by_cases first : name = pair.1 <;> simp [later, first, Function.update]

variable {f : Lua.Globals → Option Lua.Value}
  (plain : ∀ s, (lua.run s (Interpreter.chunk (query params.queryText).lua)).1 = f (lua.get s) ∧
    lua.get (lua.run s (Interpreter.chunk (query params.queryText).lua)).2 = lua.get s)

def answers (params : FilterParams) (f : Lua.Globals → Option Lua.Value) (globals : Lua.Globals) (seq : FilterSequence) : Bool :=
  decide ((query params.queryText).lua ≠ []) && (f (set globals seq.metadata)).any Lua.Value.truthy

include plain

lemma eval_row (s : lua.State) (seq : FilterSequence) (matched : rowMatches search params seq = true) :
    (lua.eval (lua.set s seq.metadata) (query params.queryText)).1 = answers params f (lua.get s) seq ∧
      lua.get (lua.clear (lua.eval (lua.set s seq.metadata) (query params.queryText)).2 seq.metadata) =
        cleared search params [seq] (lua.get s) := by
  obtain ⟨result, kept⟩ := plain (lua.set s seq.metadata)
  rw [get_set lawful] at result kept
  have after : lua.get (lua.eval (lua.set s seq.metadata) (query params.queryText)).2 = set (lua.get s) seq.metadata := by
    unfold Interpreter.eval
    split
    · exact get_set lawful _ _
    · exact kept
  refine ⟨?_, funext fun name => ?_⟩
  · unfold Interpreter.eval answers
    split_ifs with empty
    · simp [empty]
    · simp [empty, result]
  · rw [get_clear lawful, after]
    by_cases key : name ∈ seq.metadata.map Prod.fst
    · simp only [cleared, key, matched, List.mem_singleton, exists_eq_left, and_self, if_true]
    · simp only [cleared, key, matched, List.mem_singleton, exists_eq_left, and_false, if_false]
      exact set_other key

/-- Whether a row is shown with these globals. -/
def shows (lua : Interpreter) (search : Text → Text → Option Bool) (params : FilterParams) (f : Lua.Globals → Option Lua.Value)
    (globals : Lua.Globals) (seq : FilterSequence) : Bool :=
  rowMatches search params seq && (!applyQuery lua params.queryText || answers params f globals seq)

lemma visibleFrom_cons (i : Nat) (s : lua.State) (seq : FilterSequence) (rest : List FilterSequence) :
    ∃ s', (applyQuery lua params.queryText = true → lua.get s' = cleared search params [seq] (lua.get s)) ∧
      visibleFrom lua search params i s (seq :: rest) =
        if shows lua search params f (lua.get s) seq then i :: visibleFrom lua search params (i + 1) s' rest
        else visibleFrom lua search params (i + 1) s' rest := by
  by_cases matched : rowMatches search params seq = true
  · obtain ⟨answer, kept⟩ := eval_row lawful plain s seq matched
    have both := matched
    rw [rowMatches, Bool.and_eq_true] at both
    by_cases applied : applyQuery lua params.queryText = true
    · refine ⟨_, fun _ => kept, ?_⟩
      simp only [visibleFrom, both.1, both.2, applied, shows, matched, answer]
      cases answers params f (lua.get s) seq <;> rfl
    · refine ⟨s, fun holds => absurd holds applied, ?_⟩
      simp [visibleFrom, both.1, both.2, applied, shows, matched]
  · refine ⟨s, fun _ => funext fun name => by simp [cleared, matched], ?_⟩
    simp only [Bool.not_eq_true] at matched
    have hidden : shows lua search params f (lua.get s) seq = false := by simp [shows, matched]
    rw [hidden]
    rw [rowMatches, Bool.and_eq_false_iff] at matched
    rw [visibleFrom]
    rcases matched with name | date
    · simp [name]
    · simp [date]

lemma le_of_mem_visibleFrom {rows : List FilterSequence} {i n : Nat} {s : lua.State}
    (mem : n ∈ visibleFrom lua search params i s rows) : i ≤ n := by
  induction rows generalizing i s with
  | nil => cases mem
  | cons seq rest ih =>
    obtain ⟨s', -, eq⟩ := @visibleFrom_cons lua search params host lawful f plain i s seq rest
    rw [eq] at mem
    split at mem
    · rcases List.mem_cons.mp mem with rfl | later
      · exact le_rfl
      · exact Nat.le_of_succ_le (ih later)
    · exact Nat.le_of_succ_le (ih mem)

lemma mem_visibleFrom {rows : List FilterSequence} {n : Nat} (lt : n < rows.length) {i : Nat} {s : lua.State} :
    i + n ∈ visibleFrom lua search params i s rows ↔
      shows lua search params f (cleared search params (rows.take n) (lua.get s)) (rows.get ⟨n, lt⟩) = true := by
  induction rows generalizing n i s with
  | nil => cases lt
  | cons seq rest ih =>
    obtain ⟨s', kept, eq⟩ := @visibleFrom_cons lua search params host lawful f plain i s seq rest
    rw [eq]
    cases n with
    | zero =>
      have later : i ∉ visibleFrom lua search params (i + 1) s' rest :=
        fun mem => absurd (le_of_mem_visibleFrom lawful plain mem) (by omega)
      have same : cleared search params [] (lua.get s) = lua.get s := by
        funext name
        simp [cleared]
      simp only [Nat.add_zero, List.take_zero, same]
      split
      · simp_all
      · simp_all
    | succ n =>
      have lt : n < rest.length := by simpa using lt
      have later := @ih n lt (i + 1) s'
      rw [show i + 1 + n = i + (n + 1) by omega] at later
      have skip : i + (n + 1) ∈ (if shows lua search params f (lua.get s) seq then
            i :: visibleFrom lua search params (i + 1) s' rest
          else visibleFrom lua search params (i + 1) s' rest) ↔
          i + (n + 1) ∈ visibleFrom lua search params (i + 1) s' rest := by
        split
        · rw [List.mem_cons, or_iff_right (by omega)]
        · rfl
      rw [skip, later, List.take_succ_cons, cleared_cons]
      by_cases applied : applyQuery lua params.queryText = true
      · rw [kept applied]
        rfl
      · simp [shows, applied]

lemma independent_iff {rows : List FilterSequence} {i : Fin rows.length} : Independent lua search rows params i ↔
    shows lua search params f (cleared search params (rows.take i) library) (rows.get i) =
      shows lua search params f library (rows.get i) := by
  have all := @mem_visibleFrom lua search params host lawful f plain rows i i.isLt 0 lua.start
  have alone := @mem_visibleFrom lua search params host lawful f plain [rows.get i] 0 (by simp) 0 lua.start
  have same : cleared search params ([rows.get i].take 0) library = library := by
    funext name
    simp [cleared]
  rw [Nat.zero_add, lawful.get_start] at all alone
  rw [same] at alone
  unfold Independent computeVisibleSequences
  rw [all, alone]
  exact Bool.eq_iff_iff.symm

lemma independent_of_plain {rows : List FilterSequence} (free : ¬ Shadows search rows params) (i : Fin rows.length) :
    Independent lua search rows params i := by
  rw [independent_iff lawful plain]
  by_cases matched : rowMatches search params (rows.get i) = true
  · have same : set (cleared search params (rows.take i) library) (rows.get i).metadata =
        set library (rows.get i).metadata := by
      refine set_congr fun name other => ?_
      unfold cleared
      split
      · rename_i shadow
        obtain ⟨seq, mem, matched', key⟩ := shadow
        obtain ⟨j, lt, rfl⟩ := List.mem_take_iff_getElem.mp mem
        by_contra set
        have before : (⟨j, by omega⟩ : Fin rows.length) < i := Fin.lt_def.mpr (show j < i.val by omega)
        exact free ⟨⟨j, by omega⟩, i, before, matched', matched, name, key, Ne.symm set, other⟩
      · rfl
    rw [shows, shows, answers, answers, same]
  · simp only [Bool.not_eq_true] at matched
    simp only [shows, matched, Bool.false_and]

end Lawful

/-! ## The name of a library as a query -/

lemma query_libraryName : ∀ name ∈ libraryNames, name ≠ [] ∧ (query name).lua = name ∧
    Lua.parseChunk (Interpreter.chunk name) = some (.var name) := by
  decide +kernel

lemma mem_libraryNames {name : Text} (set : library name ≠ .nil) : name ∈ libraryNames ∧ (library name).truthy = true := by
  unfold library at set ⊢
  split_ifs at set ⊢ with version mem
  · subst version
    exact ⟨by decide, rfl⟩
  · exact ⟨mem, rfl⟩
  · exact absurd rfl set

/-- Rows are shown independently, whatever the query computes from the globals, if and only if no row has a key that is
a global of the libraries while a later row, which the other filters show as well, does without it. -/
theorem rows_independent_iff {lua : Interpreter} {host : Lua.Host} (lawful : lua.Lawful host)
    (search : Text → Text → Option Bool) (rows : List FilterSequence) (params : FilterParams) :
    (∀ text, lua.Plain text → ∀ i, Independent lua search rows { params with queryText := text } i) ↔
      ¬ Shadows search rows params := by
  refine ⟨fun independent shadows => ?_, fun free text ⟨f, plain⟩ i =>
    @independent_of_plain lua search { params with queryText := text } host lawful f plain rows free i⟩
  obtain ⟨j, i, before, matched, matched', name, key, defined, other⟩ := shadows
  obtain ⟨mem, truthy⟩ := mem_libraryNames defined
  obtain ⟨nonempty, isLua, parsed⟩ := query_libraryName name mem
  have parsed' : Lua.parseChunk (Interpreter.chunk (query name).lua) = some (.var name) := by
    rw [isLua]
    exact parsed
  have alike := independent name (lawful.plain_of_parsed parsed') i
  rw [@independent_iff lua search { params with queryText := name } host lawful
    (fun globals => host.eval globals (.var name)) (lawful.run_of _ _ parsed')] at alike
  have applied : applyQuery lua name = true := by
    simp [applyQuery, Interpreter.validate, nonempty, isLua, lawful.load_of _ _ parsed]
  have shadowed : ∃ seq ∈ rows.take i, rowMatches search { params with queryText := name } seq = true ∧
      name ∈ seq.metadata.map Prod.fst :=
    ⟨rows.get j, List.mem_take_iff_getElem.mpr ⟨j, lt_min before j.isLt, rfl⟩, matched, key⟩
  have matched' : rowMatches search { params with queryText := name } (rows.get i) = true := matched'
  have shown (globals : Lua.Globals) : shows lua search { params with queryText := name }
      (fun globals => host.eval globals (.var name)) globals (rows.get i) = (globals name).truthy := by
    simp only [shows, answers, applied, matched', isLua, Lua.Host.eval, set_other other, Option.any_some]
    simp [nonempty]
  rw [shown, shown, truthy, cleared, if_pos shadowed] at alike
  cases alike

def robotRows : List FilterSequence :=
  [{ name := "a".toList, metadata := [("robot".toList, "x".toList)] },
    { name := "b".toList, metadata := [("robot".toList, "y".toList), ("site".toList, "3".toList)] }]

theorem robot_rows_independent : Independent (comparisons plainHost) (fun _ _ => none) robotRows
    { queryText := "robot == \"y\"".toList } ⟨1, by decide⟩ := by
  have lawful := lawful_comparisons plainHost
  have free : ¬ Shadows (fun _ _ => none) robotRows {} := by
    rintro ⟨j, i, -, -, -, key, mem, defined, -⟩
    have none : ∀ seq ∈ robotRows, ∀ key ∈ seq.metadata.map Prod.fst, library key = .nil := by decide +kernel
    exact defined (none _ (List.get_mem robotRows j) key mem)
  have parsed : (Lua.parseChunk (Interpreter.chunk (query "robot == \"y\"".toList).lua)).isSome = true := by decide +kernel
  obtain ⟨e, parsed⟩ := Option.isSome_iff_exists.mp parsed
  exact (rows_independent_iff lawful (fun _ _ => none) robotRows {}).mpr free _ (lawful.plain_of_parsed parsed) _

def stringRows : List FilterSequence :=
  [{ name := "a".toList, metadata := [("string".toList, "x".toList)] }, { name := "b".toList }]

/-- The second row is shown alone, and hidden after the first. -/
theorem string_rows_not_independent :
    computeVisibleSequences (comparisons plainHost) (fun _ _ => none) stringRows { queryText := "string ~= nil".toList } =
      [0] ∧
    computeVisibleSequences (comparisons plainHost) (fun _ _ => none) (stringRows.drop 1)
      { queryText := "string ~= nil".toList } = [0] := by
  decide +kernel

end PjCloud.Query
