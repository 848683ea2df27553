import Mathlib.Logic.Equiv.List
import PjCloud.Builder.Writes

/-!
# Topics in a transaction

The topics of a summary by name (`topicsOf`), and what the loop over the channels makes of them by number. The
two agree topic by topic (`Resolved`), in any tables that have the names. A topic set that is resolved has the
members that it was asked for, whether it is new or was there, since fingerprints tell members apart.
-/

namespace PjCloud.Builder
open Lib
variable {cfg : Setup} {t t' t₀ : Tables} {w : World} {site : Site} {byTopic : ByTopic Nat Nat}
  {named : ByTopic String (String × String)}

def topicsOf (channels : List ChannelInfo) : ByTopic String (String × String) :=
  channels.foldl (fun byTopic ch => byTopic.add ch.topic (ch.schemaName, ch.schemaEncoding) ch.messageCount) []

/-- A topic by number is one by name. -/
structure Resolved (t : Tables) (x : Nat × Nat × Nat) (y : String × (String × String) × Nat) : Prop where
  topic : idOf (t.dict .topic) y.1 = some x.1
  schema : idOf (t.dict .schema) y.2.1 = some x.2.1
  count : x.2.2 = y.2.2

lemma Resolved.mono {x : Nat × Nat × Nat} {y : String × (String × String) × Nat} (grows : Grows t t')
    (resolved : Resolved t x y) : Resolved t' x y :=
  ⟨idOf_of_extends (grows.dict .topic) resolved.topic, idOf_of_extends (grows.dict .schema) resolved.schema,
    resolved.count⟩

lemma Resolved.topic_iff {x : Nat × Nat × Nat} {y : String × (String × String) × Nat} {name : String} {i : Nat}
    (resolved : Resolved t x y) (dict : Dictionary (t.dict .topic))
    (number : idOf (t.dict .topic) name = some i) : x.1 = i ↔ y.1 = name := by
  have own := resolved.topic
  constructor
  · rintro rfl
    exact dict.key_unique own number
  · rintro rfl
    rw [own] at number
    exact Option.some.inj number

lemma resolved_add {name : String} {schema : String × String} {i j n : Nat}
    (resolved : List.Forall₂ (Resolved t) byTopic named) (dict : Dictionary (t.dict .topic))
    (topicNumber : idOf (t.dict .topic) name = some i) (schemaNumber : idOf (t.dict .schema) schema = some j) :
    List.Forall₂ (Resolved t) (byTopic.add i j n) (named.add name schema n) := by
  have there : (byTopic.any fun x => x.1 = i) = named.any fun y => y.1 = name := by
    induction resolved with
    | nil => rfl
    | cons head _ ih => rw [List.any_cons, List.any_cons, ih, decide_eq_decide.mpr (head.topic_iff dict topicNumber)]
  unfold ByTopic.add
  rw [there]
  split
  · rw [List.forall₂_map_left_iff, List.forall₂_map_right_iff]
    refine resolved.imp fun x y head => ?_
    by_cases own : y.1 = name
    · rw [if_pos own, if_pos ((head.topic_iff dict topicNumber).mpr own)]
      exact ⟨head.topic, head.schema, by rw [head.count]⟩
    · rw [if_neg own, if_neg (mt (head.topic_iff dict topicNumber).mp own)]
      exact head
  · exact List.rel_append resolved (.cons ⟨topicNumber, schemaNumber, rfl⟩ .nil)

lemma ends_resolveChannels {summary : FileSummary} (within : Within cfg t₀ w) :
    (resolveChannels cfg summary).Ends
      (fun byTopic w' => Within cfg t₀ w' ∧
        List.Forall₂ (Resolved w'.conn.view) byTopic (topicsOf summary.channels)) (Keeps t₀) w := by
  unfold resolveChannels
  let I (rest : List ChannelInfo) (byTopic : ByTopic Nat Nat) (w' : World) : Prop :=
    ∃ done, summary.channels = done ++ rest ∧ Within cfg t₀ w' ∧
      List.Forall₂ (Resolved w'.conn.view) byTopic (topicsOf done)
  refine (Eff.Ends.fold (I := I) ⟨[], rfl, within, .nil⟩ ?_).mono ?_ fun _ _ kept => kept
  · rintro byTopic ch rest s ⟨done, split, within, resolved⟩
    rw [Eff.ends_bind]
    refine (ends_resolve within (by decide)).mono ?_ fun _ _ kept => kept
    rintro topic s₁ ⟨within₁, grows₁, topicNumber⟩
    rw [Eff.ends_bind]
    refine (ends_resolve within₁ (by decide)).mono ?_ fun _ _ kept => kept
    rintro schema s₂ ⟨within₂, grows₂, schemaNumber⟩
    rw [Eff.ends_pure]
    refine ⟨done ++ [ch], by rw [split, List.append_assoc]; rfl, within₂, ?_⟩
    rw [topicsOf, List.foldl_append]
    exact resolved_add (resolved.imp fun _ _ r => r.mono (grows₁.trans grows₂)) (within₂.names.dict .topic)
      (idOf_of_extends (grows₂.dict .topic) topicNumber) schemaNumber
  · rintro byTopic w' ⟨done, split, within, resolved⟩
    rw [List.append_nil] at split
    rw [split]
    exact ⟨within, resolved⟩

/-! ## Members -/

lemma nodup_topics (dict : Dictionary (t.dict .topic)) (resolved : List.Forall₂ (Resolved t) byTopic named)
    (nodup : (named.map Prod.fst).Nodup) : (byTopic.map Prod.fst).Nodup := by
  induction resolved with
  | nil => exact .nil
  | @cons x y byTopic named head tail ih =>
    rw [List.map_cons, List.nodup_cons] at nodup ⊢
    refine ⟨?_, ih nodup.2⟩
    intro mem
    -- a later topic with this number would have this name
    obtain ⟨x', inside, same⟩ := List.mem_map.mp mem
    obtain ⟨y', inside', own⟩ := exists_of_forall₂ tail inside
    exact nodup.1 (List.mem_map.mpr ⟨y', inside', (own.topic_iff dict head.topic).mp same⟩)

lemma nodup_add {τ σ : Type} [DecidableEq τ] {byTopic : ByTopic τ σ} {topic : τ} {schema : σ} {n : Nat}
    (nodup : (byTopic.map Prod.fst).Nodup) : ((byTopic.add topic schema n).map Prod.fst).Nodup := by
  unfold ByTopic.add
  split
  · rw [List.map_map]
    have same : (Prod.fst ∘ fun x : τ × σ × Nat => if x.1 = topic then (x.1, x.2.1, x.2.2 + n) else x) =
        Prod.fst := by
      funext x
      rw [Function.comp_apply]
      split <;> rfl
    rw [same]
    exact nodup
  · rename_i new
    rw [List.map_append]
    apply nodup.append (List.nodup_singleton _)
    intro x mem last
    obtain rfl := List.mem_singleton.mp last
    obtain ⟨y, inside, own⟩ := List.mem_map.mp mem
    exact new (List.any_eq_true.mpr ⟨y, inside, decide_eq_true own⟩)

lemma nodup_topicsOf {channels : List ChannelInfo} : ((topicsOf channels).map Prod.fst).Nodup := by
  unfold topicsOf
  have step : ∀ (byTopic : ByTopic String (String × String)), (byTopic.map Prod.fst).Nodup →
      ((channels.foldl (fun byTopic ch =>
        byTopic.add ch.topic (ch.schemaName, ch.schemaEncoding) ch.messageCount) byTopic).map Prod.fst).Nodup := by
    induction channels with
    | nil => exact fun _ nodup => nodup
    | cons ch rest ih => exact fun _ nodup => ih _ (nodup_add nodup)
  exact step [] .nil

lemma sortMembers_idem {members : List (Nat × Nat)} : sortMembers (sortMembers members) = sortMembers members := by
  have : Std.Total pairLe := ⟨fun x y => by unfold pairLe; omega⟩
  have : IsTrans (Nat × Nat) pairLe := ⟨fun x y z => by unfold pairLe; omega⟩
  exact List.Pairwise.insertionSort_eq (List.pairwise_insertionSort pairLe members)

lemma members_of_resolved (names : SoundNames cfg t) (nodup : (named.map Prod.fst).Nodup)
    (resolved : List.Forall₂ (Resolved t) byTopic named) : Members t byTopic.members := by
  have perm : byTopic.members.Perm (byTopic.map fun x => (x.1, x.2.1)) := List.perm_insertionSort _ _
  refine ⟨sortMembers_idem, ?_, ?_⟩
  · rw [(perm.map Prod.fst).nodup_iff, List.map_map]
    exact nodup_topics (names.dict .topic) resolved nodup
  · intro m mem
    obtain ⟨x, inside, rfl⟩ := List.mem_map.mp (perm.mem_iff.mp mem)
    obtain ⟨y, -, own⟩ := exists_of_forall₂ resolved inside
    exact ⟨has_of_idOf own.topic, has_of_idOf own.schema⟩

/-! ## Topic sets -/

/-- Fingerprints tell sorted members apart. -/
def CollisionFree (cfg : Setup) : Prop :=
  ∀ members members', cfg.fingerprint members = cfg.fingerprint members' →
    sortMembers members = sortMembers members'

/-- A setup in which nothing fails, with such fingerprints. -/
def calmSetup : Setup where
  fingerprint members := String.ofList (List.replicate (Encodable.encode members) 'a')
  deriveTags := deriveTags
  isLocal := false
  fault _ _ := none
  changes _ := []
  network _ := none
  torn _ := .error noSuchKey
  clock n := n

lemma calmSetup_free : CollisionFree calmSetup := by
  intro members members' same
  have lengths := congrArg (fun s => s.toList.length) same
  simp only [calmSetup, String.toList_ofList, List.length_replicate] at lengths
  rw [Encodable.encode_injective lengths]

lemma sortMembers_membersOf {i : Nat} : sortMembers (t.membersOf i) = t.membersOf i := sortMembers_idem

lemma SoundNames.membersOf_fingerprint (names : SoundNames cfg t) (free : CollisionFree cfg)
    {members : List (Nat × Nat)} {set : Nat} (sorted : sortMembers members = members)
    (found : idOf (t.dict .topicSet) (cfg.fingerprint members) = some set) : t.membersOf set = members := by
  have print := names.sets _ (((names.dict .topicSet).idOf_iff).mp found)
  have same := free _ _ print
  rw [sorted, sortMembers_membersOf] at same
  exact same.symm

lemma ends_insertMembers {members : List (Nat × Nat)} {set : Nat} {base : Tables}
    (kept : w.conn.durable = t₀) (view : w.conn.view = base) :
    (Eff.each members fun m => execute cfg site fun t => t.insertMember ⟨set, m.1, m.2⟩).Ends
      (fun _ w' => w'.conn.durable = t₀ ∧ w'.caches = w.caches ∧
        w'.conn.view = { base with members := base.members ++ members.map fun m => ⟨set, m.1, m.2⟩ })
      (Keeps t₀) w := by
  let I (rest : List (Nat × Nat)) (w' : World) : Prop :=
    ∃ done, members = done ++ rest ∧ w'.conn.durable = t₀ ∧ w'.caches = w.caches ∧
      w'.conn.view = { base with members := base.members ++ done.map fun m => ⟨set, m.1, m.2⟩ }
  refine (Eff.Ends.each (I := I) ⟨[], rfl, kept, rfl, ?_⟩ ?_).mono ?_ fun _ _ kept => kept
  · rw [view, List.map_nil, List.append_nil]
  · rintro m rest s ⟨done, split, kept, caches, view⟩
    apply ends_execute kept
    intro t inserted
    unfold Tables.insertMember at inserted
    split at inserted
    · cases inserted
    · split at inserted
      · cases inserted
        refine ⟨done ++ [m], by rw [split, List.append_assoc]; rfl, kept, caches, ?_⟩
        rw [view_write, view, List.map_append, List.append_assoc]
        rfl
      · cases inserted
  · rintro _ w' ⟨done, split, kept, caches, view⟩
    rw [List.append_nil] at split
    rw [split]
    exact ⟨kept, caches, view⟩

lemma ends_resolveTopicSet {members : List (Nat × Nat)} (free : CollisionFree cfg) (within : Within cfg t₀ w)
    (fit : Members w.conn.view members) :
    (resolveTopicSet cfg site (cfg.fingerprint members) members).Ends
      (fun set w' => Within cfg t₀ w' ∧ Grows w.conn.view w'.conn.view ∧
        w'.conn.view.has .topicSet set = true ∧ w'.conn.view.membersOf set = members) (Keeps t₀) w := by
  unfold resolveTopicSet
  rw [Eff.ends_bind, Eff.ends_gets, within.caches]
  cases known : w.conn.view.names .topicSet (cfg.fingerprint members) with
  | some set =>
    rw [Eff.ends_pure]
    exact ⟨within, .refl, has_of_idOf known, within.names.membersOf_fingerprint free fit.sorted known⟩
  | none =>
    dsimp only
    rw [Eff.ends_bind]
    refine ends_query within.durable ?_
    rw [show idOf (w.conn.view.dict .topicSet) (cfg.fingerprint members) = none from known]
    dsimp only
    rw [if_neg (not_not_intro fit.sorted.symm), Eff.ends_bind]
    apply ends_execute (w := { w with tick := w.tick + 1 }) within.durable
    intro t inserted
    unfold Tables.insertTopicSet at inserted
    rw [show idOf (Conn.view w.conn |>.dict .topicSet) (cfg.fingerprint members) = none from known] at inserted
    simp only [Option.isSome_none, Bool.false_eq_true, if_false] at inserted
    cases inserted
    have number : idOf ((w.conn.view.addName .topicSet (cfg.fingerprint members)).dict .topicSet)
        (cfg.fingerprint members) = some (nextId ((w.conn.view.dict .topicSet).map Prod.fst)) := by
      rw [addName_dict_self]
      exact idOf_addKey known
    rw [Eff.ends_bind]
    refine ends_query (durable_write.trans within.durable) ?_
    rw [view_write, number]
    dsimp only
    rw [Eff.ends_bind]
    refine Eff.Ends.mono (ends_insertMembers ?_ rfl) ?_ fun _ _ kept => kept
    · exact durable_write.trans within.durable
    rintro _ w' ⟨kept, caches, view⟩
    rw [Eff.ends_bind, Eff.ends_modify, Eff.ends_pure]
    have shape : w'.conn.view = w.conn.view.addTopicSet (cfg.fingerprint members) members := view
    have set : (w.conn.view.addTopicSet (cfg.fingerprint members) members).has .topicSet
        (nextId ((w.conn.view.dict .topicSet).map Prod.fst)) = true := has_of_idOf number
    refine ⟨⟨kept, ?_, ?_, ?_⟩, ?_, ?_, ?_⟩
    · rw [World.remember, shape]
      exact within.grows.trans grows_addTopicSet
    · rw [World.remember, shape]
      exact within.names.addTopicSet fit known
    · rw [World.remember, shape, caches]
      dsimp only
      rw [within.caches]
      exact names_addName known
    · rw [World.remember, shape]
      exact grows_addTopicSet
    · rw [World.remember, shape]
      exact set
    · rw [World.remember, shape]
      exact membersOf_addTopicSet within.names fit

end PjCloud.Builder
