import PjCloud.Builder.Layout
import PjCloud.Builder.Rows

/-!
# The transaction of a file

What `_write_file_row` comes to. Its transaction, if it commits, has cataloged the file with the topics of the
summary (`Cataloged`); if anything is raised in it, the committed tables are those from before, the caches are
read again, and the file is quarantined.
-/

namespace PjCloud.Builder
open Lib
variable {cfg : Setup} {t t' t₀ : Tables} {w : World} {site : Site} {dims : Dims} {ids : Ids} {effKey : String}
  {stat : Stat} {summary : FileSummary}

/-- The topics of a row are those of a summary. -/
structure Laid (t : Tables) (row : FileRow) (summary : FileSummary) : Prop where
  topics : ∃ byTopic : ByTopic Nat Nat, List.Forall₂ (Resolved t) byTopic (topicsOf summary.channels) ∧
    t.membersOf row.topicSetId = byTopic.members ∧ row.topicCounts = encodeCountsBlob byTopic.counts ∧
    byTopic.counts.sum = summary.messageCount
  set : t.has .topicSet row.topicSetId = true

lemma Laid.mono {row : FileRow} (laid : Laid t row summary) (grows : Grows t t') : Laid t' row summary := by
  obtain ⟨⟨byTopic, resolved, members, counts, sum⟩, set⟩ := laid
  refine ⟨⟨byTopic, resolved.imp fun _ _ r => r.mono grows, ?_, counts, sum⟩, grows.has set⟩
  rw [grows.membersOf set]
  exact members

lemma Laid.congr {row row' : FileRow} (laid : Laid t row summary) (dict : t'.dict = t.dict)
    (members : t'.members = t.members) (set : row'.topicSetId = row.topicSetId)
    (counts : row'.topicCounts = row.topicCounts) : Laid t' row' summary := by
  obtain ⟨⟨byTopic, resolved, own, blob, sum⟩, there⟩ := laid
  refine ⟨⟨byTopic, ?_, ?_, counts.trans blob, sum⟩, ?_⟩
  · refine resolved.imp fun x y r => ⟨?_, ?_, r.count⟩
    · rw [dict]
      exact r.topic
    · rw [dict]
      exact r.schema
  · unfold Tables.membersOf
    rw [members, set]
    exact own
  · unfold Tables.has
    rw [dict, set]
    exact there

/-- The tables of a transaction that has cataloged a file. -/
structure Cataloged (cfg : Setup) (t₀ : Tables) (c : Composite) (effKey : String) (stat : Stat)
    (summary : FileSummary) (t' : Tables) : Prop where
  intro ::
  shape : ∃ t row, Grows t₀ t ∧ SoundNames cfg t ∧ row.composite = c ∧ row.etag = stat.etag ∧
    Laid t row summary ∧ t' = t.catalogFile row (cfg.deriveTags summary) effKey

lemma ends_insertTags {tags : List (String × String)} {id : Nat} {base : Tables} (kept : w.conn.durable = t₀)
    (view : w.conn.view = base) :
    (Eff.each tags fun tag => execute cfg site fun t => t.insertEmbedded ⟨id, tag.1, tag.2⟩).Ends
      (fun _ w' => w'.conn.durable = t₀ ∧ w'.caches = w.caches ∧
        w'.conn.view = base.addTags id tags)
      (Keeps t₀) w := by
  let I (rest : List (String × String)) (w' : World) : Prop :=
    ∃ done, tags = done ++ rest ∧ w'.conn.durable = t₀ ∧ w'.caches = w.caches ∧
      w'.conn.view = base.addTags id done
  refine (Eff.Ends.each (I := I) ⟨[], rfl, kept, rfl, ?_⟩ ?_).mono ?_ fun _ _ kept => kept
  · rw [view, Tables.addTags, List.map_nil, List.append_nil]
  · rintro tag rest s ⟨done, split, kept, caches, view⟩
    apply ends_execute kept
    intro t inserted
    unfold Tables.insertEmbedded at inserted
    split at inserted
    · cases inserted
    · split at inserted
      · cases inserted
        refine ⟨done ++ [tag], by rw [split, List.append_assoc]; rfl, kept, caches, ?_⟩
        rw [view_write, view, Tables.addTags, Tables.addTags, List.map_append, ← List.append_assoc]
        rfl
      · cases inserted
  · rintro _ w' ⟨done, split, kept, caches, view⟩
    rw [List.append_nil] at split
    rw [split]
    exact ⟨kept, caches, view⟩

lemma ends_fileTransaction (free : CollisionFree cfg) (within : Within cfg t₀ w) (files : SoundFiles t₀) :
    (fileTransaction cfg dims effKey ids stat summary).Ends
      (fun _ w' => w'.conn.durable = t₀ ∧ w'.caches = w'.conn.view.names ∧
        Cataloged cfg t₀ (ids.composite dims) effKey stat summary w'.conn.view) (Keeps t₀) w := by
  unfold fileTransaction
  rw [Eff.ends_bind]
  refine (ends_resolveChannels within).mono ?_ fun _ _ kept => kept
  rintro byTopic w₁ ⟨within₁, resolved⟩
  rw [Eff.ends_bind]
  refine (ends_resolveTopicSet free within₁ (members_of_resolved within₁.names nodup_topicsOf resolved)).mono ?_
    fun _ _ kept => kept
  rintro set w₂ ⟨within₂, grows₂, hasSet, members⟩
  have resolved₂ := resolved.imp fun _ _ r => r.mono grows₂
  have files₂ := files.mono within₂.grows
  split
  · exact within₂.durable
  · rename_i sums
    rw [not_not] at sums
    rw [Eff.ends_bind]
    apply ends_nowNs
    rw [Eff.ends_bind]
    generalize filled : FileRow.mk 0 (ids.composite dims) stat.etag stat.size stat.mtimeNs (cfg.clock w₂.tick)
      summary.startTimeNs summary.endTimeNs summary.chunkCount set (encodeCountsBlob byTopic.counts) false = row
    have composite : row.composite = ids.composite dims := by rw [← filled]
    have etag : row.etag = stat.etag := by rw [← filled]
    have topicSet : row.topicSetId = set := by rw [← filled]
    have counts : row.topicCounts = encodeCountsBlob byTopic.counts := by rw [← filled]
    refine ends_execute within₂.durable ?_
    intro t put
    unfold Tables.upsertFile at put
    split at put
    · cases put
      rw [Eff.ends_bind]
      refine ends_query (durable_write.trans within₂.durable) ?_
      rw [view_write, ← composite, files₂.fileWith_putRow]
      dsimp only
      rw [Eff.ends_bind]
      refine ends_execute (durable_write.trans within₂.durable) ?_
      rintro _ ⟨⟩
      rw [Eff.ends_bind]
      refine Eff.Ends.mono (ends_insertTags ?_ rfl) ?_ fun _ _ kept => kept
      · exact within₂.durable
      rintro _ w₃ ⟨kept₃, caches₃, view₃⟩
      rw [Eff.ends_bind]
      refine ends_execute kept₃ ?_
      rintro _ ⟨⟩
      refine ends_execute kept₃ ?_
      rintro _ ⟨⟩
      have laid : Laid w₂.conn.view row summary :=
        ⟨⟨byTopic, resolved₂, by rw [topicSet]; exact members, counts, sums⟩, by rw [topicSet]; exact hasSet⟩
      generalize ((cfg.deriveTags summary).any isErrorTag || summary.messageCount == 0) = hasError
      have final := files₂.catalogFile_eq row (cfg.deriveTags summary) effKey hasError
      dsimp only [view_write]
      rw [view_write, view_write] at view₃
      rw [view₃, final]
      refine ⟨kept₃, ?_, ⟨w₂.conn.view, { row with hasError }, within₂.grows, within₂.names, rfl,
        etag, ⟨laid.topics, laid.set⟩, rfl⟩⟩
      unfold Tables.names
      rw [catalogFile_frame.1, caches₃]
      exact within₂.caches
    · cases put

end PjCloud.Builder
