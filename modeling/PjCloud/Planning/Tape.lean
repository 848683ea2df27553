import PjCloud.Planning.Recording

/-!
# Tapes

Recordings made from their contents. `plainLibrary` is a small stand-in for the `mcap` library, with
chunks that are not compressed and messages of two header bytes, and a `Tape` is what can be written for
it: `Tape.recording` writes the chunks out and is a `Recording`, with the proofs that the summary is
truthful.
-/

namespace PjCloud.Planning
open Lib Format

/-- A library without compression: a message is its channel, its log time and its payload. -/
def plainLibrary : Library where
  parseChunk body := .ok { compression := "", uncompressedSize := body.length, records := body }
  parseMessage
    | channel :: time :: data =>
      .ok { channelID := channel.toNat, logTime := time.toNat, publishTime := time.toNat, data := data }
    | _ => .error "short message"
  zstd _ _ := .error "no zstd"
  lz4 _ _ := .error "no lz4"

def encodeMessage (m : McapMessage) : Bytes := UInt8.ofNat m.channelID :: UInt8.ofNat m.logTime :: m.data

def encodeMessages (ms : List McapMessage) : List (UInt8 × Bytes) :=
  ms.map fun m => (opMessage, encodeMessage m)

def encodeStream (ms : List McapMessage) : Bytes :=
  (encodeMessages ms).flatMap fun rec => encodeRecord rec.1 rec.2

def plainMessage (m : McapMessage) : Bool :=
  m.channelID < 256 && m.logTime < 256 && m.publishTime = m.logTime && m.data.length < 2 ^ 32

lemma parseMessage_encodeMessage {m : McapMessage} (plain : plainMessage m) :
    plainLibrary.parseMessage (encodeMessage m) = .ok m := by
  obtain ⟨channelID, logTime, publishTime, data⟩ := m
  simp only [plainMessage, Bool.and_eq_true, decide_eq_true_eq] at plain
  obtain ⟨⟨⟨channel, time⟩, rfl⟩, -⟩ := plain
  simp only [plainLibrary, encodeMessage, UInt8.toNat_ofNat', Nat.mod_eq_of_lt channel,
    Nat.mod_eq_of_lt time]

lemma messages_encodeMessages {ms : List McapMessage} (plain : ∀ m ∈ ms, plainMessage m) :
    Messages plainLibrary (encodeMessages ms) ms := by
  induction ms with
  | nil => exact .nil
  | cons m rest ih =>
    apply Messages.message (parseMessage_encodeMessage (plain m List.mem_cons_self))
    exact ih fun m h => plain m (List.mem_cons_of_mem _ h)

lemma holds_encodeStream {ms : List McapMessage} (plain : ∀ m ∈ ms, plainMessage m)
    (small : (encodeStream ms).length < 2 ^ 62) :
    Holds plainLibrary (encodeRecord opChunk (encodeStream ms)) ms := by
  refine ⟨encodeStream ms, encodeMessages ms, ?_, by omega, ?_, messages_encodeMessages plain⟩
  · rw [decodeChunkRecords_encodeRecord small (by rfl)]
    rfl
  · apply framed_encodeRecord
    intro rec mem
    obtain ⟨m, written, rfl⟩ := List.mem_map.mp mem
    have fits := plain m written
    simp only [plainMessage, Bool.and_eq_true, decide_eq_true_eq] at fits
    simp only [encodeMessage, List.length_cons]
    omega

/-- A chunk to write: its entry in the summary and its messages. -/
structure TapeChunk where
  index : ChunkIndex
  messages : List McapMessage

/-- The entry of the chunk is truthful and the chunk can be written. -/
def TapeChunk.sound (c : TapeChunk) : Bool :=
  (c.messages.all fun m => plainMessage m && c.index.messageStartTime ≤ m.logTime &&
      m.logTime ≤ c.index.messageEndTime && m.channelID ∈ c.index.messageIndexOffsets) &&
    c.index.messageStartTime < 2 ^ 63 && c.index.messageEndTime < 2 ^ 63 &&
    c.index.chunkStartOffset < 2 ^ 63 && (encodeStream c.messages).length < 2 ^ 62

/-- A file to write. -/
structure Tape where
  record : FileRecord
  channels : List (Nat × Channel)
  chunks : List TapeChunk
  sound : chunks.all TapeChunk.sound
  apart : (chunks.map fun c => c.index.chunkStartOffset).Nodup

namespace Tape
variable {t : Tape} {ci : ChunkIndex}

/-- The summary of the file. -/
def info (t : Tape) : Info where
  channels := t.channels
  schemas := []
  chunkIndexes := t.chunks.map TapeChunk.index
  channelMessageCounts := none

def contents (t : Tape) (ci : ChunkIndex) : List McapMessage :=
  ((t.chunks.find? fun c => c.index.chunkStartOffset = ci.chunkStartOffset).map
    TapeChunk.messages).getD []

/-- The bytes at a place. -/
def object (t : Tape) (offset _length : Int) : Except String Bytes :=
  match t.chunks.find? fun c => c.index.chunkStartOffset = offset.toNat with
  | some c => .ok (encodeRecord opChunk (encodeStream c.messages))
  | none => .error "no such range"

lemma chunk_of_mem (mem : ci ∈ t.info.chunkIndexes) :
    ∃ c ∈ t.chunks, c.index = ci ∧ c.sound = true ∧
      (t.chunks.find? fun x => x.index.chunkStartOffset = ci.chunkStartOffset) = some c := by
  obtain ⟨c, chunk, rfl⟩ := List.mem_map.mp mem
  exact ⟨c, chunk, rfl, List.all_eq_true.mp t.sound c chunk, find_of_nodup t.apart chunk⟩

lemma contents_eq {c : TapeChunk}
    (found : (t.chunks.find? fun x => x.index.chunkStartOffset = ci.chunkStartOffset) = some c) :
    t.contents ci = c.messages := by
  rw [contents, found]
  rfl

/-- The file written out. -/
def recording (t : Tape) : Recording plainLibrary where
  record := t.record
  info := t.info
  object := t.object
  contents := t.contents
  holds ci mem := by
    obtain ⟨c, -, rfl, sound, found⟩ := chunk_of_mem mem
    simp only [TapeChunk.sound, Bool.and_eq_true, decide_eq_true_eq, List.all_eq_true] at sound
    obtain ⟨⟨⟨⟨messages, -⟩, -⟩, offset⟩, small⟩ := sound
    refine ⟨encodeRecord opChunk (encodeStream c.messages), ?_, ?_⟩
    · rw [object, toInt64_of_lt offset, Int.toNat_natCast, found]
    · rw [contents_eq found]
      exact holds_encodeStream (fun m h => (messages m h).1.1.1) small
  encloses ci mem m inside := by
    obtain ⟨c, -, rfl, sound, found⟩ := chunk_of_mem mem
    simp only [TapeChunk.sound, Bool.and_eq_true, decide_eq_true_eq, List.all_eq_true] at sound
    obtain ⟨⟨⟨-, lower⟩, upper⟩, -⟩ := sound.1.1.1.1 m (contents_eq found ▸ inside)
    exact ⟨lower, upper⟩
  listed ci mem m inside := by
    obtain ⟨c, -, rfl, sound, found⟩ := chunk_of_mem mem
    simp only [TapeChunk.sound, Bool.and_eq_true, decide_eq_true_eq, List.all_eq_true] at sound
    exact (sound.1.1.1.1 m (contents_eq found ▸ inside)).2
  timely ci mem := by
    obtain ⟨c, -, rfl, sound, -⟩ := chunk_of_mem mem
    simp only [TapeChunk.sound, Bool.and_eq_true, decide_eq_true_eq] at sound
    exact ⟨sound.1.1.1.2, sound.1.1.2⟩

end Tape

end PjCloud.Planning
