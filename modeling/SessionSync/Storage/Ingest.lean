import SessionSync.Storage.Chunking
import SessionSync.Core.Sha256

set_option autoImplicit false

namespace SessionSync.Storage

open SessionSync.Core Checked Lib Rollout

-- A reader and how much it is willing to hand out in each of its next calls. A call
-- hands out at least one byte as long as there is one, and after the last entry a
-- call fills whatever room it is given.
structure ShortReader where
  remaining : Bytes
  limits : List Nat

namespace ShortReader

def handOut (reader : ShortReader) (room : Nat) : Nat :=
  match reader.limits with
  | [] => room
  | limit :: _ => min room (max 1 limit)

-- Read::read into a buffer with `room` bytes.
def read (reader : ShortReader) (room : Nat) : Bytes × ShortReader :=
  (reader.remaining.take (reader.handOut room), ⟨reader.remaining.drop (reader.handOut room), reader.limits.tail⟩)

theorem hand_out_pos (reader : ShortReader) (room : Nat) (positive : room ≠ 0) : 0 < reader.handOut room := by
  unfold handOut
  split
  · omega
  · omega

theorem hand_out_le (reader : ShortReader) (room : Nat) : reader.handOut room ≤ room := by
  unfold handOut
  split
  · exact Nat.le_refl _
  · omega

-- What the loop of the v4 ingestion sees: one read for each chunk, until a read is empty.
def reads (size : Nat) (reader : ShortReader) : List Bytes :=
  if reader.remaining = [] ∨ size = 0 then [] else (reader.read size).1 :: (reader.read size).2.reads size
termination_by reader.remaining.length
decreasing_by
  rename_i more
  rw [not_or] at more
  have some := List.length_pos_of_ne_nil more.1
  have positive := reader.hand_out_pos size more.2
  simp only [read, List.length_drop]
  omega

-- The inner loop of the v3 ingestion: read on until the buffer is full or the reader has ended.
def fill (room : Nat) (reader : ShortReader) : Bytes × ShortReader :=
  if reader.remaining = [] ∨ room = 0 then ([], reader)
  else
    let rest := (reader.read room).2.fill (room - (reader.read room).1.length)
    ((reader.read room).1 ++ rest.1, rest.2)
termination_by reader.remaining.length
decreasing_by
  rename_i more
  rw [not_or] at more
  have some := List.length_pos_of_ne_nil more.1
  have positive := reader.hand_out_pos room more.2
  simp only [read, List.length_drop]
  omega

theorem fill_spec (room : Nat) (reader : ShortReader) :
    (reader.fill room).1 = reader.remaining.take room ∧ (reader.fill room).2.remaining = reader.remaining.drop room := by
  induction room, reader using ShortReader.fill.induct with
  | case1 room reader stop =>
      rw [fill, if_pos stop]
      rcases stop with none | none
      · simp [none]
      · simp [none]
  | case2 room reader more ih =>
      have short := reader.hand_out_le room
      rw [fill, if_neg more]
      dsimp only
      rw [ih.1, ih.2]
      simp only [read]
      constructor
      · rw [List.length_take]
        by_cases whole : reader.handOut room ≤ reader.remaining.length
        · rw [Nat.min_eq_left whole, ← List.take_add, Nat.add_sub_cancel' short]
        · rw [List.take_of_length_le (Nat.le_of_not_le whole), List.drop_of_length_le (Nat.le_of_not_le whole), List.take_nil,
            List.append_nil, List.take_of_length_le (by omega)]
      · rw [List.length_take, List.drop_drop]
        by_cases whole : reader.handOut room ≤ reader.remaining.length
        · rw [Nat.min_eq_left whole, Nat.add_sub_cancel' short]
        · rw [List.drop_of_length_le (by omega), List.drop_of_length_le (by omega)]

-- What the loop of the v3 ingestion sees: one filled buffer for each chunk.
def fills (size : Nat) (reader : ShortReader) : List Bytes :=
  if reader.remaining = [] ∨ size = 0 then [] else (reader.fill size).1 :: (reader.fill size).2.fills size
termination_by reader.remaining.length
decreasing_by
  rename_i more
  rw [not_or] at more
  have some := List.length_pos_of_ne_nil more.1
  rw [(fill_spec size reader).2, List.length_drop]
  omega

theorem fills_chunks (size : Nat) (reader : ShortReader) : reader.fills size = chunksOf size reader.remaining := by
  induction reader using ShortReader.fills.induct size with
  | case1 reader stop => rw [fills, if_pos stop, chunksOf, dif_pos stop]
  | case2 reader more ih =>
      rw [fills, if_neg more, ih, (fill_spec size reader).1, (fill_spec size reader).2]
      rw [not_or] at more
      exact (chunks_of_cons reader.remaining more.1 (Nat.pos_of_ne_zero more.2)).symm

theorem reads_spec (size : Nat) (positive : 0 < size) (reader : ShortReader) :
    (reader.reads size).flatten = reader.remaining ∧ ∀ piece ∈ reader.reads size, piece ≠ [] ∧ piece.length ≤ size := by
  induction reader using ShortReader.reads.induct size with
  | case1 reader stop =>
      rw [reads, if_pos stop]
      rcases stop with none | none
      · exact ⟨none.symm, List.forall_mem_nil _⟩
      · exact absurd none positive.ne'
  | case2 reader more ih =>
      rw [reads, if_neg more]
      rw [not_or] at more
      constructor
      · rw [List.flatten_cons, ih.1]
        exact List.take_append_drop _ _
      · refine List.forall_mem_cons.mpr ⟨⟨?_, ?_⟩, ih.2⟩
        · have some := reader.hand_out_pos size more.2
          rw [read, Ne, List.take_eq_nil_iff, not_or]
          exact ⟨some.ne', more.1⟩
        · rw [read, List.length_take]
          exact (Nat.min_le_left _ _).trans (reader.hand_out_le size)

-- Reads that fill the buffer as long as there is enough are the chunks.
theorem reads_chunks (size : Nat) (positive : 0 < size) (reader : ShortReader) (chunked : Chunked size (reader.reads size)) :
    reader.reads size = chunksOf size reader.remaining := by
  have unique := chunked_unique positive _ chunked
  rwa [(reads_spec size positive reader).1] at unique

end ShortReader

section Loop

variable (lib : Primitives)

-- What the ingestion keeps between two reads.
structure Ingestion where
  hashed : Bytes
  total : UInt64
  chunks : List ChunkDescriptorV4
  files : Files

def Ingestion.start (files : Files) : Ingestion := { hashed := [], total := 0, chunks := [], files := files }

-- The body of the loop for the bytes that one read has put into the buffer.
def ingestBuffer (ingestion : Ingestion) (bytes : Bytes) : Except String Ingestion := do
  ensure (ingestion.chunks.length < maxChunksPerContentV4) "content exceeds chunk limit"
  ensure (ingestion.total.toNat + bytes.length < 2 ^ 64) "content length overflow"
  ensure ((ingestion.total + UInt64.ofNat bytes.length).toNat ≤ maxLogicalContentBytesV4) "content exceeds size limit"
  let files ← installChunk lib ingestion.files bytes
  return { hashed := ingestion.hashed ++ bytes, total := ingestion.total + UInt64.ofNat bytes.length,
           chunks := ingestion.chunks ++ [describeChunk lib bytes], files := files }

def ingestLoop (size : Nat) (reader : ShortReader) (ingestion : Ingestion) : Except String Ingestion :=
  if reader.remaining = [] ∨ size = 0 then .ok ingestion
  else do
    let later ← ingestBuffer lib ingestion (reader.read size).1
    ingestLoop size (reader.read size).2 later
termination_by reader.remaining.length
decreasing_by
  rename_i more
  rw [not_or] at more
  have some := List.length_pos_of_ne_nil more.1
  have positive := reader.hand_out_pos size more.2
  simp only [ShortReader.read, List.length_drop]
  omega

def ingestChunkReader (size : ChunkSize) (files : Files) (reader : ShortReader) (mediaType : String) (logicalPath : Option String) :
    Except String (ContentRefV4 × Files) := do
  let ingestion ← ingestLoop lib size.bytes.toNat reader (Ingestion.start files)
  let manifest : ChunkManifestV4 :=
    { schemaVersion := 4, logicalSha256 := digestBytes lib ingestion.hashed, byteLength := ingestion.total,
      chunkSize := size.bytes, chunks := ingestion.chunks }
  manifest.validate
  storeManifest lib ingestion.files manifest mediaType logicalPath

theorem ingest_loop_reads (size : Nat) (reader : ShortReader) (ingestion : Ingestion) :
    ingestLoop lib size reader ingestion = (reader.reads size).foldlM (ingestBuffer lib) ingestion := by
  induction reader using ShortReader.reads.induct size generalizing ingestion with
  | case1 reader stop =>
      rw [ingestLoop, if_pos stop, ShortReader.reads, if_pos stop]
      rfl
  | case2 reader more ih =>
      rw [ingestLoop, if_neg more, ShortReader.reads, if_neg more, List.foldlM_cons]
      exact bind_congr ih

-- The state after the pieces read so far.
def Ingestion.after (pieces : List Bytes) (files : Files) : Ingestion :=
  { hashed := pieces.flatten, total := UInt64.ofNat pieces.flatten.length, chunks := pieces.map (describeChunk lib), files := files }

theorem ingest_buffer_iff (before : List Bytes) (bytes : Bytes) (files : Files) (next : Ingestion)
    (short : (before ++ [bytes]).flatten.length ≤ maxLogicalContentBytesV4) :
    ingestBuffer lib (Ingestion.after lib before files) bytes = .ok next ↔ before.length < maxChunksPerContentV4 ∧
      ∃ later, installChunk lib files bytes = .ok later ∧ next = Ingestion.after lib (before ++ [bytes]) later := by
  have limit : maxLogicalContentBytesV4 < 2 ^ 64 := by decide
  rw [List.flatten_append, List.length_append, List.flatten_singleton] at short
  have total : (UInt64.ofNat before.flatten.length).toNat = before.flatten.length :=
    UInt64.toNat_ofNat_of_lt' (show _ < 2 ^ 64 by omega)
  have sum : UInt64.ofNat before.flatten.length + UInt64.ofNat bytes.length = UInt64.ofNat (before.flatten.length + bytes.length) :=
    (UInt64.ofNat_add _ _).symm
  have within : (UInt64.ofNat (before.flatten.length + bytes.length)).toNat ≤ maxLogicalContentBytesV4 := by
    rw [UInt64.toNat_ofNat_of_lt' (show _ < 2 ^ 64 by omega)]
    exact short
  simp only [ingestBuffer, Ingestion.after, bind_ok, ensure_ok, pure_ok, List.length_map, total, sum, within, exists_const, true_and,
    List.map_append, List.map_cons, List.map_nil, List.flatten_append, List.flatten_singleton, List.length_append]
  constructor
  · rintro ⟨few, _, later, installed, rfl⟩
    exact ⟨few, later, installed, rfl⟩
  · rintro ⟨few, later, installed, rfl⟩
    exact ⟨few, by omega, later, installed, rfl⟩

theorem ingest_pieces_iff (pieces before : List Bytes) (files : Files) (last : Ingestion)
    (short : (before ++ pieces).flatten.length ≤ maxLogicalContentBytesV4) :
    pieces.foldlM (ingestBuffer lib) (Ingestion.after lib before files) = .ok last ↔
      (pieces ≠ [] → (before ++ pieces).length ≤ maxChunksPerContentV4) ∧
        ∃ later, pieces.foldlM (installChunk lib) files = .ok later ∧ last = Ingestion.after lib (before ++ pieces) later := by
  induction pieces generalizing before files with
  | nil =>
      simp only [List.foldlM_nil, pure_ok, List.append_nil, ne_eq, not_true_eq_false, false_implies, true_and, exists_eq_left']
      exact eq_comm
  | cons piece rest ih =>
      have whole : before ++ piece :: rest = before ++ [piece] ++ rest := by rw [List.append_assoc, List.singleton_append]
      rw [whole] at short ⊢
      have step := fun next => ingest_buffer_iff lib before piece files next (by
        rw [List.flatten_append, List.length_append] at short
        omega)
      simp only [List.foldlM_cons, bind_ok, step]
      constructor
      · rintro ⟨_, ⟨few, mid, installed, rfl⟩, run⟩
        obtain ⟨fits, later, stored, same⟩ := (ih (before ++ [piece]) mid short).mp run
        refine ⟨fun _ => ?_, later, ⟨mid, installed, stored⟩, same⟩
        by_cases none : rest = []
        · rw [none, List.append_nil, List.length_append, List.length_singleton]
          exact few
        · exact fits none
      · rintro ⟨fits, later, ⟨mid, installed, stored⟩, same⟩
        have few := fits (List.cons_ne_nil _ _)
        refine ⟨_, ⟨?_, mid, installed, rfl⟩, (ih (before ++ [piece]) mid short).mpr ⟨fun _ => few, later, stored, same⟩⟩
        rw [List.length_append, List.length_append, List.length_singleton] at few
        omega

theorem limit_bytes (size : ChunkSize) (bytes : Bytes) (fits : bytes.length ≤ maxChunksPerContentV4 * size.bytes.toNat) :
    bytes.length ≤ maxLogicalContentBytesV4 := by
  have bound := Nat.mul_le_mul_left maxChunksPerContentV4 size.bound
  have limits : maxChunksPerContentV4 * 4194304 = maxLogicalContentBytesV4 := by decide
  omega

theorem ingest_ok_iff (size : ChunkSize) (files : Files) (reader : ShortReader)
    (fits : reader.remaining.length ≤ maxChunksPerContentV4 * size.bytes.toNat) (mediaType : String) (logicalPath : Option String)
    (result : ContentRefV4 × Files) :
    ingestChunkReader lib size files reader mediaType logicalPath = .ok result ↔
      Chunked size.bytes.toNat (reader.reads size.bytes.toNat) ∧
        ∃ mid, (reader.reads size.bytes.toNat).foldlM (installChunk lib) files = .ok mid ∧
          storeManifest lib mid (piecesManifest lib size (reader.reads size.bytes.toNat)) mediaType logicalPath = .ok result := by
  obtain ⟨whole, short⟩ := reader.reads_spec size.bytes.toNat size.pos
  have bound := limit_bytes size _ fits
  have limit : maxLogicalContentBytesV4 < 2 ^ 64 := by decide
  have run := fun last => ingest_pieces_iff lib (reader.reads size.bytes.toNat) [] files last (by
    rw [List.nil_append, whole]
    exact bound)
  rw [List.nil_append] at run
  have manifest := validate_manifest_iff lib size (reader.reads size.bytes.toNat) (fun piece member => (short piece member).2) (by
    rw [whole]
    omega)
  rw [ingestChunkReader, ingest_loop_reads]
  constructor
  · intro ok
    simp only [bind_ok] at ok
    obtain ⟨last, loop, _, valid, stored⟩ := ok
    obtain ⟨_, mid, installed, rfl⟩ := (run last).mp loop
    exact ⟨manifest.mp valid, mid, installed, stored⟩
  · rintro ⟨chunked, mid, installed, stored⟩
    have few := chunked_count _ chunked maxChunksPerContentV4 (by
      rw [whole]
      exact fits)
    have loop := (run _).mpr ⟨fun _ => few, mid, installed, rfl⟩
    exact (bind_ok _ _ _).mpr ⟨_, loop, (bind_ok _ _ _).mpr ⟨(), manifest.mpr chunked, stored⟩⟩

-- What the ingestion owes: reference, manifest and stored bytes are those of the
-- data's own chunks, whatever the reader did.
structure Ingests (serde : Decoders) (size : ChunkSize) (files : Files) (reader : ShortReader) (mediaType : String)
    (logicalPath : Option String) (content : ContentRefV4) (later : Files) : Prop where
  run : ingestChunkReader lib size files reader mediaType logicalPath = .ok (content, later)
  reference : content = chunkedContent lib size (chunksOf size.bytes.toNat reader.remaining) mediaType logicalPath
  manifest : readJson lib serde.manifest later .chunkManifest
    (digestBytes lib (manifestText lib size (chunksOf size.bytes.toNat reader.remaining))) =
      .ok (piecesManifest lib size (chunksOf size.bytes.toNat reader.remaining))
  valid : (piecesManifest lib size (chunksOf size.bytes.toNat reader.remaining)).validate = .ok ()
  bytes : materializeContent lib serde later content = .ok reader.remaining

-- A chunk is what one read call returned, so the data comes back exactly when every
-- read but the last filled the buffer. The v3 loop fills it before it cuts.
theorem ingest_short_reads_iff (serde : Decoders) (decodes : ReadsManifests lib serde) (size : ChunkSize) (files : Files)
    (reader : ShortReader) (fits : reader.remaining.length ≤ maxChunksPerContentV4 * size.bytes.toNat) (mediaType : String)
    (logicalPath : Option String) :
    ((∃ content later, Ingests lib serde size files reader mediaType logicalPath content later) ↔
      Chunked size.bytes.toNat (reader.reads size.bytes.toNat) ∧
        Storable lib files (chunksOf size.bytes.toNat reader.remaining) ∧
        Free lib files .chunkManifest (manifestText lib size (chunksOf size.bytes.toNat reader.remaining))) ∧
      reader.fills size.bytes.toNat = chunksOf size.bytes.toNat reader.remaining := by
  refine ⟨?_, reader.fills_chunks size.bytes.toNat⟩
  have chunks := chunks_chunked size.pos reader.remaining
  have whole := chunks_flatten size.pos reader.remaining
  have small : ∀ piece ∈ chunksOf size.bytes.toNat reader.remaining, piece.length ≤ size.bytes.toNat := fun piece member =>
    (chunked_mem _ chunks piece member).2
  have few : (chunksOf size.bytes.toNat reader.remaining).length ≤ maxChunksPerContentV4 := chunked_count _ chunks _ (by
    rw [whole]
    exact fits)
  have stores := stored_pieces_iff lib size _ small few files mediaType logicalPath
  constructor
  · rintro ⟨content, later, ingests⟩
    obtain ⟨chunked, mid, installed, stored⟩ := (ingest_ok_iff lib size files reader fits mediaType logicalPath _).mp ingests.run
    rw [reader.reads_chunks size.bytes.toNat size.pos chunked] at installed stored
    exact ⟨chunked, stores.mp ⟨mid, installed, _, stored⟩⟩
  · rintro ⟨chunked, storable⟩
    obtain ⟨mid, installed, ⟨content, later⟩, stored⟩ := stores.mpr storable
    have same := reader.reads_chunks size.bytes.toNat size.pos chunked
    have run : ingestChunkReader lib size files reader mediaType logicalPath = .ok (content, later) := by
      rw [ingest_ok_iff lib size files reader fits, same]
      exact ⟨chunks, mid, installed, stored⟩
    obtain ⟨rfl, kept, read⟩ := store_manifest_ok lib size _ mid later content mediaType logicalPath stored
    have limit : maxLogicalContentBytesV4 < 2 ^ 64 := by decide
    have valid := (validate_manifest_iff lib size _ small (by
      rw [whole]
      exact Nat.lt_of_le_of_lt (limit_bytes size _ fits) limit)).mpr chunks
    have held := (installed_chunks lib _ files mid installed).2.1
    have bytes := materialize_stored lib serde decodes size _ mediaType logicalPath valid later read fun piece member =>
      kept _ _ (held piece member)
    rw [whole] at bytes
    exact ⟨_, later, run, rfl, (read_json_ok lib _ _ _ _ _).mpr ⟨_, read, decodes _⟩, valid, bytes⟩

end Loop

namespace IngestSample

def twoBytes : ChunkSize := ⟨2, by decide, by decide⟩

-- A reader that hands out one byte in its first call, over two bytes of data.
def hesitant : ShortReader := ⟨[1, 2], [1]⟩

def prompt : ShortReader := ⟨[1, 2], []⟩

theorem hesitant_reads : hesitant.reads 2 = [[1], [2]] := by
  simp [hesitant, ShortReader.reads, ShortReader.read, ShortReader.handOut]

-- Its last chunk is shorter than the others.
def steady : ShortReader := ⟨[1, 2, 3], []⟩

theorem steady_reads : steady.reads 2 = [[1, 2], [3]] := by
  simp [steady, ShortReader.reads, ShortReader.read, ShortReader.handOut]

theorem chunks_apart : digestBytes sampleLib [1, 2] ≠ digestBytes sampleLib [3] := by decide +kernel

theorem ingest_short_reads_steady : ∃ content later,
    Ingests sampleLib (manifestDecoders sampleLib) twoBytes ∅ steady "application/jsonl" none content later := by
  have decodes := manifest_decoders_read sampleLib sample_floats
  refine (ingest_short_reads_iff sampleLib _ decodes twoBytes ∅ steady (by decide) "application/jsonl" none).1.mpr ⟨?_, ⟨?_, ?_⟩, ?_⟩
  · rw [show twoBytes.bytes.toNat = 2 from rfl, steady_reads]
    exact ⟨rfl, List.cons_ne_nil _ _, List.cons_ne_nil _ _, by decide⟩
  · intro piece member held stored
    simp at stored
  · have pair : chunksOf 2 steady.remaining = [[1, 2], [3]] := by
      simp [steady, chunksOf]
    rw [show twoBytes.bytes.toNat = 2 from rfl, pair]
    intro one first other second same
    simp only [List.mem_cons, List.not_mem_nil, or_false] at first second
    rcases first with rfl | rfl <;> rcases second with rfl | rfl
    · rfl
    · exact absurd same chunks_apart
    · exact absurd same.symm chunks_apart
    · rfl
  · intro held stored
    simp at stored

theorem short_read_rejected :
    ingestChunkReader sampleLib twoBytes ∅ hesitant "application/jsonl" none = .error "non-final chunk has an invalid length" ∧
      hesitant.remaining = prompt.remaining ∧
      ¬ ∃ content later, Ingests sampleLib
        (manifestDecoders sampleLib) twoBytes ∅ hesitant "application/jsonl" none content later := by
  have rejected : ingestChunkReader sampleLib twoBytes ∅ hesitant "application/jsonl" none =
      .error "non-final chunk has an invalid length" := by
    rw [ingestChunkReader, ingest_loop_reads, show twoBytes.bytes.toNat = 2 from rfl, hesitant_reads]
    decide +kernel
  refine ⟨rejected, rfl, ?_⟩
  rintro ⟨content, later, ingests⟩
  exact error_ne_ok _ _ (rejected.symm.trans ingests.run)

end IngestSample

end SessionSync.Storage
