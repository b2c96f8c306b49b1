import SessionSync.Storage.Chunking
import SessionSync.Rollout.RoundTrip

set_option autoImplicit false

namespace SessionSync.Storage

open SessionSync.Core Checked Lib Rollout

variable (lib : Primitives) (reader : Reader)

-- The sink installs each chunk when it is emitted. A run that fails returns no
-- reference, so only which of two errors comes first is lost by installing at the end.
def normalizeAndIngestRollout (size : ChunkSize) (files : Files) (source : Bytes) (threadId mediaType : String)
    (logicalPath : Option String) : Except String ((ContentRefV4 × List NormalizationWarningV4) × Files) := do
  let (result, sunk) ← normalizeRolloutReader lib reader threadId size.bytes.toNat source
  let files ← sunk.foldlM (installChunk lib) files
  let manifest : ChunkManifestV4 :=
    { schemaVersion := 4, logicalSha256 := result.logicalSha256, byteLength := result.byteLength, chunkSize := size.bytes,
      chunks := result.chunks }
  let (content, files) ← storeManifest lib files manifest mediaType logicalPath
  return ((content, result.warnings), files)

-- What is written for the lines of a rollout, with no thread and no chunk size in it.
def normalizedStream (source : Bytes) : Bytes :=
  match splitAfter newline source with
  | [] => []
  | head :: rest => normalizedOutput lib reader head rest

variable {chunkSize : Nat}

theorem emit_byte_count (state next : Emission chunkSize) (byte : UInt8) (few : state.chunks.length ≤ maxChunksPerContentV4)
    (run : emitByte lib state byte = .ok next) : next.chunks.length ≤ maxChunksPerContentV4 := by
  unfold emitByte at run
  dsimp only at run
  by_cases partly : (state.pending ++ [byte]).length < chunkSize
  · rw [dif_pos partly, Except.ok.injEq] at run
    rw [← run]
    exact few
  · rw [dif_neg partly] at run
    simp only [bind_ok, pure_ok] at run
    obtain ⟨emitted, chunk, rfl⟩ := run
    obtain ⟨room, _, rfl⟩ := emit_chunk_ok lib _ state emitted chunk
    rw [Emission.cleared, List.length_append, List.length_singleton]
    exact room

theorem emit_bytes_count (bytes : Bytes) (state next : Emission chunkSize) (few : state.chunks.length ≤ maxChunksPerContentV4)
    (run : emitBytes lib bytes state = .ok next) : next.chunks.length ≤ maxChunksPerContentV4 := by
  rw [emit_bytes_fold] at run
  induction bytes generalizing state with
  | nil =>
      cases run
      exact few
  | cons byte rest ih =>
      rw [List.foldlM_cons, bind_ok] at run
      obtain ⟨middle, first, later⟩ := run
      exact ih middle (emit_byte_count lib state middle byte few first) later

-- A closed emission: the chunks are a cut of the output and everything is counted.
structure Sealed (closed : Emission chunkSize) : Prop where
  chunked : Chunked chunkSize closed.sunk
  total : closed.total.toNat = closed.sunk.flatten.length
  chunks : closed.chunks = closed.sunk.map (describeChunk lib)
  few : closed.chunks.length ≤ maxChunksPerContentV4

theorem flush_sealed (positive : 0 < chunkSize) (state closed : Emission chunkSize) (counted : Counted lib state)
    (few : state.chunks.length ≤ maxChunksPerContentV4) (run : state.flush lib = .ok closed) : Sealed lib closed := by
  have full : ∀ piece ∈ state.sunk, piece.length = chunkSize ∧ piece ≠ [] := by
    intro piece member
    have length := counted.full piece member
    exact ⟨length, List.ne_nil_of_length_pos (length ▸ positive)⟩
  unfold Emission.flush at run
  by_cases empty : state.pending = []
  · rw [if_pos empty, Except.ok.injEq] at run
    rw [← run]
    have chunked := chunked_append state.sunk [] full trivial
    rw [List.append_nil] at chunked
    exact ⟨chunked, counted.total, counted.chunks, few⟩
  · rw [if_neg empty] at run
    have room := state.room
    obtain ⟨more, short, rfl⟩ := emit_chunk_ok lib _ state closed run
    refine ⟨chunked_append state.sunk _ full ⟨empty, room.le⟩, ?_, ?_, ?_⟩
    · have length : (UInt64.ofNat state.pending.length).toNat = state.pending.length :=
        UInt64.toNat_ofNat_of_lt' (show _ < 2 ^ 64 by omega)
      rw [UInt64.toNat_add, length, Nat.mod_eq_of_lt short, List.flatten_append, List.length_append, List.flatten_singleton,
        counted.total]
    · simp only [counted.chunks, List.map_append]
      rfl
    · rw [List.length_append, List.length_singleton]
      exact more

theorem seal_sealed (positive : 0 < chunkSize) (output : Bytes) (closed : Emission chunkSize)
    (run : sealOutput lib chunkSize positive output = .ok closed) : Sealed lib closed := by
  simp only [sealOutput, Emission.close, bind_ok, ensure_ok, pure_ok] at run
  obtain ⟨emission, written, flushed, last, _, _, rfl⟩ := run
  have counted := (emit_bytes_ok lib output _ emission (start_counted lib positive) written).1
  exact flush_sealed lib positive emission flushed counted (emit_bytes_count lib output _ emission (Nat.zero_le _) written) last

-- What one chunk size makes of a rollout, told by the stream and the size alone.
structure Cut (size : ChunkSize) (stream : Bytes) (result : NormalizedRolloutV4) (sunk : List Bytes) : Prop where
  written : sunk.flatten = stream
  chunked : Chunked size.bytes.toNat sunk
  hash : result.logicalSha256 = digestBytes lib stream
  length : result.byteLength.toNat = stream.length
  chunks : result.chunks = sunk.map (describeChunk lib)
  fits : stream.length ≤ maxChunksPerContentV4 * size.bytes.toNat

theorem normalize_seals (size : ChunkSize) (source : Bytes) (threadId : String) (result : NormalizedRolloutV4) (sunk : List Bytes)
    (run : normalizeRolloutReader lib reader threadId size.bytes.toNat source = .ok (result, sunk)) :
    ∃ closed warnings, sealOutput lib size.bytes.toNat size.pos (normalizedStream lib reader source) = .ok closed ∧
      result = closed.rollout lib warnings ∧ sunk = closed.sunk := by
  obtain ⟨head, rest, accepts⟩ := normalize_accepts lib reader threadId size.pos source _ run
  obtain ⟨warnings, ran⟩ := normalize_run lib reader threadId size.pos source head rest accepts
  rw [run] at ran
  have stream : normalizedStream lib reader source = normalizedOutput lib reader head rest := by
    rw [normalizedStream, accepts.lines]
  cases closing : sealOutput lib size.bytes.toNat size.pos (normalizedOutput lib reader head rest) with
  | error reason =>
      rw [closing] at ran
      cases ran
  | ok closed =>
      rw [closing] at ran
      cases ran
      exact ⟨closed, warnings, by rw [stream, closing], rfl, rfl⟩

theorem normalize_cut (size : ChunkSize) (source : Bytes) (threadId : String) (result : NormalizedRolloutV4) (sunk : List Bytes)
    (run : normalizeRolloutReader lib reader threadId size.bytes.toNat source = .ok (result, sunk)) :
    Cut lib size (normalizedStream lib reader source) result sunk := by
  obtain ⟨closed, warnings, closing, rfl, rfl⟩ := normalize_seals lib reader size source threadId result sunk run
  have written := seal_written lib size.pos _ closed closing
  obtain ⟨chunked, total, chunks, few⟩ := seal_sealed lib size.pos _ closed closing
  refine ⟨written, chunked, by rw [Emission.rollout, written], by rw [Emission.rollout, total, written], chunks, ?_⟩
  rw [chunks, List.length_map] at few
  have bound := chunked_fits closed.sunk chunked
  rw [written] at bound
  exact bound.trans (Nat.mul_le_mul_right _ few)

-- A rollout with a first record is taken at every size that its chunks are few enough for.
theorem normalize_takes (size : ChunkSize) (source : Bytes) (threadId : String) (head : Bytes) (rest : List Bytes)
    (accepts : Accepts reader threadId source head rest)
    (fits : (normalizedStream lib reader source).length ≤ maxChunksPerContentV4 * size.bytes.toNat) :
    ∃ result, normalizeRolloutReader lib reader threadId size.bytes.toNat source = .ok result := by
  have bound := Nat.mul_le_mul_left maxChunksPerContentV4 size.bound
  have limits : maxChunksPerContentV4 * 4194304 = maxLogicalContentBytesV4 := by decide
  obtain ⟨warnings, ran⟩ := normalize_run lib reader threadId size.pos source head rest accepts
  have stream : normalizedStream lib reader source = normalizedOutput lib reader head rest := by
    rw [normalizedStream, accepts.lines]
  rw [stream] at fits
  obtain ⟨closed, closing⟩ := seal_accepts lib size.pos _ fits (by omega)
  rw [closing] at ran
  exact ⟨_, ran⟩

theorem accepted_elsewhere (size other : ChunkSize) (source : Bytes) (threadId : String) (result : NormalizedRolloutV4)
    (sunk : List Bytes) (run : normalizeRolloutReader lib reader threadId size.bytes.toNat source = .ok (result, sunk)) :
    (∃ again, normalizeRolloutReader lib reader threadId other.bytes.toNat source = .ok again) ↔
      (normalizedStream lib reader source).length ≤ maxChunksPerContentV4 * other.bytes.toNat := by
  constructor
  · rintro ⟨⟨again, pieces⟩, rerun⟩
    exact (normalize_cut lib reader other source threadId again pieces rerun).fits
  · intro fits
    obtain ⟨head, rest, accepts⟩ := normalize_accepts lib reader threadId size.pos source _ run
    exact normalize_takes lib reader other source threadId head rest accepts fits

theorem cut_unique (size : ChunkSize) (stream : Bytes) (result : NormalizedRolloutV4) (sunk : List Bytes)
    (cut : Cut lib size stream result sunk) : sunk = chunksOf size.bytes.toNat stream := by
  have unique := chunked_unique size.pos sunk cut.chunked
  rwa [cut.written] at unique

-- The manifest that is written is the one of the pieces, and it passes its own validation.
theorem cut_manifest (size : ChunkSize) (stream : Bytes) (result : NormalizedRolloutV4) (sunk : List Bytes)
    (cut : Cut lib size stream result sunk) :
    ({ schemaVersion := 4, logicalSha256 := result.logicalSha256, byteLength := result.byteLength, chunkSize := size.bytes,
       chunks := result.chunks } : ChunkManifestV4) = piecesManifest lib size sunk ∧
      (piecesManifest lib size sunk).validate = .ok () := by
  have short : sunk.flatten.length < 2 ^ 64 := by
    rw [cut.written, ← cut.length]
    exact result.byteLength.toNat_lt
  have length : result.byteLength = UInt64.ofNat sunk.flatten.length := by
    rw [← UInt64.toNat_inj, UInt64.toNat_ofNat_of_lt' short, cut.length, cut.written]
  constructor
  · rw [cut.hash, cut.chunks, length, ← cut.written]
    rfl
  · exact (validate_manifest_iff lib size sunk (fun piece member => (chunked_mem _ cut.chunked piece member).2) short).mpr cut.chunked

theorem rollout_ingest_iff (size : ChunkSize) (files : Files) (source : Bytes) (threadId mediaType : String)
    (logicalPath : Option String) (result : NormalizedRolloutV4) (sunk : List Bytes)
    (run : normalizeRolloutReader lib reader threadId size.bytes.toNat source = .ok (result, sunk))
    (content : ContentRefV4) (warnings : List NormalizationWarningV4) (later : Files) :
    normalizeAndIngestRollout lib reader size files source threadId mediaType logicalPath = .ok ((content, warnings), later) ↔
      (∃ mid, sunk.foldlM (installChunk lib) files = .ok mid ∧
        storeManifest lib mid (piecesManifest lib size sunk) mediaType logicalPath = .ok (content, later)) ∧
      warnings = result.warnings := by
  have same := (cut_manifest lib size _ result sunk (normalize_cut lib reader size source threadId result sunk run)).1
  simp only [normalizeAndIngestRollout, run, bind_ok, pure_ok, Except.ok.injEq, exists_eq_left', same, Prod.exists, Prod.mk.injEq]
  constructor
  · rintro ⟨mid, installed, _, _, stored, ⟨rfl, rfl⟩, rfl⟩
    exact ⟨⟨mid, installed, stored⟩, rfl⟩
  · rintro ⟨⟨mid, installed, stored⟩, rfl⟩
    exact ⟨mid, installed, content, later, stored, ⟨rfl, rfl⟩, rfl⟩

-- The chunks of an accepted rollout are the fixed-size cut of its normalised stream, and
-- what is stored for them gives the stream back.
theorem normalize_and_ingest_exact (serde : Decoders) (decodes : ReadsManifests lib serde) (size : ChunkSize) (files : Files)
    (source : Bytes) (threadId mediaType : String) (logicalPath : Option String) (result : NormalizedRolloutV4) (sunk : List Bytes)
    (run : normalizeRolloutReader lib reader threadId size.bytes.toNat source = .ok (result, sunk)) :
    Cut lib size (normalizedStream lib reader source) result sunk ∧
      sunk = chunksOf size.bytes.toNat (normalizedStream lib reader source) ∧
      (piecesManifest lib size sunk).validate = .ok () ∧
      (∀ content warnings later,
        normalizeAndIngestRollout lib reader size files source threadId mediaType logicalPath = .ok ((content, warnings), later) →
          content = chunkedContent lib size sunk mediaType logicalPath ∧
          readJson lib serde.manifest later .chunkManifest (digestBytes lib (manifestText lib size sunk)) =
            .ok (piecesManifest lib size sunk) ∧
          materializeContent lib serde later content = .ok (normalizedStream lib reader source)) ∧
      ((∃ ingested, normalizeAndIngestRollout lib reader size files source threadId mediaType logicalPath = .ok ingested) ↔
        Storable lib files sunk ∧ Free lib files .chunkManifest (manifestText lib size sunk)) ∧
      ∀ other : ChunkSize, (∃ again, normalizeRolloutReader lib reader threadId other.bytes.toNat source = .ok again) ↔
        (normalizedStream lib reader source).length ≤ maxChunksPerContentV4 * other.bytes.toNat := by
  have cut := normalize_cut lib reader size source threadId result sunk run
  have valid := (cut_manifest lib size _ result sunk cut).2
  have few : sunk.length ≤ maxChunksPerContentV4 := chunked_count sunk cut.chunked _ (by
    rw [cut.written]
    exact cut.fits)
  have ingested := rollout_ingest_iff lib reader size files source threadId mediaType logicalPath result sunk run
  refine ⟨cut, cut_unique lib size _ result sunk cut, valid, fun content warnings later ok => ?_, ⟨?_, ?_⟩,
    fun other => accepted_elsewhere lib reader size other source threadId result sunk run⟩
  · obtain ⟨⟨mid, installed, stored⟩, _⟩ := (ingested content warnings later).mp ok
    obtain ⟨rfl, kept, read⟩ := store_manifest_ok lib size sunk mid later content mediaType logicalPath stored
    have held := (installed_chunks lib sunk files mid installed).2.1
    have bytes := materialize_stored lib serde decodes size sunk mediaType logicalPath valid later read fun piece member =>
      kept _ _ (held piece member)
    rw [cut.written] at bytes
    exact ⟨rfl, (read_json_ok lib _ _ _ _ _).mpr ⟨_, read, decodes _⟩, bytes⟩
  · rintro ⟨⟨⟨content, warnings⟩, later⟩, ok⟩
    obtain ⟨⟨mid, installed, stored⟩, _⟩ := (ingested content warnings later).mp ok
    exact (stored_pieces_iff lib size sunk (fun piece member => (chunked_mem sunk cut.chunked piece member).2) few files mediaType
      logicalPath).mp ⟨mid, installed, _, stored⟩
  · intro storable
    obtain ⟨mid, installed, ⟨content, later⟩, stored⟩ := (stored_pieces_iff lib size sunk
      (fun piece member => (chunked_mem sunk cut.chunked piece member).2) few files mediaType logicalPath).mpr storable
    exact ⟨_, (ingested content result.warnings later).mpr ⟨⟨mid, installed, stored⟩, rfl⟩⟩

def wholeChunks : ChunkSize := ⟨chunkSizeV4, by decide, by decide⟩

namespace RolloutSample

def smallChunks : ChunkSize := ⟨128, by decide, by decide⟩

def stampedLine : Bytes := recordLine (stampPayload (some workspaceTokenV4) providerTokenV4 shortPayload) ++ [newline]

theorem sample_stream : normalizedStream sampleLib sampleReader (sampleRollout shortPayload) = stampedLine := by
  obtain ⟨body, closed⟩ := sample_closed shortPayload
  have ending : (splitLineEnding (sampleRollout shortPayload)).2 = [newline] := by
    rw [sampleRollout, closed, newline, split_closed body [10] (Or.inr (Or.inl rfl))]
  rw [normalizedStream, sample_lines shortPayload short_opens.formed]
  simp only [normalizedOutput, List.map_nil, List.flatten_nil, List.append_nil]
  rw [head_normalized "thread" _ (sample_first shortPayload short_opens),
    stamp_line_some sampleLib _ providerTokenV4 _ _ _ (record_rollout shortPayload short_opens.formed), ending, sample_stamp]
  rfl

theorem stamped_length : 128 < stampedLine.length ∧ stampedLine.length ≤ 256 := by decide +kernel

theorem two_chunks : chunksOf 128 stampedLine = [stampedLine.take 128, stampedLine.drop 128] := by
  obtain ⟨long, short⟩ := stamped_length
  have rest : stampedLine.drop 128 ≠ [] := fun none => absurd (List.drop_eq_nil_iff.mp none) (by omega)
  have whole : stampedLine ≠ [] := fun none => absurd long (by rw [none]; decide)
  have small : (stampedLine.drop 128).length ≤ 128 := by
    rw [List.length_drop]
    omega
  rw [chunks_of_cons stampedLine whole (by decide), chunks_of_cons _ rest (by decide), List.take_of_length_le small,
    List.drop_of_length_le small, chunks_of_nil]

theorem chunks_apart : digestBytes sampleLib (stampedLine.take 128) ≠ digestBytes sampleLib (stampedLine.drop 128) :=
  by decide +kernel

theorem two_storable : Storable sampleLib ∅ (chunksOf 128 stampedLine) := by
  refine ⟨fun piece _ held stored => ?_, fun one first other second same => ?_⟩
  · rw [Std.ExtTreeMap.getElem?_empty] at stored
    cases stored
  · rw [two_chunks] at first second
    simp only [List.mem_cons, List.not_mem_nil, or_false] at first second
    rcases first with rfl | rfl <;> rcases second with rfl | rfl
    · rfl
    · exact absurd same chunks_apart
    · exact absurd same.symm chunks_apart
    · rfl

end RolloutSample

open RolloutSample in
theorem normalize_and_ingest_sample : ∃ result sunk content warnings later,
    normalizeRolloutReader sampleLib sampleReader "thread" smallChunks.bytes.toNat (sampleRollout shortPayload) = .ok (result, sunk) ∧
      sunk.length = 2 ∧ Cut sampleLib smallChunks (normalizedStream sampleLib sampleReader (sampleRollout shortPayload)) result sunk ∧
      normalizeAndIngestRollout sampleLib sampleReader smallChunks ∅ (sampleRollout shortPayload) "thread" "application/jsonl" none =
        .ok ((content, warnings), later) ∧
      materializeContent sampleLib (manifestDecoders sampleLib) later content =
        .ok (normalizedStream sampleLib sampleReader (sampleRollout shortPayload)) := by
  obtain ⟨normalized, whole⟩ := sample_normalizes shortPayload short_opens
  simp only [normalizeRolloutBytes, bind_ok, pure_ok] at whole
  obtain ⟨⟨wide, one⟩, ran, _⟩ := whole
  have decodes := manifest_decoders_read sampleLib sample_floats
  have elsewhere := (normalize_and_ingest_exact sampleLib sampleReader (manifestDecoders sampleLib) decodes wholeChunks ∅
    (sampleRollout shortPayload) "thread" "application/jsonl" none wide one ran).2.2.2.2.2
  have fits : stampedLine.length ≤ maxChunksPerContentV4 * smallChunks.bytes.toNat := stamped_length.2.trans (by decide)
  rw [sample_stream] at elsewhere
  obtain ⟨⟨result, sunk⟩, run⟩ := (elsewhere smallChunks).mpr fits
  obtain ⟨cut, same, _, returns, accepts, _⟩ := normalize_and_ingest_exact sampleLib sampleReader (manifestDecoders sampleLib) decodes
    smallChunks ∅ (sampleRollout shortPayload) "thread" "application/jsonl" none result sunk run
  rw [sample_stream] at same
  obtain ⟨⟨⟨content, warnings⟩, later⟩, ok⟩ := accepts.mpr ⟨same ▸ two_storable, by
    intro held stored
    rw [Std.ExtTreeMap.getElem?_empty] at stored
    cases stored⟩
  exact ⟨result, sunk, content, warnings, later, run, by rw [same]; exact congrArg List.length two_chunks, cut, ok,
    (returns content warnings later ok).2.2⟩

end SessionSync.Storage
