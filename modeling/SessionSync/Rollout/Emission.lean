import SessionSync.Storage.Objects

set_option autoImplicit false

namespace SessionSync.Rollout

open SessionSync.Core Checked Storage

variable (lib : Primitives)

def maxChunksPerContentV4 : Nat := 16384

def maxLogicalContentBytesV4 : Nat := 64 * 1024 * 1024 * 1024

-- What the normaliser keeps between two writes. The hasher has read the chunks the
-- sink was given, and the buffer is never left full.
structure Emission (chunkSize : Nat) where
  pending : Bytes
  sunk : List Bytes
  total : UInt64
  chunks : List ChunkDescriptorV4
  room : pending.length < chunkSize

variable {chunkSize : Nat}

def Emission.start (positive : 0 < chunkSize) : Emission chunkSize :=
  { pending := [], sunk := [], total := 0, chunks := [], room := positive }

-- The hasher, the length, the list of chunks and the sink each take one more chunk.
def emitChunk (bytes : Bytes) (state : Emission chunkSize) : Except String (Emission chunkSize) := do
  ensure (state.chunks.length < maxChunksPerContentV4) "normalized rollout exceeds chunk limit"
  ensure (state.total.toNat + bytes.length < 2 ^ 64) "normalized rollout length overflow"
  return { state with
    total := state.total + UInt64.ofNat bytes.length
    chunks := state.chunks ++ [{ sha256 := digestBytes lib bytes, byteLength := UInt64.ofNat bytes.length }]
    sunk := state.sunk ++ [bytes] }

def Emission.cleared (state : Emission chunkSize) : Emission chunkSize :=
  { state with pending := [], room := Nat.zero_lt_of_lt state.room }

def emitBytes (bytes : Bytes) (state : Emission chunkSize) : Except String (Emission chunkSize) :=
  match bytes with
  | [] => .ok state
  | byte :: rest =>
      let bytes := byte :: rest
      let take := min (chunkSize - state.pending.length) bytes.length
      let pending := state.pending ++ bytes.take take
      if partly : pending.length < chunkSize then
        emitBytes (bytes.drop take) { state with pending := pending, room := partly }
      else do
        let emitted ← emitChunk lib pending state
        emitBytes (bytes.drop take) emitted.cleared
termination_by bytes.length
decreasing_by
  all_goals
    have room := state.room
    simp only [List.length_drop, List.length_cons]
    omega

-- The same buffer filled one byte at a time.
def emitByte (state : Emission chunkSize) (byte : UInt8) : Except String (Emission chunkSize) :=
  let pending := state.pending ++ [byte]
  if partly : pending.length < chunkSize then .ok { state with pending := pending, room := partly }
  else do
    let emitted ← emitChunk lib pending state
    return emitted.cleared

theorem emit_bytes_nil (state : Emission chunkSize) : emitBytes lib [] state = .ok state := by rw [emitBytes]

theorem emit_bytes_partly (byte : UInt8) (rest : Bytes) (state : Emission chunkSize) (taken : Nat)
    (take : min (chunkSize - state.pending.length) (byte :: rest).length = taken)
    (partly : (state.pending ++ (byte :: rest).take taken).length < chunkSize) :
    emitBytes lib (byte :: rest) state = emitBytes lib ((byte :: rest).drop taken)
      { state with pending := state.pending ++ (byte :: rest).take taken, room := partly } := by
  subst take
  rw [emitBytes]
  rw [dif_pos partly]

theorem emit_bytes_full (byte : UInt8) (rest : Bytes) (state : Emission chunkSize) (taken : Nat)
    (take : min (chunkSize - state.pending.length) (byte :: rest).length = taken)
    (full : ¬ (state.pending ++ (byte :: rest).take taken).length < chunkSize) :
    emitBytes lib (byte :: rest) state = (do
      let emitted ← emitChunk lib (state.pending ++ (byte :: rest).take taken) state
      emitBytes lib ((byte :: rest).drop taken) emitted.cleared) := by
  subst take
  rw [emitBytes]
  rw [dif_neg full]

-- A chunk does not depend on what the buffer held besides.
theorem emit_chunk_cleared {β : Type} (bytes pending : Bytes) (state : Emission chunkSize)
    (room : pending.length < chunkSize) (next : Emission chunkSize → Except String β) :
    (emitChunk lib bytes { state with pending := pending, room := room } >>= fun emitted => next emitted.cleared) =
      (emitChunk lib bytes state >>= fun emitted => next emitted.cleared) := by
  unfold emitChunk
  simp only [bind_assoc, pure_bind, Emission.cleared]

theorem emit_bytes_cons (byte : UInt8) (rest : Bytes) (state : Emission chunkSize) :
    emitBytes lib (byte :: rest) state = emitByte lib state byte >>= emitBytes lib rest := by
  have room := state.room
  by_cases full : state.pending.length + 1 = chunkSize
  · have take : min (chunkSize - state.pending.length) (byte :: rest).length = 1 := by
      rw [List.length_cons]
      omega
    rw [emit_bytes_full lib byte rest state 1 take (by simp; omega), emitByte,
      dif_neg (by simp; omega)]
    simp only [List.take_succ_cons, List.take_zero, List.drop_succ_cons, List.drop_zero, bind_assoc, pure_bind]
  · have partly : (state.pending ++ [byte]).length < chunkSize := by
      simp only [List.length_append, List.length_cons, List.length_nil]
      omega
    rw [emitByte, dif_pos partly]
    cases rest with
    | nil =>
        have take : min (chunkSize - state.pending.length) [byte].length = 1 := by
          rw [List.length_singleton]
          omega
        rw [emit_bytes_partly lib byte [] state 1 take partly]
        rfl
    | cons next rest =>
        obtain ⟨taken, less⟩ : ∃ taken, min (chunkSize - (state.pending ++ [byte]).length) (next :: rest).length = taken :=
          ⟨_, rfl⟩
        have take : min (chunkSize - state.pending.length) (byte :: next :: rest).length = taken + 1 := by
          simp only [List.length_append, List.length_cons, List.length_nil] at less ⊢
          omega
        have buffer : state.pending ++ (byte :: next :: rest).take (taken + 1) =
            state.pending ++ [byte] ++ (next :: rest).take taken := by
          rw [List.take_succ_cons, List.append_assoc, List.singleton_append]
        by_cases fits : (state.pending ++ [byte] ++ (next :: rest).take taken).length < chunkSize
        · rw [emit_bytes_partly lib byte (next :: rest) state (taken + 1) take (by rw [buffer]; exact fits)]
          have continued :=
            emit_bytes_partly lib next rest { state with pending := state.pending ++ [byte], room := partly } taken less fits
          simp only [buffer, List.drop_succ_cons]
          exact continued.symm
        · rw [emit_bytes_full lib byte (next :: rest) state (taken + 1) take (by rw [buffer]; exact fits), buffer]
          have continued :=
            emit_bytes_full lib next rest { state with pending := state.pending ++ [byte], room := partly } taken less fits
          rw [emit_chunk_cleared] at continued
          exact continued.symm

theorem emit_bytes_fold (bytes : Bytes) (state : Emission chunkSize) :
    emitBytes lib bytes state = bytes.foldlM (emitByte lib) state := by
  induction bytes generalizing state with
  | nil => exact emit_bytes_nil lib state
  | cons byte rest ih =>
      rw [emit_bytes_cons, List.foldlM_cons]
      exact bind_congr ih

theorem emit_bytes_append (first second : Bytes) (state : Emission chunkSize) :
    emitBytes lib (first ++ second) state = emitBytes lib first state >>= emitBytes lib second := by
  rw [emit_bytes_fold, emit_bytes_fold, List.foldlM_append]
  exact bind_congr fun next => (emit_bytes_fold lib second next).symm

-- The buffer and the finished chunks hold what has been written so far.
def Emission.written (state : Emission chunkSize) : Bytes := state.sunk.flatten ++ state.pending

structure Counted (state : Emission chunkSize) : Prop where
  full : ∀ chunk ∈ state.sunk, chunk.length = chunkSize
  total : state.total.toNat = state.sunk.flatten.length
  chunks : state.chunks = state.sunk.map fun bytes => { sha256 := digestBytes lib bytes, byteLength := UInt64.ofNat bytes.length }

theorem start_counted (positive : 0 < chunkSize) : Counted lib (Emission.start positive) :=
  ⟨List.forall_mem_nil _, rfl, rfl⟩

theorem emit_chunk_ok (bytes : Bytes) (state next : Emission chunkSize) (run : emitChunk lib bytes state = .ok next) :
    state.chunks.length < maxChunksPerContentV4 ∧ state.total.toNat + bytes.length < 2 ^ 64 ∧
      next = { state with
        total := state.total + UInt64.ofNat bytes.length
        chunks := state.chunks ++ [{ sha256 := digestBytes lib bytes, byteLength := UInt64.ofNat bytes.length }]
        sunk := state.sunk ++ [bytes] } := by
  simp only [emitChunk, bind_ok, ensure_ok, pure_ok] at run
  obtain ⟨_, few, _, short, rfl⟩ := run
  exact ⟨few, short, rfl⟩

theorem emit_chunk_counted (bytes : Bytes) (state next : Emission chunkSize) (counted : Counted lib state)
    (full : bytes.length = chunkSize) (run : emitChunk lib bytes state = .ok next) : Counted lib next := by
  obtain ⟨_, short, rfl⟩ := emit_chunk_ok lib bytes state next run
  refine ⟨?_, ?_, ?_⟩
  · intro chunk member
    rcases List.mem_append.mp member with earlier | last
    · exact counted.full chunk earlier
    · rw [List.mem_singleton.mp last, full]
  · have length : (UInt64.ofNat bytes.length).toNat = bytes.length :=
      UInt64.toNat_ofNat_of_lt' (show bytes.length < 2 ^ 64 by omega)
    simp only [UInt64.toNat_add, length, List.flatten_append, List.length_append, counted.total, List.flatten_cons,
      List.flatten_nil, List.append_nil] at short ⊢
    omega
  · simp only [counted.chunks, List.map_append, List.map_cons, List.map_nil]

theorem emit_byte_ok (state next : Emission chunkSize) (byte : UInt8) (counted : Counted lib state)
    (run : emitByte lib state byte = .ok next) : Counted lib next ∧ next.written = state.written ++ [byte] := by
  have room := state.room
  unfold emitByte at run
  dsimp only at run
  by_cases partly : (state.pending ++ [byte]).length < chunkSize
  · rw [dif_pos partly, Except.ok.injEq] at run
    subst run
    exact ⟨⟨counted.full, counted.total, counted.chunks⟩, (List.append_assoc _ _ _).symm⟩
  · rw [dif_neg partly] at run
    simp only [bind_ok, pure_ok] at run
    obtain ⟨emitted, chunk, rfl⟩ := run
    have full : (state.pending ++ [byte]).length = chunkSize := by
      simp only [List.length_append, List.length_cons, List.length_nil] at partly ⊢
      omega
    have after := emit_chunk_counted lib _ state emitted counted full chunk
    obtain ⟨_, _, rfl⟩ := emit_chunk_ok lib _ state emitted chunk
    refine ⟨⟨after.full, after.total, after.chunks⟩, ?_⟩
    simp [Emission.cleared, Emission.written]

theorem emit_bytes_ok (bytes : Bytes) (state next : Emission chunkSize) (counted : Counted lib state)
    (run : emitBytes lib bytes state = .ok next) : Counted lib next ∧ next.written = state.written ++ bytes := by
  rw [emit_bytes_fold] at run
  induction bytes generalizing state with
  | nil =>
      cases run
      exact ⟨counted, (List.append_nil _).symm⟩
  | cons byte rest ih =>
      rw [List.foldlM_cons, bind_ok] at run
      obtain ⟨middle, first, later⟩ := run
      obtain ⟨still, written⟩ := emit_byte_ok lib state middle byte counted first
      obtain ⟨after, rest⟩ := ih middle still later
      exact ⟨after, by rw [rest, written, List.append_assoc, List.singleton_append]⟩

theorem flatten_full (sunk : List Bytes) (full : ∀ chunk ∈ sunk, chunk.length = chunkSize) :
    sunk.flatten.length = sunk.length * chunkSize := by
  induction sunk with
  | nil => simp
  | cons chunk rest ih =>
      rw [List.flatten_cons, List.length_append, full chunk List.mem_cons_self,
        ih fun other member => full other (List.mem_cons_of_mem _ member), List.length_cons, Nat.succ_mul, Nat.add_comm]

theorem written_length (state : Emission chunkSize) (counted : Counted lib state) :
    state.written.length = state.chunks.length * chunkSize + state.pending.length := by
  rw [Emission.written, List.length_append, flatten_full _ counted.full, counted.chunks, List.length_map]

-- Room for one more chunk, as long as the output stays within both limits.
theorem emit_chunk_accepts (bytes : Bytes) (state : Emission chunkSize) (counted : Counted lib state)
    (chunksFit : state.chunks.length * chunkSize + bytes.length ≤ maxChunksPerContentV4 * chunkSize) (nonempty : bytes ≠ [])
    (small : state.chunks.length * chunkSize + bytes.length < 2 ^ 64) : ∃ next, emitChunk lib bytes state = .ok next := by
  have more : 0 < bytes.length := List.length_pos_of_ne_nil nonempty
  have few : state.chunks.length < maxChunksPerContentV4 := Nat.lt_of_mul_lt_mul_right (a := chunkSize) (by omega)
  have sunk : state.sunk.flatten.length = state.chunks.length * chunkSize := by
    rw [flatten_full _ counted.full, counted.chunks, List.length_map]
  have total := counted.total
  unfold emitChunk
  rw [ensured _ _ _ few, ensured _ _ _ (by omega)]
  exact ⟨_, rfl⟩

theorem emit_byte_accepts (state : Emission chunkSize) (byte : UInt8) (counted : Counted lib state)
    (chunksFit : state.written.length + 1 ≤ maxChunksPerContentV4 * chunkSize) (small : state.written.length + 1 < 2 ^ 64) :
    ∃ next, emitByte lib state byte = .ok next := by
  rw [written_length lib state counted] at chunksFit small
  by_cases partly : (state.pending ++ [byte]).length < chunkSize
  · exact ⟨_, by rw [emitByte, dif_pos partly]⟩
  · have length : (state.pending ++ [byte]).length = state.pending.length + 1 := by simp
    obtain ⟨emitted, run⟩ := emit_chunk_accepts lib (state.pending ++ [byte]) state counted (by omega) (by simp) (by omega)
    exact ⟨emitted.cleared, by rw [emitByte, dif_neg partly, run]; rfl⟩

theorem emit_bytes_accepts (bytes : Bytes) (state : Emission chunkSize) (counted : Counted lib state)
    (chunksFit : state.written.length + bytes.length ≤ maxChunksPerContentV4 * chunkSize)
    (small : state.written.length + bytes.length < 2 ^ 64) : ∃ next, emitBytes lib bytes state = .ok next := by
  induction bytes generalizing state with
  | nil => exact ⟨state, emit_bytes_nil lib state⟩
  | cons byte rest ih =>
      rw [List.length_cons] at chunksFit small
      obtain ⟨middle, first⟩ := emit_byte_accepts lib state byte counted (by omega) (by omega)
      obtain ⟨still, written⟩ := emit_byte_ok lib state middle byte counted first
      have length : middle.written.length = state.written.length + 1 := by rw [written]; simp
      obtain ⟨next, later⟩ := ih middle still (by omega) (by omega)
      exact ⟨next, by rw [emit_bytes_cons, first]; exact later⟩

end SessionSync.Rollout
