import SessionSync.Rollout.Scan
import SessionSync.Rollout.ProviderRewrite
import SessionSync.Storage.IngestRollout
import Mathlib.Data.List.DropRight

set_option autoImplicit false

namespace SessionSync.Rollout

open SessionSync.Core Checked Storage Lib

theorem split_take (stream line : Bytes) (limit : Nat) (head : (splitAfter newline (stream.take limit)).headD [] = line)
    (short : line.length < limit) : (splitAfter newline stream).headD [] = line := by
  induction stream generalizing limit line with
  | nil => simpa using head
  | cons byte rest ih =>
      cases limit with
      | zero => exact absurd short (Nat.not_lt_zero _)
      | succ limit =>
          rw [List.take_succ_cons] at head
          unfold splitAfter at head ⊢
          by_cases last : byte = newline
          · rw [if_pos last] at head ⊢
            exact head
          · rw [if_neg last] at head ⊢
            have later := ih ((splitAfter newline (rest.take limit)).headD []) limit rfl
            cases inner : splitAfter newline (rest.take limit) with
            | nil =>
                rw [inner] at head later
                rw [List.headD_nil] at later
                rw [List.headD_cons] at head
                have room : 0 < limit := by
                  rw [← head] at short
                  simpa using short
                have none : splitAfter newline rest = [] := by
                  have empty := split_none (rest.take limit) inner
                  rcases List.take_eq_nil_iff.mp empty with zero | nothing
                  · omega
                  · rw [nothing, splitAfter]
                rw [none]
                exact head
            | cons first lines =>
                rw [inner] at head later
                rw [List.headD_cons] at head later
                have room : first.length < limit := by
                  rw [← head] at short
                  simpa using short
                have same := later room
                cases outer : splitAfter newline rest with
                | nil =>
                    have empty := split_none rest outer
                    rw [empty, List.take_nil] at inner
                    cases inner
                | cons other others =>
                    rw [outer, List.headD_cons] at same
                    rw [← head, ← same]
                    rfl

variable (lib : Primitives) (reader : Reader) (utf8Error : Bytes → String)

-- What serde_json does at the two ends of a text: it skips a line ending and takes no byte order mark.
structure ReadsText : Prop where
  trailing : ∀ body ending value, Ending ending → (reader.parse (body ++ ending) = .ok value ↔ reader.parse body = .ok value)
  unmarked : ∀ rest value, reader.parse (utf8 [byteOrderMark] ++ rest) ≠ .ok value

def Marked (bytes : Bytes) : Prop := ∃ rest, bytes = utf8 [byteOrderMark] ++ rest

-- What the scanner has seen of a file that it lists.
structure Seen (record : RolloutRecord) (line : Bytes) (rest : List Bytes) (text : List Char) (value : Value) (payload : Fields) :
    Prop where
  lines : splitAfter newline record.source.bytes = line :: rest
  short : line.length ≤ maxSessionMetaBytes
  decoded : utf8 text = line
  parsed : reader.parse (utf8 (text.dropWhile (· = byteOrderMark))) = .ok value
  session : IsSession value payload
  named : (fieldOf payload "id").bind Value.asStr = some record.threadId

theorem record_seen (file : RolloutFile) (record : RolloutRecord) (read : readRolloutRecord reader utf8Error file = .ok record) :
    ∃ line rest text value payload, Seen reader record line rest text value payload := by
  have source := record_source reader utf8Error file record read
  simp only [readRolloutRecord, bind_ok, ensure_ok, found_ok, map_error_ok, pure_ok, decode_utf8_some] at read
  obtain ⟨_, some, _, short, text, decoded, _, _, value, parsed, _, session, id, named, rfl⟩ := read
  have head := split_take file.bytes _ (maxSessionMetaBytes + 1) rfl (Nat.lt_succ_of_le short)
  cases object : payloadOf value with
  | none =>
      rw [object] at named
      cases named
  | some payload =>
      rw [object] at named
      cases lines : splitAfter newline file.bytes with
      | nil => exact absurd (split_none file.bytes lines) some
      | cons line rest =>
          rw [lines, List.headD_cons] at head
          change line = firstLine (maxSessionMetaBytes + 1) file.bytes at head
          rw [← head] at short decoded
          exact ⟨line, rest, text, value, payload, lines, short, decoded, parsed, ⟨session, object⟩, named⟩

theorem split_other (byte : UInt8) (rest : Bytes) (other : byte ≠ newline) :
    (splitAfter newline (byte :: rest)).headD [] = byte :: (splitAfter newline rest).headD [] := by
  rw [splitAfter, if_neg other]
  cases splitAfter newline rest <;> rfl

theorem mark_bytes : utf8 [byteOrderMark] = [239, 187, 191] := by decide +kernel

theorem marked_line (bytes : Bytes) (marked : Marked bytes) :
    ∃ more, (splitAfter newline bytes).headD [] = utf8 [byteOrderMark] ++ more := by
  obtain ⟨rest, rfl⟩ := marked
  rw [mark_bytes]
  simp only [List.cons_append, List.nil_append]
  rw [split_other _ _ (by decide), split_other _ _ (by decide), split_other _ _ (by decide)]
  exact ⟨_, rfl⟩

variable {lib reader} in
-- The one line that all three read, unless the scanner has skipped a mark.
theorem seen_unmarked (record : RolloutRecord) (line : Bytes) (rest : List Bytes) (text : List Char) (value : Value)
    (payload : Fields) (seen : Seen reader record line rest text value payload) (unmarked : ¬ Marked record.source.bytes) :
    reader.parse line = .ok value := by
  have kept : text.dropWhile (· = byteOrderMark) = text := by
    cases text with
    | nil => rfl
    | cons c text =>
        refine List.dropWhile_cons_of_neg fun mark => unmarked ?_
        rw [decide_eq_true_eq] at mark
        refine ⟨utf8 text ++ rest.flatten, ?_⟩
        have whole : (splitAfter newline record.source.bytes).flatten = record.source.bytes := split_flatten _
        rw [← whole, seen.lines, List.flatten_cons, ← seen.decoded, mark]
        simp only [utf8, List.flatMap_cons, List.flatMap_nil, List.append_nil, List.append_assoc]
  have parsed := seen.parsed
  rwa [kept, seen.decoded] at parsed

variable {lib reader} in
theorem seen_session (text : ReadsText reader) (record : RolloutRecord) (line : Bytes) (rest : List Bytes) (chars : List Char)
    (value : Value) (payload : Fields) (seen : Seen reader record line rest chars value payload)
    (unmarked : ¬ Marked record.source.bytes) : sessionOf reader line = some (value, payload) := by
  obtain ⟨whole, ending⟩ := split_ending line
  have parsed := seen_unmarked record line rest chars value payload seen unmarked
  rw [← whole, text.trailing _ _ _ ending] at parsed
  exact (session_of_iff line value payload).mpr ⟨parsed, seen.session⟩

-- Every line as the provider rewriter writes it.
def providerStream (targetProvider : String) (source : Bytes) : Bytes :=
  ((splitAfter newline source).map (stampLine lib reader none targetProvider)).flatten

-- The limits of the writers. The scanner's own limit on the first line is part of the scan.
structure WithinLimits (targetProvider : String) (size : ChunkSize) (record : RolloutRecord) : Prop where
  normalized : (normalizedStream lib reader record.source.bytes).length ≤ maxChunksPerContentV4 * size.bytes.toNat
  rewritten : (providerStream lib reader targetProvider record.source.bytes).length < 2 ^ 64

-- What a listed thread is owed.
structure AcceptedEverywhere (targetProvider : String) (size : ChunkSize) (record : RolloutRecord) : Prop where
  normalizes : ∃ result, normalizeRolloutReader lib reader record.threadId size.bytes.toNat record.source.bytes = .ok result
  provider : ∃ current, readRolloutProvider reader record.source.bytes = .ok current
  rewrites : ∃ written, transformRolloutFile lib reader record.source.bytes record.threadId targetProvider = .ok written

-- The files on which the three readers agree.
structure Plain (record : RolloutRecord) : Prop where
  unmarked : ¬ Marked record.source.bytes
  named : isBlank record.threadId = false
  writable : ∀ line ∈ (splitAfter newline record.source.bytes).tail, ¬ Unwritable reader line

variable {lib reader utf8Error}

theorem provider_unmarked (text : ReadsText reader) (bytes : Bytes) (current : Option String)
    (read : readRolloutProvider reader bytes = .ok current) : ¬ Marked bytes := by
  intro marked
  obtain ⟨more, line⟩ := marked_line bytes marked
  simp only [readRolloutProvider, bind_ok, map_error_ok, line] at read
  obtain ⟨value, parsed, _⟩ := read
  exact text.unmarked more value parsed

theorem provider_reads (record : RolloutRecord) (line : Bytes) (rest : List Bytes) (chars : List Char) (value : Value)
    (payload : Fields) (seen : Seen reader record line rest chars value payload) (unmarked : ¬ Marked record.source.bytes) :
    ∃ current, readRolloutProvider reader record.source.bytes = .ok current := by
  have parsed := seen_unmarked record line rest chars value payload seen unmarked
  refine ⟨(get value "payload").bind fun payload => (get payload "model_provider").bind Value.asStr, ?_⟩
  simp only [readRolloutProvider, seen.lines, List.headD_cons, bind_ok, map_error_ok, ensure_ok, pure_ok]
  exact ⟨value, parsed, (), seen.session.1, rfl⟩

theorem normalizes_unmarked (text : ReadsText reader) (size : ChunkSize) (bytes : Bytes) (threadId : String)
    (result : NormalizedRolloutV4 × List Bytes)
    (run : normalizeRolloutReader lib reader threadId size.bytes.toNat bytes = .ok result) : ¬ Marked bytes := by
  intro marked
  obtain ⟨head, others, accepts⟩ := normalize_accepts lib reader threadId size.pos _ result run
  obtain ⟨more, line⟩ := marked_line _ marked
  obtain ⟨other, fields, session, _⟩ := accepts.first.session
  rw [accepts.lines, List.headD_cons] at line
  obtain ⟨parsed, _⟩ := (session_of_iff head other fields).mp session
  obtain ⟨whole, ending⟩ := split_ending head
  rw [← text.trailing _ _ _ ending, whole, line] at parsed
  exact text.unmarked more other parsed

theorem normalizes_iff (text : ReadsText reader) (size : ChunkSize) (record : RolloutRecord) (line : Bytes) (rest : List Bytes)
    (chars : List Char) (value : Value) (payload : Fields) (seen : Seen reader record line rest chars value payload)
    (fits : (normalizedStream lib reader record.source.bytes).length ≤ maxChunksPerContentV4 * size.bytes.toNat) :
    (∃ result, normalizeRolloutReader lib reader record.threadId size.bytes.toNat record.source.bytes = .ok result) ↔
      ¬ Marked record.source.bytes ∧ isBlank record.threadId = false := by
  constructor
  · rintro ⟨result, run⟩
    obtain ⟨_, _, accepts⟩ := normalize_accepts lib reader record.threadId size.pos _ result run
    exact ⟨normalizes_unmarked text size _ record.threadId result run, accepts.named⟩
  · rintro ⟨unmarked, named⟩
    have limit : maxSessionMetaBytes ≤ maxMetadataLineBytesV4 := by decide
    have session := seen_session text record line rest chars value payload seen unmarked
    exact normalize_takes lib reader size _ record.threadId line rest
      ⟨named, seen.lines, ⟨seen.short.trans limit, value, payload, session, seen.named⟩⟩ fits

variable (lib) in
theorem rewrites_iff (text : ReadsText reader) (targetProvider : String) (record : RolloutRecord) (line : Bytes) (rest : List Bytes)
    (chars : List Char) (value : Value) (payload : Fields) (seen : Seen reader record line rest chars value payload)
    (unmarked : ¬ Marked record.source.bytes)
    (short : (providerStream lib reader targetProvider record.source.bytes).length < 2 ^ 64) :
    (∃ written, transformRolloutFile lib reader record.source.bytes record.threadId targetProvider = .ok written) ↔
      ∀ line ∈ (splitAfter newline record.source.bytes).tail, ¬ Unwritable reader line := by
  have session := seen_session text record line rest chars value payload seen unmarked
  have first := transform_line_first lib reader line record.threadId targetProvider value payload session seen.named
  rw [providerStream, seen.lines, List.map_cons, List.flatten_cons, List.length_append] at short
  have step : transformStep lib reader record.threadId targetProvider ⟨false, []⟩ line =
      .ok ⟨true, stampLine lib reader none targetProvider line⟩ := by
    rw [transformStep, Bool.not_false, first]
    change (ensure _ _ >>= _) = _
    rw [ensured _ _ _ (by simpa using Nat.lt_of_le_of_lt (Nat.le_add_right _ _) short)]
    rfl
  rw [seen.lines, List.tail_cons]
  constructor
  · rintro ⟨written, run⟩
    simp only [transformRolloutFile, seen.lines, List.foldlM_cons, step, bind_ok, Except.ok.injEq, exists_eq_left'] at run
    obtain ⟨last, run, _⟩ := run
    exact transform_rest_writable lib reader record.threadId targetProvider rest _ last run
  · intro writable
    have later := transform_rest lib reader record.threadId targetProvider rest _ writable short
    simp only [transformRolloutFile, seen.lines, List.foldlM_cons, step, bind_ok, ensure_ok, pure_ok, Except.ok.injEq,
      exists_eq_left', later]
    exact ⟨_, (), trivial, rfl⟩

-- A thread that the scan lists goes through all three readers exactly when its file is plain.
theorem scanned_accepted_iff (text : ReadsText reader) (files : List RolloutFile) (record : RolloutRecord)
    (listed : record ∈ (scanRollouts reader utf8Error files).threads) (targetProvider : String) (size : ChunkSize)
    (limits : WithinLimits lib reader targetProvider size record) :
    AcceptedEverywhere lib reader targetProvider size record ↔ Plain reader record := by
  obtain ⟨_, read⟩ := thread_read reader utf8Error files record listed
  obtain ⟨line, rest, chars, value, payload, seen⟩ := record_seen reader utf8Error record.source record read
  have normalizes := normalizes_iff text size record line rest chars value payload seen limits.normalized
  have rewrites := rewrites_iff lib text targetProvider record line rest chars value payload seen
  constructor
  · rintro ⟨normalized, ⟨current, provider⟩, rewritten⟩
    obtain ⟨unmarked, named⟩ := normalizes.mp normalized
    exact ⟨unmarked, named, (rewrites unmarked limits.rewritten).mp rewritten⟩
  · rintro ⟨unmarked, named, writable⟩
    exact ⟨normalizes.mpr ⟨unmarked, named⟩, provider_reads record line rest chars value payload seen unmarked,
      (rewrites unmarked limits.rewritten).mpr writable⟩

variable (lib reader) in
-- The loop of a snapshot over the threads of the scan, without the cache of earlier results.
def snapshotThreads (size : ChunkSize) (threads : List RolloutRecord) : Except String (List (NormalizedRolloutV4 × List Bytes)) :=
  threads.mapM fun record => normalizeRolloutReader lib reader record.threadId size.bytes.toNat record.source.bytes

-- One file that cannot be normalised fails the snapshot of the whole home.
theorem snapshot_threads_iff (text : ReadsText reader) (files : List RolloutFile) (size : ChunkSize)
    (fits : ∀ record ∈ (scanRollouts reader utf8Error files).threads,
      (normalizedStream lib reader record.source.bytes).length ≤ maxChunksPerContentV4 * size.bytes.toNat) :
    (∃ contents, snapshotThreads lib reader size (scanRollouts reader utf8Error files).threads = .ok contents) ↔
      ∀ record ∈ (scanRollouts reader utf8Error files).threads,
        ¬ Marked record.source.bytes ∧ isBlank record.threadId = false := by
  rw [snapshotThreads, map_each_iff]
  refine forall₂_congr fun record listed => ?_
  obtain ⟨_, read⟩ := thread_read reader utf8Error files record listed
  obtain ⟨line, rest, chars, value, payload, seen⟩ := record_seen reader utf8Error record.source record read
  exact normalizes_iff text size record line rest chars value payload seen (fits record listed)

namespace AgreementSample

def stripEnd (body : Bytes) : Bytes := body.rdropWhile fun byte => byte = 10 ∨ byte = 13

theorem strip_ending (body ending : Bytes) (known : Ending ending) : stripEnd (body ++ ending) = stripEnd body := by
  unfold stripEnd
  rcases known with rfl | rfl | rfl
  · rw [show body ++ [13, 10] = body ++ [13] ++ [10] by simp, List.rdropWhile_concat_pos _ _ _ (by decide),
      List.rdropWhile_concat_pos _ _ _ (by decide)]
  · exact List.rdropWhile_concat_pos _ _ _ (by decide)
  · rw [List.append_nil]

theorem short_formed : WellFormed (sampleRecord shortPayload) := sample_formed _ short_opens.formed

theorem record_text : recordLine shortPayload = utf8 (writeJson sampleLib (sampleRecord shortPayload)) :=
  canonical_json_well_formed sampleLib _ short_formed

def textTail : List Char := writeFields sampleLib [("payload", .object shortPayload), ("type", .string "session_meta")]

theorem record_head : writeJson sampleLib (sampleRecord shortPayload) = '{' :: (textTail ++ ['}']) := rfl

-- It takes the text of the one record, with any line endings after it.
def recordReader : Reader :=
  { parse := fun body => if stripEnd body = recordLine shortPayload then .ok (sampleRecord shortPayload) else .error "expected value"
    formed := by
      intro body value read
      split at read
      · cases read
        exact short_formed
      · cases read }

theorem record_reads (body : Bytes) (value : Value) :
    recordReader.parse body = .ok value ↔ stripEnd body = recordLine shortPayload ∧ value = sampleRecord shortPayload := by
  simp only [recordReader]
  split
  · rename_i same
    rw [Except.ok.injEq]
    exact ⟨fun equal => ⟨same, equal.symm⟩, fun held => held.2.symm⟩
  · rename_i other
    exact iff_of_false (error_ne_ok _ _) fun held => other held.1

theorem reads_text : ReadsText recordReader where
  trailing := fun body ending value known => by rw [record_reads, record_reads, strip_ending body ending known]
  unmarked := by
    intro rest value read
    obtain ⟨same, _⟩ := (record_reads _ _).mp read
    have start := List.rdropWhile_prefix (fun byte : UInt8 => decide (byte = 10 ∨ byte = 13)) (l := utf8 [byteOrderMark] ++ rest)
    rw [show List.rdropWhile _ _ = stripEnd (utf8 [byteOrderMark] ++ rest) from rfl, same, record_text, record_head,
      mark_bytes] at start
    obtain ⟨more, whole⟩ := start
    have first := congrArg List.head? whole
    simp [utf8, String.utf8EncodeChar] at first

theorem strip_record : stripEnd (recordLine shortPayload) = recordLine shortPayload := by
  obtain ⟨body, closed⟩ := sample_closed shortPayload
  rw [closed]
  exact List.rdropWhile_concat_neg _ _ _ (by decide)

theorem parse_record (ending : Bytes) (known : Ending ending) :
    recordReader.parse (recordLine shortPayload ++ ending) = .ok (sampleRecord shortPayload) :=
  (record_reads _ _).mpr ⟨by rw [strip_ending _ _ known, strip_record], rfl⟩

-- The rollout with the marks in front that a text editor leaves.
def sampleFile (marks : List Char) : RolloutFile :=
  { path := "sessions/rollout-1.jsonl", logicalPath := "sessions/rollout-1.jsonl", archived := false,
    bytes := utf8 marks ++ sampleRollout shortPayload }

def sampleListing (marks : List Char) : RolloutRecord :=
  { threadId := "thread", archived := false, cwd := none, modelProvider := none,
    byteLength := UInt64.ofNat (sampleFile marks).bytes.length, mediaType := "application/x-ndjson",
    logicalPath := some "sessions/rollout-1.jsonl", source := sampleFile marks }

def noText (_ : Bytes) : String := ""

theorem sample_file_lines (marks : List Char) (known : marks = [] ∨ marks = [byteOrderMark]) :
    splitAfter newline (sampleFile marks).bytes = [(sampleFile marks).bytes] ∧ (sampleFile marks).bytes.length ≤ 10000 := by
  have clean : newline ∉ utf8 marks ++ recordLine shortPayload := by
    rw [List.mem_append, not_or]
    refine ⟨?_, sample_clean shortPayload short_opens.formed⟩
    rcases known with rfl | rfl
    · exact List.not_mem_nil
    · rw [mark_bytes]
      decide
  have line := sample_length shortPayload 1000 short_opens.narrow
  have front : (utf8 marks).length ≤ 3 := by
    rcases known with rfl | rfl
    · exact Nat.zero_le _
    · rw [mark_bytes]
      decide
  constructor
  · rw [sampleFile, sampleRollout, ← List.append_assoc]
    exact split_terminated _ [] clean
  · simp only [sampleFile, sampleRollout, List.length_append, List.length_singleton]
    omega

theorem sample_read (marks : List Char) (known : marks = [] ∨ marks = [byteOrderMark]) :
    readRolloutRecord recordReader noText (sampleFile marks) = .ok (sampleListing marks) := by
  obtain ⟨lines, short⟩ := sample_file_lines marks known
  have limit : maxSessionMetaBytes = 1048576 := rfl
  have line : firstLine (maxSessionMetaBytes + 1) (sampleFile marks).bytes = (sampleFile marks).bytes := by
    rw [firstLine, List.take_of_length_le (by omega), lines]
    rfl
  have text : utf8 (marks ++ writeJson sampleLib (sampleRecord shortPayload) ++ ['\n']) = (sampleFile marks).bytes := by
    rw [sampleFile, sampleRollout, record_text, utf8, List.flatMap_append, List.flatMap_append, List.append_assoc]
    rfl
  have filled : (sampleFile marks).bytes ≠ [] := by
    rw [← text, record_head]
    simp [utf8]
  have solid : isBlank (String.ofList (marks ++ writeJson sampleLib (sampleRecord shortPayload) ++ ['\n'])) = false := by
    rw [isBlank, String.toList_ofList, List.all_eq_false]
    exact ⟨'{', by rw [record_head]; simp, by decide⟩
  have dropped : (marks ++ writeJson sampleLib (sampleRecord shortPayload) ++ ['\n']).dropWhile (· = byteOrderMark) =
      writeJson sampleLib (sampleRecord shortPayload) ++ ['\n'] := by
    rw [record_head]
    rcases known with rfl | rfl
    · exact List.dropWhile_cons_of_neg (by decide)
    · rw [List.singleton_append, List.cons_append, List.dropWhile_cons_of_pos (by decide)]
      exact List.dropWhile_cons_of_neg (by decide)
  have parsed : recordReader.parse (utf8 (writeJson sampleLib (sampleRecord shortPayload) ++ ['\n'])) =
      .ok (sampleRecord shortPayload) := by
    rw [utf8, List.flatMap_append]
    change recordReader.parse (utf8 (writeJson sampleLib (sampleRecord shortPayload)) ++ [10]) = _
    rw [← record_text]
    exact parse_record [10] (.inr (.inl rfl))
  obtain ⟨session, object⟩ := sample_session shortPayload
  simp only [readRolloutRecord, bind_ok, ensure_ok, found_ok, map_error_ok, pure_ok, decode_utf8_some, line]
  refine ⟨(), filled, (), by omega, _, text, (), solid, sampleRecord shortPayload, ?_, (), session, "thread", ?_, ?_⟩
  · rw [dropped, parsed]
  · rw [object]
    exact short_opens.named
  · rw [object]
    simp [sampleListing, stringField, shortPayload, fieldOf, sampleFile]

theorem sample_listed (marks : List Char) (known : marks = [] ∨ marks = [byteOrderMark]) :
    sampleListing marks ∈ (scanRollouts recordReader noText [sampleFile marks]).threads ∧
      (scanRollouts recordReader noText [sampleFile marks]).warnings = [] := by
  have scanned : scanRollouts recordReader noText [sampleFile marks] =
      ⟨(∅ : Std.ExtTreeMap String RolloutRecord).insert "thread" (sampleListing marks), []⟩ := by
    rw [scanRollouts, List.foldl_cons, List.foldl_nil, scanRollout, sample_read marks known]
    exact if_neg Std.ExtTreeMap.not_mem_empty
  rw [scanned]
  refine ⟨List.mem_map.mpr ⟨("thread", sampleListing marks), ?_, rfl⟩, rfl⟩
  rw [Std.ExtTreeMap.mem_toList_iff_getElem?_eq_some, Keyed.lookup_insert, if_pos rfl]

theorem sample_session_of : sessionOf recordReader (sampleRollout shortPayload) =
    sessionOf sampleReader (sampleRollout shortPayload) := by
  rw [record_rollout shortPayload short_opens.formed, session_of_iff]
  obtain ⟨body, closed⟩ := sample_closed shortPayload
  have split := split_closed body [10] (.inr (.inl rfl))
  rw [← closed] at split
  rw [sampleRollout, newline, split]
  refine ⟨?_, sample_session shortPayload⟩
  have parsed := parse_record [] (.inr (.inr rfl))
  rwa [List.append_nil] at parsed

theorem sample_stamps (cwd : Option String) (provider : String) (few : (cwd.getD "").toList.length + provider.toList.length ≤ 100) :
    (stampLine sampleLib recordReader cwd provider (sampleRollout shortPayload)).length ≤ 10000 := by
  have stamped := sample_stamped shortPayload short_opens cwd provider few
  rwa [stampLine, ← sample_session_of] at stamped

theorem sample_limits (size : ChunkSize) (one : 1 ≤ size.bytes.toNat) :
    WithinLimits sampleLib recordReader "openai" size (sampleListing []) := by
  obtain ⟨lines, short⟩ := sample_file_lines [] (.inl rfl)
  have bytes : (sampleFile []).bytes = sampleRollout shortPayload := rfl
  rw [bytes] at lines short
  have limit : maxChunksPerContentV4 = 16384 := rfl
  have scaled := Nat.mul_le_mul_left maxChunksPerContentV4 one
  have normalized := sample_stamps (some workspaceTokenV4) providerTokenV4 (by decide)
  have rewritten := sample_stamps none "openai" (by decide)
  constructor
  · rw [sampleListing, bytes]
    simp only [normalizedStream, lines, normalizedOutput, List.map_nil, List.flatten_nil, List.append_nil, normalizedLine]
    rw [if_neg (by rw [maxMetadataLineBytesV4]; omega)]
    omega
  · rw [sampleListing, bytes, providerStream, lines, List.map_singleton, List.flatten_singleton]
    omega

end AgreementSample

open AgreementSample in
theorem scanned_accepted_sample :
    AcceptedEverywhere sampleLib recordReader "openai" wholeChunks (sampleListing []) := by
  have listed := (sample_listed [] (.inl rfl)).1
  have lines := (sample_file_lines [] (.inl rfl)).1
  refine (scanned_accepted_iff reads_text [sampleFile []] (sampleListing []) listed "openai" wholeChunks
    (sample_limits wholeChunks (by decide))).mpr ⟨?_, by decide, ?_⟩
  · rintro ⟨rest, whole⟩
    rw [mark_bytes] at whole
    have first := congrArg List.head? whole
    simp [sampleListing, sampleFile, sampleRollout, record_text, record_head, utf8, String.utf8EncodeChar] at first
  · change ∀ line ∈ (splitAfter newline (sampleFile []).bytes).tail, _
    rw [lines]
    exact List.forall_mem_nil _

open AgreementSample in
-- A byte order mark in front: the scan lists the thread without a warning, and neither
-- a snapshot nor a provider synchronisation can read its file.
theorem marked_thread_listed :
    (sampleListing [byteOrderMark] ∈ (scanRollouts recordReader noText [sampleFile [byteOrderMark]]).threads ∧
      (scanRollouts recordReader noText [sampleFile [byteOrderMark]]).warnings = []) ∧
    (sampleFile [byteOrderMark]).bytes.length ≤ 10000 ∧
    (∀ size : ChunkSize, ∀ result, normalizeRolloutReader sampleLib recordReader "thread" size.bytes.toNat
      (sampleFile [byteOrderMark]).bytes ≠ .ok result) ∧
    ∀ current, readRolloutProvider recordReader (sampleFile [byteOrderMark]).bytes ≠ .ok current := by
  have marked : Marked (sampleFile [byteOrderMark]).bytes := ⟨_, rfl⟩
  refine ⟨sample_listed _ (.inr rfl), (sample_file_lines _ (.inr rfl)).2, fun size result run => ?_, fun current read => ?_⟩
  · exact normalizes_unmarked reads_text size _ "thread" result run marked
  · exact provider_unmarked reads_text _ current read marked

end SessionSync.Rollout
