import SessionSync.Config.Remotes

set_option autoImplicit false

namespace SessionSync.Config

open SessionSync.Core Checked

structure NamespaceMappingRule where
  id : Uuid
  remoteId : Uuid
  namespaceId : Uuid
  label : String
  apiKeyFingerprint : Option String
  provider : Option String
  codexHomeKey : Option String
  createdAt : String
  updatedAt : String
deriving DecidableEq, Repr

structure ManualNamespaceOverride where
  remoteId : Uuid
  namespaceId : Uuid
  codexHomeKey : String
  updatedAt : String
deriving DecidableEq, Repr

structure NamespaceMappingFile where
  schemaVersion : UInt32
  mappings : List NamespaceMappingRule
  overrides : List ManualNamespaceOverride
deriving DecidableEq, Repr

def mappingSchemaVersion : UInt32 := 1
def namespaceConfigBytes : Nat := 1024 * 1024
def namespaceMappingLimit : Nat := 512
def fingerprintPrefix : String := "hmac-sha256:"

-- Each call with the rule id and the time it draws.
inductive NamespaceCall where
  | create (remoteId namespaceId : Uuid) (label : String) (apiKeyFingerprint provider codexHomeKey : Option String) (id : Uuid)
      (now : String)
  | delete (remoteId mappingId : Uuid)
  | setManualOverride (remoteId namespaceId : Uuid) (codexHomeKey now : String)
  | clearManualOverride (remoteId : Uuid) (codexHomeKey : String)
deriving DecidableEq, Repr

variable (lib : Primitives) (serde : Serde NamespaceMappingFile)

def validateLabel (label : String) : Except String String := do
  let label := Server.trim label
  ensure (label ≠ [] ∧ label.length ≤ 128 ∧ label.any Server.isControl =
    false) "mapping label must contain 1 to 128 non-control characters"
  return String.ofList label

def providerCharacter (c : Char) : Bool := c.isAlphanum || c = '-' || c = '_' || c = '.'

def normalizeProvider (provider : String) : Except String String := do
  let provider := (Server.trim provider).map Char.toLower
  ensure (provider ≠ [] ∧ (utf8 provider).length ≤ 128 ∧ provider.all providerCharacter = true)
    "provider must contain 1 to 128 ASCII letters, digits, '.', '-' or '_'"
  return String.ofList provider

def digestCharacter (c : Char) : Bool := c.isDigit || ('a' ≤ c && c ≤ 'f')

def validateFingerprint (fingerprint : String) : Except String String := do
  ensure (fingerprintPrefix.toList.isPrefixOf fingerprint.toList = true) "API-key fingerprint has an unsupported format"
  let digest := fingerprint.toList.drop fingerprintPrefix.length
  ensure (digest.length = 64 ∧ digest.all digestCharacter = true) "API-key fingerprint is not canonical HMAC-SHA256"
  return fingerprint

def validatePathMatcher (path : String) : Except String String := do
  ensure (Server.trim path ≠ [] ∧ path.toList.any Server.isControl = false) "Codex Home matcher is invalid"
  return path

def validateUuidV7 (id : Uuid) (field : String) : Except String Unit := ensure (id.version = 7) (field ++ " ID must be a UUIDv7")

def validateTimestamp (timestamp : String) : Except String Unit :=
  ensure (lib.isRfc3339 timestamp = true) ("invalid namespace mapping timestamp " ++ timestamp)

def checkOptional (check : String → Except String String) : Option String → Except String (Option String)
  | none => .ok none
  | some value => some <$> check value

def checkNamespace : NamespaceCall → Except String NamespaceCall
  | .create remoteId namespaceId label apiKeyFingerprint provider codexHomeKey id now => do
      let label ← validateLabel label
      let provider ← checkOptional normalizeProvider provider
      let apiKeyFingerprint ← checkOptional validateFingerprint apiKeyFingerprint
      let codexHomeKey ← checkOptional validatePathMatcher codexHomeKey
      ensure (apiKeyFingerprint ≠ none ∨ provider ≠ none ∨
        codexHomeKey ≠ none) "a namespace mapping requires at least one matching condition"
      validateUuidV7 remoteId "remote"
      validateUuidV7 namespaceId "namespace"
      return .create remoteId namespaceId label apiKeyFingerprint provider codexHomeKey id now
  | .delete remoteId mappingId => .ok (.delete remoteId mappingId)
  | .setManualOverride remoteId namespaceId codexHomeKey now => do
      validateUuidV7 remoteId "remote"
      validateUuidV7 namespaceId "namespace"
      let codexHomeKey ← validatePathMatcher codexHomeKey
      return .setManualOverride remoteId namespaceId codexHomeKey now
  | .clearManualOverride remoteId codexHomeKey => .ok (.clearManualOverride remoteId codexHomeKey)

def overrideKey (entry : ManualNamespaceOverride) : Uuid × String := (entry.remoteId, entry.codexHomeKey)

def setOverride (entry : ManualNamespaceOverride) (overrides : List ManualNamespaceOverride) : List ManualNamespaceOverride :=
  match modifyFirst (fun other => overrideKey other = overrideKey entry)
      (fun other => { other with namespaceId := entry.namespaceId, updatedAt := entry.updatedAt }) overrides with
  | some updated => updated.2
  | none => overrides ++ [entry]

-- `create` answers with its rule and the other calls with nothing.
def changeNamespace (call : NamespaceCall) (file : NamespaceMappingFile) :
    Except String (NamespaceMappingFile × Option NamespaceMappingRule) :=
  match call with
  | .create remoteId namespaceId label apiKeyFingerprint provider codexHomeKey id now => do
      ensure (file.mappings.length < namespaceMappingLimit) "namespace mapping limit of 512 was reached"
      ensure (∀ mapping ∈ file.mappings, ¬ (mapping.remoteId = remoteId ∧ mapping.apiKeyFingerprint = apiKeyFingerprint ∧
        mapping.provider = provider ∧ mapping.codexHomeKey = codexHomeKey)) "an identical namespace mapping condition already exists"
      let mapping : NamespaceMappingRule :=
        { id := id, remoteId := remoteId, namespaceId := namespaceId, label := label, apiKeyFingerprint := apiKeyFingerprint,
          provider := provider, codexHomeKey := codexHomeKey, createdAt := now, updatedAt := now }
      return ({ file with mappings := (file.mappings ++ [mapping]).insertionSort fun one other => one.id.toNat ≤ other.id.toNat },
        some mapping)
  | .delete remoteId mappingId => do
      let kept := file.mappings.filter fun mapping => mapping.remoteId ≠ remoteId ∨ mapping.id ≠ mappingId
      ensure (kept.length ≠ file.mappings.length) ("namespace mapping " ++ mappingId.text ++ " was not found")
      return ({ file with mappings := kept }, none)
  | .setManualOverride remoteId namespaceId codexHomeKey now =>
      let entry : ManualNamespaceOverride :=
        { remoteId := remoteId, namespaceId := namespaceId, codexHomeKey := codexHomeKey, updatedAt := now }
      .ok ({ file with overrides := setOverride entry file.overrides }, none)
  | .clearManualOverride remoteId codexHomeKey =>
      .ok ({ file with overrides := file.overrides.filter fun entry => overrideKey entry ≠ (remoteId, codexHomeKey) }, none)

def validateMapping (mapping : NamespaceMappingRule) : Except String Unit := do
  validateUuidV7 mapping.id "mapping"
  validateUuidV7 mapping.remoteId "remote"
  validateUuidV7 mapping.namespaceId "namespace"
  let _ ← validateLabel mapping.label
  let _ ← checkOptional validateFingerprint mapping.apiKeyFingerprint
  let provider ← checkOptional normalizeProvider mapping.provider
  ensure (provider = mapping.provider) "namespace mapping provider is not normalized"
  let _ ← checkOptional validatePathMatcher mapping.codexHomeKey
  ensure (mapping.apiKeyFingerprint ≠ none ∨ mapping.provider ≠ none ∨
    mapping.codexHomeKey ≠ none) "namespace mapping has no matching condition"
  validateTimestamp lib mapping.createdAt
  validateTimestamp lib mapping.updatedAt

def validateMappings (ids : List Uuid) : List NamespaceMappingRule → Except String Unit
  | [] => .ok ()
  | mapping :: rest => do
      ensure (mapping.id ∉ ids) "namespace mapping file contains duplicate rule IDs"
      validateMapping lib mapping
      validateMappings (mapping.id :: ids) rest

def validateOverrides (keys : List (Uuid × String)) : List ManualNamespaceOverride → Except String Unit
  | [] => .ok ()
  | entry :: rest => do
      validateUuidV7 entry.remoteId "remote"
      validateUuidV7 entry.namespaceId "namespace"
      let _ ← validatePathMatcher entry.codexHomeKey
      validateTimestamp lib entry.updatedAt
      ensure (overrideKey entry ∉ keys) "namespace mapping file contains duplicate manual overrides"
      validateOverrides (overrideKey entry :: keys) rest

def validateMappingFile (file : NamespaceMappingFile) : Except String Unit := do
  ensure (file.schemaVersion = mappingSchemaVersion)
    ("unsupported namespace mapping schema version " ++ toString file.schemaVersion.toNat)
  ensure (file.mappings.length ≤ namespaceMappingLimit) "namespace mapping file exceeds the 512 rule limit"
  validateMappings lib [] file.mappings
  validateOverrides lib [] file.overrides

def decodeNamespaces (bytes : Bytes) : Except String NamespaceMappingFile := do
  ensure (bytes.length ≤ namespaceConfigBytes) "namespace mapping file exceeds the 1048576 byte safety limit"
  let file ← serde.parse bytes
  validateMappingFile lib file
  return file

def namespaceMappingStore :
    Store NamespaceMappingFile NamespaceCall NamespaceCall (Option NamespaceMappingRule) (Option NamespaceMappingRule) where
  default := { schemaVersion := mappingSchemaVersion, mappings := [], overrides := [] }
  decode := decodeNamespaces lib serde
  check := checkNamespace
  change := changeNamespace
  validate := validateMappingFile lib
  encode := serde.print
  answer := .inl

-- A mapping, or the remote and home of a manual override.
abbrev NamespaceRule := NamespaceMappingRule ⊕ Uuid × String

def ruleIn (file : NamespaceMappingFile) : NamespaceRule → Prop
  | .inl mapping => mapping ∈ file.mappings
  | .inr key => key ∈ file.overrides.map overrideKey

def holdsNamespaceRule (file : Option Bytes) (rule : NamespaceRule) : Prop :=
  ∃ bytes document, file = some bytes ∧ serde.parse bytes = .ok document ∧ ruleIn document rule

def deletesNamespaceRule (call : NamespaceCall) (_ : NamespaceMappingFile) : NamespaceRule → Prop
  | .inl mapping => call = .delete mapping.remoteId mapping.id
  | .inr (remoteId, codexHomeKey) => call = .clearManualOverride remoteId codexHomeKey

-- The checks leave the rule that a call names.
theorem check_deletes (call arguments : NamespaceCall) (file : NamespaceMappingFile) (rule : NamespaceRule)
    (checked : checkNamespace call = .ok arguments) (deletes : deletesNamespaceRule arguments file rule) :
    deletesNamespaceRule call file rule := by
  cases call with
  | create remoteId namespaceId label apiKeyFingerprint provider codexHomeKey id now =>
      simp only [checkNamespace, bind_ok, pure_ok] at checked
      obtain ⟨_, _, _, _, _, _, _, _, _, _, _, _, _, _, rfl⟩ := checked
      cases rule <;> cases deletes
  | delete remoteId mappingId =>
      cases checked
      exact deletes
  | setManualOverride remoteId namespaceId codexHomeKey now =>
      simp only [checkNamespace, bind_ok, pure_ok] at checked
      obtain ⟨_, _, _, _, _, _, rfl⟩ := checked
      cases rule <;> cases deletes
  | clearManualOverride remoteId codexHomeKey =>
      cases checked
      exact deletes

theorem set_override_keys (entry : ManualNamespaceOverride) (overrides : List ManualNamespaceOverride) :
    overrides.map overrideKey <+: (setOverride entry overrides).map overrideKey := by
  unfold setOverride
  split
  next updated matched =>
      have same : updated.2.map overrideKey = overrides.map overrideKey := by
        refine modify_first_keys overrideKey _ _ ?_ overrides updated matched
        intro other
        rfl
      simp only [same, List.prefix_rfl]
  next absent =>
      rw [List.map_append]
      exact List.prefix_append _ _

theorem change_namespace_keeps (call : NamespaceCall) (file : NamespaceMappingFile)
    (changed : NamespaceMappingFile × Option NamespaceMappingRule) (done : changeNamespace call file = .ok changed)
    (rule : NamespaceRule) (there : ruleIn file rule) (undeleted : ¬ deletesNamespaceRule call file rule) :
    ruleIn changed.1 rule := by
  cases call with
  | create remoteId namespaceId label apiKeyFingerprint provider codexHomeKey id now =>
      simp only [changeNamespace, bind_ok, pure_ok] at done
      obtain ⟨_, _, _, _, rfl⟩ := done
      cases rule with
      | inl mapping => exact (List.perm_insertionSort _ _).mem_iff.mpr (List.mem_append_left _ there)
      | inr key => exact there
  | delete remoteId mappingId =>
      simp only [changeNamespace, bind_ok, pure_ok] at done
      obtain ⟨_, _, rfl⟩ := done
      cases rule with
      | inl mapping =>
          refine List.mem_filter.mpr ⟨there, decide_eq_true ?_⟩
          by_contra both
          obtain ⟨sameRemote, sameId⟩ := not_or.mp both
          rw [not_not] at sameRemote sameId
          exact undeleted (by rw [deletesNamespaceRule, sameRemote, sameId])
      | inr key => exact there
  | setManualOverride remoteId namespaceId codexHomeKey now =>
      cases done
      cases rule with
      | inl mapping => exact there
      | inr key => exact (set_override_keys _ file.overrides).subset there
  | clearManualOverride remoteId codexHomeKey =>
      cases done
      cases rule with
      | inl mapping => exact there
      | inr key =>
          obtain ⟨entry, member, rfl⟩ := List.mem_map.mp there
          refine List.mem_map_of_mem (List.mem_filter.mpr ⟨member, decide_eq_true fun same => undeleted ?_⟩)
          rw [same]
          rfl

theorem namespaces_keep (faithful : serde.Faithful) :
    KeepsRules (namespaceMappingStore lib serde) (holdsNamespaceRule serde) deletesNamespaceRule := by
  intro call file document bytes rule read performed there undeleted
  obtain ⟨arguments, other, changed, checked, again, changes, _, rfl⟩ := perform_loaded _ call file bytes performed
  rw [read] at again
  cases again
  obtain ⟨before, stored, rfl, parsed, inside⟩ := there
  have same : stored = document := by
    have decoded := (map_error_ok _ _ _).mp read
    simp only [namespaceMappingStore, decodeNamespaces, bind_ok, pure_ok] at decoded
    obtain ⟨_, _, own, first, _, _, rfl⟩ := decoded
    rw [parsed] at first
    cases first
    rfl
  subst same
  have kept := change_namespace_keeps arguments stored changed ((map_error_ok _ _ _).mp changes) rule inside
    fun deletes => undeleted (check_deletes call arguments stored rule ((map_error_ok _ _ _).mp checked) deletes)
  exact ⟨_, changed.1, rfl, faithful changed.1, kept⟩

end SessionSync.Config
