import SessionSync.Config.Rules
import SessionSync.Server.History

set_option autoImplicit false

namespace SessionSync.Config

open SessionSync.Core Checked

-- What the url crate tells of a URL.
structure Url where
  scheme : String
  host : Option String
  username : String
  password : Option String
  path : String
  query : Option String
  fragment : Option String
  text : String
deriving DecidableEq, Repr

structure Urls where
  parse : String → Option Url
  setPath : Url → String → Url

structure RemoteProfile where
  id : Uuid
  displayName : String
  serverUrl : String
  selectedNamespaceId : Option Uuid
  automaticNamespaceSelection : Bool
  createdAt : String
  updatedAt : String
deriving DecidableEq, Repr

structure RemoteConfigFile where
  schemaVersion : UInt32
  profiles : List RemoteProfile
deriving DecidableEq, Repr

def remoteConfigSchemaVersion : UInt32 := 1

-- Each call with the time it draws.
inductive RemoteCall where
  | upsert (remoteId : Uuid) (displayName serverUrl now : String)
  | selectNamespace (remoteId namespaceId : Uuid) (now : String)
  | setAutomaticNamespaceSelection (remoteId : Uuid) (enabled : Bool) (now : String)
deriving DecidableEq, Repr

variable (urls : Urls) (serde : Serde RemoteConfigFile)

def normalizeServerUrl (value : String) : Except String Url := do
  let url ← found (urls.parse (String.ofList (Server.trim value))) "server URL is invalid"
  ensure (url.scheme = "http" ∨ url.scheme = "https") "server URL must use http or https"
  ensure (url.host ≠ none) "server URL must include a host"
  ensure (url.username = "" ∧ url.password = none) "server URL must not contain credentials"
  ensure (url.query = none ∧ url.fragment = none) "server URL must not contain a query or fragment"
  return if url.path.toList.getLast? = some '/' then url else urls.setPath url (url.path ++ "/")

-- The first entry that is chosen is changed.
def modifyFirst {α : Type} (chosen : α → Bool) (change : α → α) : List α → Option (α × List α)
  | [] => none
  | entry :: rest =>
      if chosen entry then some (change entry, change entry :: rest)
      else (modifyFirst chosen change rest).map fun changed => (changed.1, entry :: changed.2)

def checkRemote : RemoteCall → Except String RemoteCall
  | .upsert remoteId displayName serverUrl now => do
      let name := Server.trim displayName
      ensure (name ≠ [] ∧ name.length ≤ 128) "remote display name must contain 1 to 128 characters"
      ensure (name.any Server.isControl = false) "remote display name must not contain control characters"
      let url ← normalizeServerUrl urls serverUrl
      return .upsert remoteId (String.ofList name) url.text now
  | .selectNamespace remoteId namespaceId now => .ok (.selectNamespace remoteId namespaceId now)
  | .setAutomaticNamespaceSelection remoteId enabled now => .ok (.setAutomaticNamespaceSelection remoteId enabled now)

def upsertProfile (remoteId : Uuid) (displayName serverUrl now : String) (profiles : List RemoteProfile) :
    RemoteProfile × List RemoteProfile :=
  match modifyFirst (fun profile => profile.id = remoteId)
      (fun profile => { profile with displayName := displayName, serverUrl := serverUrl, updatedAt := now }) profiles with
  | some updated => updated
  | none =>
      let profile : RemoteProfile :=
        { id := remoteId, displayName := displayName, serverUrl := serverUrl, selectedNamespaceId := none,
          automaticNamespaceSelection := false, createdAt := now, updatedAt := now }
      (profile, profiles ++ [profile])

def modifyProfile (remoteId : Uuid) (change : RemoteProfile → RemoteProfile) (config : RemoteConfigFile) :
    Except String (RemoteConfigFile × RemoteProfile) := do
  let updated ← found (modifyFirst (fun profile => profile.id = remoteId) change config.profiles)
    ("remote profile " ++ remoteId.text ++ " was not found")
  return ({ config with profiles := updated.2 }, updated.1)

def changeRemote (call : RemoteCall) (config : RemoteConfigFile) : Except String (RemoteConfigFile × RemoteProfile) :=
  match call with
  | .upsert remoteId displayName serverUrl now =>
      let (profile, profiles) := upsertProfile remoteId displayName serverUrl now config.profiles
      .ok ({ config with profiles := profiles.insertionSort fun one other => one.createdAt ≤ other.createdAt }, profile)
  | .selectNamespace remoteId namespaceId now =>
      modifyProfile remoteId (fun profile => { profile with selectedNamespaceId := some namespaceId, updatedAt := now }) config
  | .setAutomaticNamespaceSelection remoteId enabled now =>
      modifyProfile remoteId (fun profile => { profile with automaticNamespaceSelection := enabled, updatedAt := now }) config

def decodeRemotes (bytes : Bytes) : Except String RemoteConfigFile := do
  let config ← serde.parse bytes
  ensure (config.schemaVersion = remoteConfigSchemaVersion)
    ("unsupported remote profile schema version " ++ toString config.schemaVersion.toNat)
  return config

def remoteProfileStore : Store RemoteConfigFile RemoteCall RemoteCall RemoteProfile RemoteProfile where
  default := { schemaVersion := remoteConfigSchemaVersion, profiles := [] }
  decode := decodeRemotes serde
  check := checkRemote urls
  change := changeRemote
  validate _ := .ok ()
  encode := serde.print
  answer := .inl

-- A profile is known by its id. No call deletes one.
def holdsProfile (file : Option Bytes) (remoteId : Uuid) : Prop :=
  ∃ bytes config, file = some bytes ∧ serde.parse bytes = .ok config ∧ remoteId ∈ config.profiles.map RemoteProfile.id

theorem modify_first_keys {α κ : Type} (key : α → κ) (chosen : α → Bool) (change : α → α)
    (same : ∀ entry, key (change entry) = key entry) (entries : List α) (changed : α × List α)
    (found : modifyFirst chosen change entries = some changed) :
    changed.2.map key = entries.map key := by
  induction entries generalizing changed with
  | nil => cases found
  | cons entry rest ih =>
      rw [modifyFirst] at found
      by_cases here : chosen entry = true
      · rw [if_pos here] at found
        cases found
        rw [List.map_cons, List.map_cons, same]
      · rw [if_neg here, Option.map_eq_some_iff] at found
        obtain ⟨inner, later, rfl⟩ := found
        rw [List.map_cons, List.map_cons, ih inner later]

theorem upsert_keys (remoteId : Uuid) (displayName serverUrl now : String) (profiles : List RemoteProfile) :
    profiles.map RemoteProfile.id <+: (upsertProfile remoteId displayName serverUrl now profiles).2.map RemoteProfile.id := by
  unfold upsertProfile
  split
  next updated matched =>
      have same : updated.2.map RemoteProfile.id = profiles.map RemoteProfile.id := by
        refine modify_first_keys RemoteProfile.id _ _ ?_ profiles updated matched
        intro other
        rfl
      simp only [same, List.prefix_rfl]
  next absent =>
      rw [List.map_append]
      exact List.prefix_append _ _

theorem modify_profile_keys (remoteId : Uuid) (change : RemoteProfile → RemoteProfile)
    (same : ∀ profile, (change profile).id = profile.id) (config : RemoteConfigFile) (changed : RemoteConfigFile × RemoteProfile)
    (done : modifyProfile remoteId change config = .ok changed) :
    changed.1.profiles.map RemoteProfile.id = config.profiles.map RemoteProfile.id := by
  simp only [modifyProfile, bind_ok, found_ok, pure_ok] at done
  obtain ⟨updated, matched, rfl⟩ := done
  exact modify_first_keys RemoteProfile.id _ change same config.profiles updated matched

theorem change_remote_keeps (call : RemoteCall) (config : RemoteConfigFile) (changed : RemoteConfigFile × RemoteProfile)
    (done : changeRemote call config = .ok changed) (remoteId : Uuid) (there : remoteId ∈ config.profiles.map RemoteProfile.id) :
    remoteId ∈ changed.1.profiles.map RemoteProfile.id := by
  cases call with
  | upsert own displayName serverUrl now =>
      cases done
      have moved := ((List.perm_insertionSort (fun one other : RemoteProfile => one.createdAt ≤ other.createdAt)
        (upsertProfile own displayName serverUrl now config.profiles).2).map RemoteProfile.id).mem_iff (a := remoteId)
      exact moved.mpr ((upsert_keys own displayName serverUrl now config.profiles).subset there)
  | selectNamespace own namespaceId now =>
      have kept := modify_profile_keys own _ ?_ config changed done
      · rwa [kept]
      · intro profile
        rfl
  | setAutomaticNamespaceSelection own enabled now =>
      have kept := modify_profile_keys own _ ?_ config changed done
      · rwa [kept]
      · intro profile
        rfl

theorem remotes_keep (faithful : serde.Faithful) :
    KeepsRules (remoteProfileStore urls serde) (holdsProfile serde) (fun _ _ _ => False) := by
  intro call file document bytes remoteId read performed there _
  obtain ⟨arguments, other, changed, _, again, changes, _, rfl⟩ := perform_loaded _ call file bytes performed
  rw [read] at again
  cases again
  obtain ⟨before, config, rfl, parsed, inside⟩ := there
  have same : config = document := by
    have decoded := (map_error_ok _ _ _).mp read
    simp only [remoteProfileStore, decodeRemotes, bind_ok, ensure_ok, pure_ok] at decoded
    obtain ⟨own, first, _, _, rfl⟩ := decoded
    rw [parsed] at first
    cases first
    rfl
  subst same
  exact ⟨_, changed.1, rfl, faithful changed.1,
    change_remote_keeps arguments config changed ((map_error_ok _ _ _).mp changes) remoteId inside⟩

end SessionSync.Config
