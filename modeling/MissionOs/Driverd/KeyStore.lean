import MissionOs.Driverd.HexDecoders
import MissionOs.Driverd.SignatureChecks
import MissionOs.Lib.ChangeLog

/-!
# The life of the key store

`TrustedKeyStore` of `verification.rs` from the files it is made of: `new` reads the key files of
a directory, and `add_key` and `remove_key` change the store later.  The parser of JSON is a
parameter, and so is the order in which the directory is listed.

What the store says about an id is the last word of a log, the keys of the files first and the
calls after them (`Follows`).  With `verifyPackage_wp` this says which keys a package can be
signed with at any time (`trust_follows_last_word`).
-/

namespace MissionOs.Driverd

open MissionOs.Rust MissionOs.Lib

/-! ## Key files -/

/-- `serde_json::Value`. -/
inductive Json where
  | null
  | bool (b : Bool)
  | number (text : String)
  | string (s : String)
  | array (items : List Json)
  | object (fields : List (String × Json))

namespace Json

/-- `Value::get` with the name of a field. -/
def get (v : Json) (field : String) : Option Json :=
  match v with
  | .object fields => fields.lookup field
  | _ => none

/-- `Value::as_str`. -/
def asStr : Json → Option String
  | .string s => some s
  | _ => none

end Json

/-- A file in the directory of the key store.  It has no content if it cannot be read as a
text. -/
structure KeyFile where
  name : String
  content : Option String

/-- `Path::extension`, of a file name. -/
def extension (name : List Char) : Option (List Char) :=
  let before := name.reverse.dropWhile (· ≠ '.')
  if name = ['.', '.'] ∨ before = [] ∨ before = ['.'] then none
  else some (name.reverse.takeWhile (· ≠ '.')).reverse

/-- The files that are read. -/
def KeyFile.isKeyFile (file : KeyFile) : Bool :=
  match extension file.name.toList with
  | some e => e = "pem".toList || e = "key".toList
  | none => false

section Parser

variable (fromStr : String → Option Json)

/-- `parse_key_file`. -/
def parseKeyFile (content : String) : Option TrustedKey := do
  let parsed ← fromStr content
  let id ← (← parsed.get "id").asStr
  let name := (((parsed.get "name").or (parsed.get "id")).bind Json.asStr).getD "Unknown Key"
  let keyHex ← (← parsed.get "public_key").asStr
  let publicKey ← Verification.hexDecode keyHex
  if publicKey.length ≠ 32 then none
  else some { id := id, name := name, publicKey := publicKey, enabled := true }

/-- The key that a file yields. -/
def KeyFile.key (file : KeyFile) : Option TrustedKey :=
  if file.isKeyFile then file.content.bind (parseKeyFile fromStr) else none

end Parser

/-! ## The store -/

namespace TrustedKeyStore

/-- A store without keys. -/
def empty : TrustedKeyStore := ⟨[], List.nodup_nil⟩

/-- `add_key`. -/
def addKey (store : TrustedKeyStore) (key : TrustedKey) : TrustedKeyStore where
  keys := key :: store.keys.filter (·.id ≠ key.id)
  nodup := by
    rw [List.map_cons, List.nodup_cons]
    constructor
    · rw [List.mem_map]
      rintro ⟨other, hother, hid⟩
      exact absurd hid (of_decide_eq_true (List.mem_filter.mp hother).2)
    · exact store.nodup.sublist (List.filter_sublist.map _)

/-- `remove_key`. -/
def removeKey (store : TrustedKeyStore) (id : String) : Bool × TrustedKeyStore :=
  ((store.getKey id).isSome,
    { keys := store.keys.filter (·.id ≠ id)
      nodup := store.nodup.sublist (List.filter_sublist.map _) })

/-- `is_trusted`. -/
def isTrusted (store : TrustedKeyStore) (publicKey : Bytes) : Bool :=
  store.keys.any fun key => key.enabled && key.publicKey == publicKey

/-- `load_keys`, of the files of the directory; there are none if it does not exist or cannot be
read. -/
def loadKeys (fromStr : String → Option Json) (store : TrustedKeyStore)
    (directory : Option (List KeyFile)) : TrustedKeyStore :=
  match directory with
  | none => store
  | some files =>
      files.foldl (fun store file =>
        match file.key fromStr with
        | some key => store.addKey key
        | none => store) store

/-- `new`. -/
def new (fromStr : String → Option Json) (directory : Option (List KeyFile)) : TrustedKeyStore :=
  empty.loadKeys fromStr directory

/-- A call that changes the store. -/
def change (store : TrustedKeyStore) : Change String TrustedKey → TrustedKeyStore
  | .put key => store.addKey key
  | .drop id => (store.removeKey id).2

/-! ## What stands under an id -/

variable {store : TrustedKeyStore} {key : TrustedKey} {id : String}

theorem mem_addKey {key' : TrustedKey} :
    key' ∈ (store.addKey key).keys ↔ key' = key ∨ key' ∈ store.keys ∧ key'.id ≠ key.id := by
  simp [addKey]

theorem mem_removeKey {key' : TrustedKey} :
    key' ∈ (store.removeKey id).2.keys ↔ key' ∈ store.keys ∧ key'.id ≠ id := by
  simp [removeKey]

/-- Two stores of which the same is known about an id. -/
theorem getKey_congr {store' : TrustedKeyStore}
    (h : ∀ key, key.id = id → (key ∈ store'.keys ↔ key ∈ store.keys)) :
    store'.getKey id = store.getKey id := by
  apply Option.ext
  intro key
  rw [getKey_eq_some_iff, getKey_eq_some_iff]
  exact and_congr_left fun hid => h key hid

theorem getKey_addKey : (store.addKey key).getKey id =
    if key.id = id then some key else store.getKey id := by
  split_ifs with hid
  · exact getKey_eq_some_iff.mpr ⟨mem_addKey.mpr (Or.inl rfl), hid⟩
  · apply getKey_congr
    intro key' hkey'
    rw [mem_addKey]
    constructor
    · rintro (rfl | h)
      · exact absurd hkey' hid
      · exact h.1
    · exact fun h => Or.inr ⟨h, fun heq => hid (heq.symm.trans hkey')⟩

theorem getKey_removeKey {id' : String} : (store.removeKey id').2.getKey id =
    if id' = id then none else store.getKey id := by
  split_ifs with hid
  · rw [Option.eq_none_iff_forall_ne_some]
    intro key hkey
    obtain ⟨hmem, hkid⟩ := getKey_eq_some_iff.mp hkey
    exact (mem_removeKey.mp hmem).2 (hkid.trans hid.symm)
  · apply getKey_congr
    intro key' hkey'
    rw [mem_removeKey]
    exact ⟨fun h => h.1, fun h => ⟨h, fun heq => hid (heq.symm.trans hkey')⟩⟩

/-- The store says of every id what the log says last. -/
def Follows (store : TrustedKeyStore) (log : List (Change String TrustedKey)) : Prop :=
  ∀ id, store.getKey id = current TrustedKey.id log id

theorem follows_empty : empty.Follows [] := fun _ => rfl

theorem Follows.change {log : List (Change String TrustedKey)} (h : store.Follows log)
    (c : Change String TrustedKey) : (store.change c).Follows (log ++ [c]) := by
  intro id
  rw [current_concat, ← h id]
  cases c with
  | put key => exact getKey_addKey
  | drop id' => exact getKey_removeKey

theorem Follows.run {log : List (Change String TrustedKey)} (h : store.Follows log)
    (calls : List (Change String TrustedKey)) :
    (calls.foldl TrustedKeyStore.change store).Follows (log ++ calls) := by
  induction calls generalizing store log with
  | nil => rwa [List.append_nil]
  | cons c calls ih =>
      have hnext := ih (h.change c)
      rwa [List.append_assoc, List.singleton_append] at hnext

/-- The keys of the files, as a log. -/
def loadedKeys (fromStr : String → Option Json) (directory : Option (List KeyFile)) :
    List (Change String TrustedKey) :=
  (directory.getD []).filterMap fun file => (file.key fromStr).map .put

/-- The store is made of the keys of the files, one after the other. -/
theorem new_eq (fromStr : String → Option Json) (directory : Option (List KeyFile)) :
    new fromStr directory = (loadedKeys fromStr directory).foldl change empty := by
  cases directory with
  | none => rfl
  | some files =>
      show files.foldl _ empty =
        (files.filterMap fun file => (file.key fromStr).map Change.put).foldl _ _
      rw [List.foldl_filterMap]
      apply congrArg fun f => files.foldl f empty
      funext store file
      cases file.key fromStr with
      | none => rfl
      | some key => rfl

/-- A store after its files and some calls. -/
theorem follows_of_run (fromStr : String → Option Json) (directory : Option (List KeyFile))
    (calls : List (Change String TrustedKey)) :
    (calls.foldl change (new fromStr directory)).Follows
      (loadedKeys fromStr directory ++ calls) := by
  rw [new_eq]
  exact (follows_empty.run (loadedKeys fromStr directory)).run calls

/-- Its keys are those that the log put last under their ids. -/
theorem Follows.mem_keys_iff {log : List (Change String TrustedKey)} (h : store.Follows log) :
    key ∈ store.keys ↔ Latest TrustedKey.id log key := by
  have hget := h key.id
  constructor
  · intro hmem
    rw [getKey_eq_some_iff.mpr ⟨hmem, rfl⟩, eq_comm, current_eq_some_iff] at hget
    exact hget.1
  · intro hlatest
    rw [current_eq_some_iff.mpr ⟨hlatest, rfl⟩, getKey_eq_some_iff] at hget
    exact hget.1

theorem Follows.isTrusted_iff {log : List (Change String TrustedKey)} (h : store.Follows log)
    {publicKey : Bytes} : store.isTrusted publicKey = true ↔
      ∃ key, Latest TrustedKey.id log key ∧ key.enabled = true ∧ key.publicKey = publicKey := by
  simp only [isTrusted, List.any_eq_true, Bool.and_eq_true, beq_iff_eq, h.mem_keys_iff]

theorem Follows.accepts_iff {log : List (Change String TrustedKey)} (h : store.Follows log)
    {env : Env} {data signature : Bytes} : store.Accepts env data signature ↔
      ∃ key, Latest TrustedKey.id log key ∧ key.enabled = true ∧
        key.Accepts env data signature := by
  simp only [TrustedKeyStore.Accepts, mem_enabledKeys_iff, h.mem_keys_iff, and_assoc]

end TrustedKeyStore

/-! ## Which files yield a key -/

/-- What a text says about a key: the id and the 32 bytes as strings, and a name, which the id
replaces where there is none. -/
structure Describes (fromStr : String → Option Json) (content : String) (key : TrustedKey) :
    Prop where
  fields : ∃ parsed hex, fromStr content = some parsed ∧
    parsed.get "id" = some (.string key.id) ∧
    parsed.get "public_key" = some (.string hex) ∧
    Verification.hexDecode hex = some key.publicKey ∧
    (parsed.get "name" = none ∧ key.name = key.id ∨
      ∃ name, parsed.get "name" = some name ∧ key.name = name.asStr.getD "Unknown Key")
  length : key.publicKey.length = 32
  enabled : key.enabled = true

theorem Json.asStr_eq_some_iff {v : Json} {s : String} : v.asStr = some s ↔ v = .string s := by
  cases v <;> simp [Json.asStr]

theorem parseKeyFile_eq_some_iff {fromStr : String → Option Json} {content : String}
    {key : TrustedKey} : parseKeyFile fromStr content = some key ↔
      Describes fromStr content key := by
  simp only [parseKeyFile, Option.bind_eq_bind, Option.bind_eq_some_iff, Json.asStr_eq_some_iff]
  constructor
  · rintro ⟨parsed, hparsed, _, hid, id, rfl, _, hhex, hex, rfl, publicKey, hkey, hlength⟩
    split_ifs at hlength with hwrong
    cases hlength
    refine ⟨⟨parsed, hex, hparsed, hid, hhex, hkey, ?_⟩, not_not.mp hwrong, rfl⟩
    cases hname : parsed.get "name" with
    | none =>
        left
        rw [hid]
        exact ⟨rfl, rfl⟩
    | some name => exact Or.inr ⟨name, rfl, rfl⟩
  · rintro ⟨⟨parsed, hex, hparsed, hid, hhex, hkey, hname⟩, hlength, henabled⟩
    refine ⟨parsed, hparsed, _, hid, key.id, rfl, _, hhex, hex, rfl, key.publicKey, hkey, ?_⟩
    rw [if_neg (not_not_intro hlength)]
    have hsame : (((parsed.get "name").or (parsed.get "id")).bind Json.asStr).getD "Unknown Key" =
        key.name := by
      rcases hname with ⟨hnone, heq⟩ | ⟨name, hsome, heq⟩
      · rw [hnone, hid, heq]
        rfl
      · rw [hsome, heq]
        rfl
    rw [hsame, ← henabled]

/-- The keys that are loaded are those of the key files that describe one. -/
theorem put_mem_loadedKeys_iff {fromStr : String → Option Json}
    {directory : Option (List KeyFile)} {key : TrustedKey} :
    .put key ∈ TrustedKeyStore.loadedKeys fromStr directory ↔
      ∃ file ∈ directory.getD [], file.isKeyFile = true ∧
        ∃ content, file.content = some content ∧ Describes fromStr content key := by
  rw [TrustedKeyStore.loadedKeys, List.mem_filterMap]
  apply exists_congr
  intro file
  apply and_congr_right
  intro _
  rw [KeyFile.key]
  split_ifs with hkey
  · simp [hkey, Option.bind_eq_some_iff, parseKeyFile_eq_some_iff]
  · simp [hkey]

/-! ## What is trusted -/

/-- A key store over its life: started on a directory and changed by any calls, it trusts exactly
the keys that were put last under their ids and are enabled.  The ones it starts with are those
that a key file of the directory describes.  The outcome of a verification is valid exactly if a
trusted key accepts the signature over the package, whichever key is expected; and for a package
without a signature, if that is allowed. -/
theorem trust_follows_last_word (fromStr : String → Option Json)
    (directory : Option (List KeyFile)) (calls : List (Change String TrustedKey)) :
    let log := TrustedKeyStore.loadedKeys fromStr directory ++ calls
    let store := calls.foldl TrustedKeyStore.change (TrustedKeyStore.new fromStr directory)
    (∀ key, .put key ∈ TrustedKeyStore.loadedKeys fromStr directory ↔
      ∃ file ∈ directory.getD [], file.isKeyFile = true ∧
        ∃ content, file.content = some content ∧ Describes fromStr content key) ∧
    (∀ publicKey, store.isTrusted publicKey = true ↔
      ∃ key, Latest TrustedKey.id log key ∧ key.enabled = true ∧ key.publicKey = publicKey) ∧
    ∀ (env : Env) (allowUnsigned : Bool) (path : Path) (signature : Bytes)
      (signingKeyId : Option String) (w : World),
      wp (verifyPackage env ⟨store, allowUnsigned⟩ path signature signingKeyId)
        (fun r _ => r.outcome = .valid ↔
          if signature = [] then allowUnsigned = true
          else ∃ data key, w.nextRead env path = .ok data ∧ Latest TrustedKey.id log key ∧
            key.enabled = true ∧ key.Accepts env data signature) w := by
  intro log store
  have hfollows : store.Follows log := TrustedKeyStore.follows_of_run fromStr directory calls
  refine ⟨fun _ => put_mem_loadedKeys_iff, fun _ => hfollows.isTrusted_iff, ?_⟩
  intro env allowUnsigned path signature signingKeyId w
  apply wp_mono (verifyPackage_wp env ⟨store, allowUnsigned⟩ path signature signingKeyId w)
  rintro r w' ⟨-, hvalid⟩
  rw [hvalid, SignatureVerifier.Passes]
  by_cases hempty : signature = []
  · rw [if_pos hempty, if_pos hempty]
  · rw [if_neg hempty, if_neg hempty]
    apply exists_congr
    intro data
    show _ ∧ store.Accepts env data signature ↔ _
    rw [hfollows.accepts_iff, ← exists_and_left]

end MissionOs.Driverd
