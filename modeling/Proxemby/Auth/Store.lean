import Mathlib.Data.Finmap
import Proxemby.Util

/-!
# The session store

`Store` of `src/auth.rs`: the sessions accepted by the allowed-users check and
the secret that signs resource URLs, both kept in a state file.  Hashing, base64
and the JSON form of the file come from other crates and are parameters.  What a
call learns from the operating system is one value, `Env`, so the functions are
pure: they take the disk and give it back.
-/

namespace Proxemby

open Utf8

structure Session where
  route : Str
  userId : Str
  userName : Str
  createdAt : Str
  deriving DecidableEq

/-- Sessions by access token. -/
abbrev Sessions := Finmap fun _ : Str => Session

/-- The content of the state file. -/
structure StoreFile where
  secret : Str
  sessions : Option Sessions
  deriving DecidableEq

/-- The crates the store calls: HMAC-SHA256, base64 in the standard alphabet and
in the URL-safe one without padding, and the JSON form of the state file. -/
structure StoreCrates where
  hmacSha256 : Bytes → Bytes → Bytes
  standardEncode : Bytes → Str
  standardDecode : Str → Except Str Bytes
  urlSafeEncode : Bytes → Str
  urlSafeDecode : Str → Option Bytes
  fileToVec : StoreFile → Except Str Bytes
  fileFromSlice : Bytes → Except Str StoreFile

/-- What those crates document: a MAC has 32 octets, every decoder undoes its
encoder, and the URL-safe form of 16 octets is 22 letters, digits, `-` or `_`. -/
structure StoreCrates.Documented (crates : StoreCrates) : Prop where
  hmac_length : ∀ key message, (crates.hmacSha256 key message).length = 32
  standard_decode : ∀ bytes, crates.standardDecode (crates.standardEncode bytes) = .ok bytes
  urlSafe_decode : ∀ bytes, crates.urlSafeDecode (crates.urlSafeEncode bytes) = some bytes
  urlSafe_letters : ∀ bytes, ∀ c ∈ crates.urlSafeEncode bytes,
    c.isAlphanum ∨ c = '-' ∨ c = '_'
  urlSafe_length : ∀ bytes, bytes.length = 16 → (crates.urlSafeEncode bytes).length = 22
  file_read : ∀ file, ∃ data, crates.fileToVec file = .ok data ∧
    crates.fileFromSlice data = .ok file

/-- Fresh key material. -/
abbrev Secret := { bytes : Bytes // bytes.length = 32 }

/-- What the operating system answers during a call: the time, as
`format_time` writes it, the failure of a read other than a missing file, random
octets, and the failure of a write. -/
structure Env where
  now : Str
  readError : Option Str
  random : Except Str Secret
  writeError : Option Str

/-- Files by path; a missing file is `none`. -/
abbrev Disk := Str → Option Bytes

/-- `write_private_file`: the data goes to a temporary file that is renamed over
`path` last, so a failure at any point leaves `path` as it was. -/
def writePrivateFile (disk : Disk) (env : Env) (path : Str) (data : Bytes) :
    Disk × Except Str Unit :=
  match env.writeError with
  | none => (Function.update disk path (some data), .ok ())
  | some e => (disk, .error e)

structure Store where
  path : Option Str
  secret : Bytes
  sessions : Sessions

namespace Session

def new (env : Env) (route userId userName : Str) : Session where
  route
  userId
  userName
  createdAt := env.now

end Session

namespace Store

variable (crates : StoreCrates)

def save (store : Store) (disk : Disk) (env : Env) : Disk × Except Str Unit :=
  match store.path with
  | none => (disk, .ok ())
  | some path =>
      match crates.fileToVec
          { secret := crates.standardEncode store.secret, sessions := some store.sessions } with
      | .error e => (disk, .error e)
      | .ok data =>
          match writePrivateFile disk env path data with
          | (disk, .ok ()) => (disk, .ok ())
          | (disk, .error e) => (disk, .error ("save auth state: ".toList ++ e))

/-- The secret and the sessions of the state file; both empty when there is no
file. -/
def load (path : Option Str) (disk : Disk) (env : Env) : Except Str (Bytes × Sessions) :=
  match path with
  | none => .ok ([], ∅)
  | some path =>
      let failed := "load auth state ".toList ++ path ++ ": ".toList
      match env.readError with
      | some e => .error (failed ++ e)
      | none =>
          match disk path with
          | none => .ok ([], ∅)
          | some data =>
              match crates.fileFromSlice data with
              | .error e => .error (failed ++ e)
              | .ok file =>
                  match crates.standardDecode file.secret with
                  | .error e => .error (failed ++ "invalid secret: ".toList ++ e)
                  | .ok secret => .ok (secret, file.sessions.getD ∅)

/-- Open the state file, creating it when missing.  Without a path everything is
kept in memory. -/
def «open» (path : Option Str) (disk : Disk) (env : Env) : Disk × Except Str Store :=
  match load crates path disk env with
  | .error e => (disk, .error e)
  | .ok (secret, sessions) =>
      if secret ≠ [] then (disk, .ok { path, secret, sessions })
      else
        match env.random with
        | .error e => (disk, .error ("generate auth secret: ".toList ++ e))
        | .ok fresh =>
            let store : Store := { path, secret := fresh, sessions }
            match store.save crates disk env with
            | (disk, .ok ()) => (disk, .ok store)
            | (disk, .error e) => (disk, .error e)

/-- Insert a session, then write the state file. -/
def add (store : Store) (disk : Disk) (env : Env) (token : Str) (session : Session) :
    Store × Disk × Except Str Unit :=
  if token = [] then (store, disk, .error "empty access token".toList)
  else
    let store := { store with sessions := store.sessions.insert token session }
    (store, store.save crates disk env)

def lookup (store : Store) (token : Str) : Option Session :=
  if token = [] then none else store.sessions.lookup token

/-- Whether a token belongs to a session on a route. -/
def isValid (store : Store) (token route : Str) : Bool :=
  token ≠ [] && (store.sessions.lookup token).any fun session => session.route = route

/-- Drop a session, then write the state file; an unknown token changes nothing. -/
def remove (store : Store) (disk : Disk) (env : Env) (token : Str) :
    Store × Disk × Except Str Unit :=
  match store.sessions.lookup token with
  | none => (store, disk, .ok ())
  | some _ =>
      let store := { store with sessions := store.sessions.erase token }
      (store, store.save crates disk env)

/-- HMAC-SHA256 over the parts, each with a zero octet after it. -/
def mac (secret : Bytes) (parts : List Str) : Bytes :=
  crates.hmacSha256 secret (parts.flatMap fun part => encode part ++ [0])

/-- A URL-safe signature for the given parts. -/
def sign (store : Store) (parts : List Str) : Str :=
  crates.urlSafeEncode ((mac crates store.secret parts).take 16)

def verify (store : Store) (signature : Str) (parts : List Str) : Bool :=
  match crates.urlSafeDecode signature with
  | some decoded =>
      decoded.length = 16 && (mac crates store.secret parts).take 16 = decoded
  | none => false

/-! ## What each operation does -/

variable {crates}

/-- A token is valid on the route of its session. -/
theorem isValid_iff {store : Store} {token route : Str} :
    store.isValid token route = true ↔
      token ≠ [] ∧ ∃ session, store.sessions.lookup token = some session ∧
        session.route = route := by
  simp [isValid, Option.any_eq_true]

/-- The store verifies what it signs. -/
theorem verify_sign (documented : crates.Documented) (store : Store) (parts : List Str) :
    store.verify crates (store.sign crates parts) parts = true := by
  simp [verify, sign, documented.urlSafe_decode, mac, documented.hmac_length]

theorem sign_length (documented : crates.Documented) (store : Store) (parts : List Str) :
    (store.sign crates parts).length = 22 := by
  apply documented.urlSafe_length
  simp [mac, documented.hmac_length]

/-- `add` inserts one session, whether or not the file could be written. -/
theorem add_fst (store : Store) (disk : Disk) (env : Env) {token : Str} (named : token ≠ [])
    (session : Session) :
    (store.add crates disk env token session).1 =
      { store with sessions := store.sessions.insert token session } := by
  simp [add, named]

/-- `remove` drops one session, whether or not the file could be written. -/
theorem remove_fst (store : Store) (disk : Disk) (env : Env) (token : Str) :
    (store.remove crates disk env token).1 =
      { store with sessions := store.sessions.erase token } := by
  cases known : store.sessions.lookup token with
  | some session => simp [remove, known]
  | none =>
      have absent : token ∉ store.sessions := Finmap.lookup_eq_none.mp known
      have same : store.sessions.erase token = store.sessions := by
        apply Finmap.ext_lookup
        intro other
        by_cases equal : other = token
        · rw [equal, Finmap.lookup_erase, known]
        · rw [Finmap.lookup_erase_ne equal]
      simp [remove, known, same]

/-! ## The state file -/

variable (crates) in
/-- The state file, if there is one, is on the disk and holds a secret. -/
def Saved (path : Option Str) (secret : Bytes) (disk : Disk) : Prop :=
  ∀ name ∈ path, ∃ data file, disk name = some data ∧ crates.fileFromSlice data = .ok file ∧
    crates.standardDecode file.secret = .ok secret

/-- `save` puts the secret of the store on the disk, or leaves the disk alone. -/
theorem save_cases (documented : crates.Documented) (store : Store) (disk : Disk) (env : Env) :
    Saved crates store.path store.secret (store.save crates disk env).1 ∨
      ∃ e, store.save crates disk env = (disk, .error e) := by
  cases path : store.path with
  | none => exact .inl (by simp [Saved])
  | some name =>
      obtain ⟨data, written, read⟩ := documented.file_read
        { secret := crates.standardEncode store.secret, sessions := some store.sessions }
      cases failure : env.writeError with
      | some e => exact .inr ⟨_, by simp [save, path, written, writePrivateFile, failure]; rfl⟩
      | none =>
          left
          have saved : (store.save crates disk env).1 = Function.update disk name (some data) := by
            simp [save, path, written, writePrivateFile, failure]
          rw [saved]
          intro other same
          rw [Option.mem_some_iff] at same
          subst same
          exact ⟨data, _, Function.update_self .., read, documented.standard_decode store.secret⟩

theorem saved_save (documented : crates.Documented) (store : Store) {disk : Disk} (env : Env)
    (before : Saved crates store.path store.secret disk) :
    Saved crates store.path store.secret (store.save crates disk env).1 := by
  rcases store.save_cases documented disk env with saved | ⟨e, failed⟩
  · exact saved
  · rwa [failed]

theorem saved_add (documented : crates.Documented) (store : Store) {disk : Disk} (env : Env)
    (token : Str) (session : Session) (before : Saved crates store.path store.secret disk) :
    Saved crates store.path store.secret (store.add crates disk env token session).2.1 := by
  rw [add]
  split
  · exact before
  · exact saved_save documented { store with sessions := store.sessions.insert token session } env
      before

theorem saved_remove (documented : crates.Documented) (store : Store) {disk : Disk} (env : Env)
    (token : Str) (before : Saved crates store.path store.secret disk) :
    Saved crates store.path store.secret (store.remove crates disk env token).2.1 := by
  rw [remove]
  split
  · exact before
  · exact saved_save documented { store with sessions := store.sessions.erase token } env before

/-- What `load` reads is on the disk. -/
theorem saved_of_load {path : Option Str} {disk : Disk} {env : Env} {secret : Bytes}
    {sessions : Sessions} (loaded : load crates path disk env = .ok (secret, sessions))
    (named : secret ≠ []) : Saved crates path secret disk := by
  intro name same
  rw [Option.mem_def] at same
  subst same
  simp only [load] at loaded
  split at loaded
  · cases loaded
  · split at loaded
    · cases loaded
      exact absurd rfl named
    · next data onDisk =>
        split at loaded
        · cases loaded
        · next file read =>
            split at loaded
            · cases loaded
            · next decoded =>
                cases loaded
                exact ⟨data, file, onDisk, read, decoded⟩

/-- A saved secret is what the store opens with. -/
theorem open_of_saved {name : Str} {secret : Bytes} {disk : Disk} {env : Env}
    (saved : Saved crates (some name) secret disk) (named : secret ≠ [])
    (readable : env.readError = none) :
    ∃ sessions, «open» crates (some name) disk env =
      (disk, .ok { path := some name, secret, sessions }) := by
  obtain ⟨data, file, onDisk, read, decoded⟩ := saved name rfl
  refine ⟨file.sessions.getD ∅, ?_⟩
  simp [«open», load, readable, onDisk, read, decoded, named]

/-- What `Store::open` gives: the sessions of the file, and its secret unless it has
none. -/
theorem open_spec {path : Option Str} {disk disk' : Disk} {env : Env} {store : Store}
    (opened : «open» crates path disk env = (disk', .ok store)) :
    ∃ secret sessions, load crates path disk env = .ok (secret, sessions) ∧
      store.path = path ∧ store.sessions = sessions ∧
      ((secret ≠ [] ∧ store.secret = secret ∧ disk' = disk) ∨
        (secret = [] ∧ ∃ fresh : Secret, env.random = .ok fresh ∧ store.secret = fresh ∧
          store.save crates disk env = (disk', .ok ()))) := by
  unfold Store.open at opened
  split at opened
  · simp at opened
  · next secret sessions loaded =>
      refine ⟨secret, sessions, loaded, ?_⟩
      split at opened
      · next kept =>
          simp only [Prod.mk.injEq, Except.ok.injEq] at opened
          obtain ⟨rfl, rfl⟩ := opened
          exact ⟨rfl, rfl, .inl ⟨kept, rfl, rfl⟩⟩
      · next empty =>
          split at opened
          · simp at opened
          · next fresh drawn =>
              dsimp only at opened
              split at opened
              · next disk'' saved =>
                  simp only [Prod.mk.injEq, Except.ok.injEq] at opened
                  obtain ⟨rfl, rfl⟩ := opened
                  exact ⟨rfl, rfl, .inr ⟨by simpa using empty, fresh, drawn, rfl, saved⟩⟩
              · simp at opened

/-- An open store has a secret, and the secret is on the disk. -/
theorem open_saved (documented : crates.Documented) {path : Option Str} {disk disk' : Disk}
    {env : Env} {store : Store} (opened : «open» crates path disk env = (disk', .ok store)) :
    store.secret ≠ [] ∧ Saved crates path store.secret disk' := by
  obtain ⟨secret, sessions, loaded, rfl, -, old | ⟨-, fresh, -, new, saved⟩⟩ := open_spec opened
  · obtain ⟨named, rfl, rfl⟩ := old
    exact ⟨named, saved_of_load loaded named⟩
  · constructor
    · rw [new]
      intro empty
      have length := fresh.2
      rw [empty] at length
      cases length
    · rcases store.save_cases documented disk env with done | ⟨e, failed⟩
      · rwa [saved] at done
      · rw [saved] at failed
        cases failed

end Store

end Proxemby
