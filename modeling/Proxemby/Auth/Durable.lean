import Proxemby.Lib.Machine
import Proxemby.Server.Reference

/-!
# The store across failures and crashes

Calls that change the sessions hold the lock of the map from the change to the end of the
write, so they come one after another.  The map is changed first, and a write that fails
leaves the state file behind it.  A crash keeps the state file and nothing else.
-/

namespace Proxemby.Store

/-- A call that changes the sessions. -/
inductive Call where
  | add (token : Str) (session : Session)
  | remove (token : Str)
  deriving DecidableEq

namespace Call

def token : Call → Str
  | .add token _ => token
  | .remove token => token

/-- The session of the token after the call. -/
def effect : Call → Option Session
  | .add _ session => some session
  | .remove _ => none

/-- The sessions after the call. -/
def change (sessions : Sessions) : Call → Sessions
  | .add token session => sessions.insert token session
  | .remove token => sessions.erase token

@[simp] theorem lookup_change (call : Call) (sessions : Sessions) :
    (call.change sessions).lookup call.token = call.effect := by
  cases call with
  | add token session => exact Finmap.lookup_insert sessions
  | remove token => exact Finmap.lookup_erase token sessions

theorem lookup_change_of_ne (call : Call) (sessions : Sessions) {token : Str}
    (other : token ≠ call.token) :
    (call.change sessions).lookup token = sessions.lookup token := by
  cases call with
  | add token' session => exact Finmap.lookup_insert_of_ne sessions other
  | remove token' => exact Finmap.lookup_erase_ne other

end Call

variable (crates : StoreCrates)

def perform (store : Store) (disk : Disk) (env : Env) : Call → Store × Disk × Except Str Unit
  | .add token session => store.add crates disk env token session
  | .remove token => store.remove crates disk env token

/-- The sessions of the state file; none when there is no such file. -/
def fileSessions (name : Str) (disk : Disk) : Sessions :=
  match (disk name).map crates.fileFromSlice with
  | some (.ok file) => file.sessions.getD ∅
  | _ => ∅

/-! ## One call -/

section Perform

variable {crates} {store : Store} {name : Str}

/-- A write that succeeds puts the sessions of the store into the file. -/
theorem fileSessions_save (documented : crates.Documented) (named : store.path = some name)
    {disk : Disk} {env : Env} (ok : (store.save crates disk env).2 = .ok ()) :
    fileSessions crates name (store.save crates disk env).1 = store.sessions := by
  obtain ⟨data, written, read⟩ := documented.file_read
    { secret := crates.standardEncode store.secret, sessions := some store.sessions }
  cases failure : env.writeError with
  | some e => simp [save, named, written, writePrivateFile, failure] at ok
  | none => simp [save, named, written, writePrivateFile, failure, fileSessions, read]

/-- A write that fails leaves the disk as it was. -/
theorem disk_save {disk : Disk} {env : Env} {e : Str}
    (error : (store.save crates disk env).2 = .error e) :
    (store.save crates disk env).1 = disk := by
  cases path : store.path with
  | none => simp [save, path] at error
  | some name =>
      cases text : crates.fileToVec
          { secret := crates.standardEncode store.secret, sessions := some store.sessions } with
      | error e => simp [save, path, text]
      | ok data =>
          cases failure : env.writeError with
          | some e => simp [save, path, text, writePrivateFile, failure]
          | none => simp [save, path, text, writePrivateFile, failure] at error

variable (crates) in
/-- A call is refused, finds nothing to do, or makes its change and then writes it. -/
theorem perform_cases (store : Store) (disk : Disk) (env : Env) (call : Call) :
    (∃ session, call = .add [] session ∧
      store.perform crates disk env call = (store, disk, .error "empty access token".toList)) ∨
    (∃ token, call = .remove token ∧ store.sessions.lookup token = none ∧
      store.perform crates disk env call = (store, disk, .ok ())) ∨
    ((∀ session, call ≠ .add [] session) ∧
      (∀ token, call = .remove token → store.sessions.lookup token ≠ none) ∧
      store.perform crates disk env call =
        ({ store with sessions := call.change store.sessions },
          ({ store with sessions := call.change store.sessions } : Store).save
            crates disk env)) := by
  cases call with
  | add token session =>
      by_cases empty : token = []
      · subst empty
        exact .inl ⟨session, rfl, by simp [perform, add]⟩
      · refine .inr (.inr ⟨by simp [empty], by simp, ?_⟩)
        simp [perform, add, empty, Call.change]
  | remove token =>
      cases known : store.sessions.lookup token with
      | none => exact .inr (.inl ⟨token, rfl, known, by simp [perform, remove, known]⟩)
      | some session =>
          refine .inr (.inr ⟨by simp, ?_, ?_⟩)
          · rintro _ ⟨⟩
            simp [known]
          · simp [perform, remove, known, Call.change]

/-- A call changes the session of its token and of no other. -/
theorem lookup_perform_of_ne (store : Store) (disk : Disk) (env : Env) (call : Call)
    {token : Str} (other : token ≠ call.token) :
    (store.perform crates disk env call).1.sessions.lookup token =
      store.sessions.lookup token := by
  rcases store.perform_cases crates disk env call with
    ⟨session, -, same⟩ | ⟨token', -, -, same⟩ | ⟨-, -, changed⟩
  · rw [same]
  · rw [same]
  · rw [changed]
    exact call.lookup_change_of_ne store.sessions other

variable (crates) in
theorem identity_perform (store : Store) (disk : Disk) (env : Env) (call : Call) :
    (store.perform crates disk env call).1.path = store.path ∧
      (store.perform crates disk env call).1.secret = store.secret := by
  rcases store.perform_cases crates disk env call with
    ⟨session, -, same⟩ | ⟨token', -, -, same⟩ | ⟨-, -, changed⟩
  · rw [same]
    exact ⟨rfl, rfl⟩
  · rw [same]
    exact ⟨rfl, rfl⟩
  · rw [changed]
    exact ⟨rfl, rfl⟩

/-- After a call that returns `Ok`, memory has its effect. -/
theorem lookup_perform {disk : Disk} {env : Env} {call : Call}
    (ok : (store.perform crates disk env call).2.2 = .ok ()) :
    (store.perform crates disk env call).1.sessions.lookup call.token = call.effect := by
  rcases store.perform_cases crates disk env call with
    ⟨session, -, refused⟩ | ⟨token, rfl, absent, same⟩ | ⟨-, -, changed⟩
  · rw [refused] at ok
    cases ok
  · rw [same]
    exact absent
  · rw [changed]
    exact call.lookup_change store.sessions

/-- After a call, the file has the sessions of the store, or it is as it was. -/
theorem disk_perform (documented : crates.Documented) (named : store.path = some name)
    (disk : Disk) (env : Env) (call : Call) :
    ((store.perform crates disk env call).2.2 = .ok () ∧
      fileSessions crates name (store.perform crates disk env call).2.1 =
        (store.perform crates disk env call).1.sessions) ∨
    (store.perform crates disk env call).2.1 = disk := by
  rcases store.perform_cases crates disk env call with
    ⟨session, -, same⟩ | ⟨token', -, -, same⟩ | ⟨-, -, changed⟩
  · rw [same]
    exact .inr rfl
  · rw [same]
    exact .inr rfl
  · rw [changed]
    cases result : (({ store with sessions := call.change store.sessions } : Store).save crates
        disk env).2 with
    | error e => exact .inr (disk_save result)
    | ok done =>
        have written := @fileSessions_save crates
          { store with sessions := call.change store.sessions } name documented named _ _ result
        exact .inl ⟨rfl, written⟩

theorem saved_perform (documented : crates.Documented) {disk : Disk} (env : Env) (call : Call)
    (before : Saved crates store.path store.secret disk) :
    Saved crates store.path store.secret (store.perform crates disk env call).2.1 := by
  cases call with
  | add token session => exact saved_add documented store env token session before
  | remove token => exact saved_remove documented store env token before

/-- What a start finds in a file with a secret. -/
theorem open_eq {secret : Bytes} {disk : Disk} {env : Env}
    (saved : Saved crates (some name) secret disk) (secure : secret ≠ [])
    (readable : env.readError = none) :
    Store.open crates (some name) disk env = (disk, .ok {
      path := some name
      secret
      sessions := fileSessions crates name disk }) := by
  obtain ⟨data, file, onDisk, read, decoded⟩ := saved name rfl
  simp [Store.open, load, readable, onDisk, read, decoded, secure, fileSessions]

end Perform

/-! ## Runs -/

/-- The disk, and the store of the process, if one runs. -/
structure Runtime where
  disk : Disk
  store : Option Store

/-- A call, or a crash with a start on the same file. -/
inductive Event where
  | call (call : Call) (env : Env)
  | reopen (env : Env)

def step (name : Str) (runtime : Runtime) : Event → Runtime × List (Except Str Unit)
  | .call call env =>
      match runtime.store with
      | none => (runtime, [])
      | some store =>
          let (store, disk, result) := store.perform crates runtime.disk env call
          ({ disk, store := some store }, [result])
  | .reopen env =>
      match Store.open crates (some name) runtime.disk env with
      | (disk, .error _) => ({ disk, store := none }, [])
      | (disk, .ok store) => ({ disk, store := some store }, [])

def lifetimes (name : Str) : Machine Runtime Event (Except Str Unit) where
  step := step crates name

section Runs

variable {crates} {name : Str} {secret : Bytes} {runtime : Runtime}

theorem next_call {call : Call} {env : Env} {store : Store}
    (runs : runtime.store = some store) :
    (lifetimes crates name).next runtime (.call call env) =
      { disk := (store.perform crates runtime.disk env call).2.1
        store := some (store.perform crates runtime.disk env call).1 } := by
  simp only [Machine.next, lifetimes, step, runs]

theorem outputs_call {call : Call} {env : Env} {store : Store}
    (runs : runtime.store = some store) :
    (lifetimes crates name).outputs runtime (.call call env) =
      [(store.perform crates runtime.disk env call).2.2] := by
  simp only [Machine.outputs, lifetimes, step, runs]

variable (crates name secret) in
/-- The file has the secret, and so has the store of the process. -/
structure Keeps (runtime : Runtime) : Prop where
  saved : Saved crates (some name) secret runtime.disk
  store : ∀ store, runtime.store = some store → store.path = some name ∧ store.secret = secret

theorem Keeps.next (documented : crates.Documented) (secure : secret ≠ [])
    (keeps : Keeps crates name secret runtime) (event : Event) :
    Keeps crates name secret ((lifetimes crates name).next runtime event) := by
  cases event with
  | call call env =>
      cases runs : runtime.store with
      | none => simpa [Machine.next, lifetimes, step, runs] using keeps
      | some store =>
          obtain ⟨named, same⟩ := keeps.store store runs
          have saved := saved_perform documented env call (named ▸ same ▸ keeps.saved)
          rw [named, same] at saved
          rw [next_call runs]
          refine ⟨saved, ?_⟩
          rintro _ ⟨⟩
          obtain ⟨path, kept⟩ := store.identity_perform crates runtime.disk env call
          exact ⟨path.trans named, kept.trans same⟩
  | reopen env =>
      cases readable : env.readError with
      | none =>
          simp only [Machine.next, lifetimes, step, open_eq keeps.saved secure readable]
          refine ⟨keeps.saved, ?_⟩
          rintro _ ⟨⟩
          exact ⟨rfl, rfl⟩
      | some e =>
          simp only [Machine.next, lifetimes, step, Store.open, load, readable]
          exact ⟨keeps.saved, fun _ none => by cases none⟩

/-! ## Calls that last -/

variable (crates name) in
/-- Memory and the file agree on the session of a token. -/
structure Settled (token : Str) (session : Option Session) (runtime : Runtime) : Prop where
  file : (fileSessions crates name runtime.disk).lookup token = session
  memory : ∀ store, runtime.store = some store → store.sessions.lookup token = session

/-- Nobody calls for a token. -/
def Quiet (token : Str) (runtime : Runtime) (event : Event) : Prop :=
  ∀ call env, event = .call call env → call.token = token → runtime.store = none

/-- What is settled stays so while nobody calls for the token: other calls write the memory
that agrees with the file, and a start reads the file. -/
theorem Settled.next (documented : crates.Documented) (secure : secret ≠ []) {token : Str}
    {session : Option Session} (settled : Settled crates name token session runtime)
    (keeps : Keeps crates name secret runtime) {event : Event}
    (quiet : Quiet token runtime event) :
    Settled crates name token session ((lifetimes crates name).next runtime event) := by
  cases event with
  | call call env =>
      cases runs : runtime.store with
      | none => simpa [Machine.next, lifetimes, step, runs] using settled
      | some store =>
          have other : token ≠ call.token := by
            intro same
            have down := quiet call env rfl same.symm
            rw [runs] at down
            cases down
          have memory : (store.perform crates runtime.disk env call).1.sessions.lookup token =
              session := by
            rw [lookup_perform_of_ne store runtime.disk env call other]
            exact settled.memory store runs
          rw [next_call runs]
          refine ⟨?_, ?_⟩
          · rcases disk_perform documented (keeps.store store runs).1 runtime.disk env call with
              ⟨-, written⟩ | same
            · rw [written]
              exact memory
            · rw [same]
              exact settled.file
          · rintro _ ⟨⟩
            exact memory
  | reopen env =>
      cases readable : env.readError with
      | none =>
          simp only [Machine.next, lifetimes, step, open_eq keeps.saved secure readable]
          refine ⟨settled.file, ?_⟩
          rintro _ ⟨⟩
          exact settled.file
      | some e =>
          simp only [Machine.next, lifetimes, step, Store.open, load, readable]
          exact ⟨settled.file, fun _ none => by cases none⟩

variable (crates name) in
/-- A call for a removal finds the token in memory, or it is not in the file either. -/
def FindsToken (runtime : Runtime) (event : Event) : Prop :=
  ∀ token env, event = .call (.remove token) env → ∀ store, runtime.store = some store →
    store.sessions.lookup token = none →
      (fileSessions crates name runtime.disk).lookup token = none

/-- A call that returns `Ok` settles its token, unless it is a removal that finds nothing
in memory but would have found something in the file. -/
theorem settled_call (documented : crates.Documented) {call : Call} {env : Env}
    (keeps : Keeps crates name secret runtime)
    (finds : FindsToken crates name runtime (.call call env))
    (ok : (lifetimes crates name).outputs runtime (.call call env) = [.ok ()]) :
    Settled crates name call.token call.effect
      ((lifetimes crates name).next runtime (.call call env)) := by
  cases runs : runtime.store with
  | none => simp [Machine.outputs, lifetimes, step, runs] at ok
  | some store =>
      rw [outputs_call runs, List.cons.injEq] at ok
      have memory := lookup_perform ok.1
      rw [next_call runs]
      refine ⟨?_, ?_⟩
      · rcases store.perform_cases crates runtime.disk env call with
          ⟨session, -, same⟩ | ⟨token, rfl, absent, same⟩ | ⟨-, -, changed⟩
        · rw [same] at ok
          cases ok.1
        · rw [same]
          exact finds token env rfl store runs absent
        · have result := ok.1
          rw [changed] at result ⊢
          have written := @fileSessions_save crates
            { store with sessions := call.change store.sessions } name documented
            (keeps.store store runs).1 _ _ result
          rw [written]
          exact call.lookup_change store.sessions
      · rintro _ ⟨⟩
        exact memory

variable (crates name) in
/-- Every call that has returned `Ok`, and after which nobody has called for its token, is
what a start finds. -/
def Durable (start : Runtime) (events : List Event) : Prop :=
  ∀ before call env after, events = before ++ .call call env :: after →
    (lifetimes crates name).outputs ((lifetimes crates name).run start before)
      (.call call env) = [.ok ()] →
    (lifetimes crates name).Along (Quiet call.token)
      ((lifetimes crates name).run start (before ++ [.call call env])) after →
    ∀ env' disk store, env'.readError = none →
      Store.open crates (some name) ((lifetimes crates name).run start events).disk env' =
        (disk, .ok store) →
      store.sessions.lookup call.token = call.effect

theorem keeps_run (documented : crates.Documented) (secure : secret ≠ [])
    (keeps : Keeps crates name secret runtime) (events : List Event) :
    Keeps crates name secret ((lifetimes crates name).run runtime events) :=
  (lifetimes crates name).run_invariant (Keeps crates name secret)
    (fun _ event keeps => keeps.next documented secure event) keeps events

theorem settled_run (documented : crates.Documented) (secure : secret ≠ []) {token : Str}
    {session : Option Session} (settled : Settled crates name token session runtime)
    (keeps : Keeps crates name secret runtime) {events : List Event}
    (quiet : (lifetimes crates name).Along (Quiet token) runtime events) :
    Settled crates name token session ((lifetimes crates name).run runtime events) :=
  ((lifetimes crates name).run_invariant_along
    (fun runtime => Settled crates name token session runtime ∧
      Keeps crates name secret runtime)
    (fun _ event quiet both =>
      ⟨both.1.next documented secure both.2 quiet, both.2.next documented secure event⟩)
    ⟨settled, keeps⟩ quiet).1

/-- Runs whose removals find their tokens are durable. -/
theorem durable_of_finds (documented : crates.Documented) (secure : secret ≠ [])
    (keeps : Keeps crates name secret runtime) {events : List Event}
    (finds : (lifetimes crates name).Along (FindsToken crates name) runtime events) :
    Durable crates name runtime events := by
  rintro before call env after rfl ok quiet env' disk store readable opened
  have keeps' := keeps_run documented secure keeps before
  have settled := settled_call documented keeps' (finds before _ after rfl) ok
  have next : (lifetimes crates name).run runtime (before ++ [.call call env]) =
      (lifetimes crates name).next ((lifetimes crates name).run runtime before)
        (.call call env) := (lifetimes crates name).run_append runtime before _
  rw [next] at quiet
  have last := settled_run documented secure settled
    (keeps'.next documented secure (.call call env)) quiet
  rw [← Machine.run_cons, ← Machine.run_append] at last
  have saved := (keeps_run documented secure keeps (before ++ .call call env :: after)).saved
  rw [open_eq saved secure readable, Prod.mk.injEq, Except.ok.injEq] at opened
  rw [← opened.2]
  exact last.file

/-- A removal that finds nothing in memory, but would have in the file, is undone by a
crash right after it. -/
theorem finds_of_durable (documented : crates.Documented) (secure : secret ≠ [])
    (keeps : Keeps crates name secret runtime) {events : List Event}
    (durable : ∀ before after, events = before ++ after → Durable crates name runtime before) :
    (lifetimes crates name).Along (FindsToken crates name) runtime events := by
  rintro before event after rfl token env rfl store runs absent
  have idle : store.perform crates ((lifetimes crates name).run runtime before).disk env
      (.remove token) = (store, ((lifetimes crates name).run runtime before).disk, .ok ()) := by
    simp [perform, remove, absent]
  have ok : (lifetimes crates name).outputs ((lifetimes crates name).run runtime before)
      (.call (.remove token) env) = [.ok ()] := by
    rw [outputs_call runs, idle]
  have disk : ((lifetimes crates name).run runtime
      (before ++ [.call (.remove token) env])).disk =
        ((lifetimes crates name).run runtime before).disk := by
    rw [Machine.run_append, Machine.run_cons, Machine.run_nil, next_call runs, idle]
  have saved := (keeps_run documented secure keeps before).saved
  have readable : ({ env with readError := none } : Env).readError = none := rfl
  have opened := open_eq saved secure readable
  rw [← disk] at opened
  have gone := durable (before ++ [.call (.remove token) env]) after (by simp) before _ env []
    rfl ok ((lifetimes crates name).along_nil _ _) _ _ _ readable opened
  rw [disk] at gone
  exact gone

/-- An open store keeps its secret. -/
theorem keeps_open (documented : crates.Documented) {disk disk' : Disk} {env : Env}
    {store : Store} (opened : Store.open crates (some name) disk env = (disk', .ok store)) :
    store.secret ≠ [] ∧ Keeps crates name store.secret ⟨disk', some store⟩ := by
  obtain ⟨secure, saved⟩ := open_saved documented opened
  obtain ⟨-, -, -, path, -, -⟩ := open_spec opened
  refine ⟨secure, saved, ?_⟩
  rintro _ ⟨⟩
  exact ⟨path, rfl⟩

end Runs

/-- The store is durable, for every order of calls, failed writes and crashes: a start gives
the same secret, and the last call for a token that returned `Ok` lasts until the next one
for it.  The second holds all along a run just when no removal is asked for a token that
memory has lost and the file still has, which is what a removal whose write failed leaves. -/
theorem durable_iff {crates : StoreCrates} (documented : crates.Documented) {name : Str}
    {disk disk' : Disk} {env : Env} {store : Store}
    (opened : Store.open crates (some name) disk env = (disk', .ok store))
    (events : List Event) :
    let start : Runtime := ⟨disk', some store⟩
    (∀ env', env'.readError = none → ∃ sessions,
      Store.open crates (some name) ((lifetimes crates name).run start events).disk env' =
        (((lifetimes crates name).run start events).disk,
          .ok { path := some name, secret := store.secret, sessions })) ∧
    ((∀ before after, events = before ++ after → Durable crates name start before) ↔
      (lifetimes crates name).Along (FindsToken crates name) start events) := by
  intro start
  obtain ⟨secure, keeps⟩ := keeps_open documented opened
  refine ⟨?_, ?_, ?_⟩
  · intro env' readable
    exact ⟨_, open_eq (keeps_run documented secure keeps events).saved secure readable⟩
  · exact finds_of_durable documented secure keeps
  · rintro finds before after rfl
    apply durable_of_finds documented secure keeps
    rintro earlier event later rfl
    exact finds earlier event (later ++ after) (by simp)

/-- The session of the login in the examples. -/
def kenSession : Session := .new Reference.env "proxemby".toList "1".toList "ken".toList

theorem open_reference : Store.open Reference.crates.toStoreCrates (some "auth.json".toList)
    (fun _ => none) Reference.env = (Reference.disk, .ok Reference.store) := rfl

/-- A session that was added is there after a crash. -/
theorem durable_iff_login :
    Durable Reference.crates.toStoreCrates "auth.json".toList
      ⟨Reference.disk, some Reference.store⟩
      [.call (.add "tok".toList kenSession) Reference.env, .reopen Reference.env] := by
  have law := (durable_iff Reference.documented open_reference
    [.call (.add "tok".toList kenSession) Reference.env, .reopen Reference.env]).2
  refine law.mpr ?_ _ [] (List.append_nil _).symm
  rintro before event after split token env rfl
  have member : Event.call (.remove token) env ∈
      [.call (.add "tok".toList kenSession) Reference.env, .reopen Reference.env] := by
    rw [split]
    exact List.mem_append_right before List.mem_cons_self
  simp at member

/-- A session that could not be removed in the file, and was removed again in memory only,
is back after a crash. -/
theorem removed_session_returns :
    let full := { Reference.env with writeError := some "disk full".toList }
    ¬Durable Reference.crates.toStoreCrates "auth.json".toList
      ⟨Reference.disk, some Reference.store⟩
      [.call (.add "tok".toList kenSession) Reference.env, .call (.remove "tok".toList) full,
        .call (.remove "tok".toList) Reference.env] := by
  intro full durable
  obtain ⟨secure, keeps⟩ := keeps_open Reference.documented open_reference
  have gone := durable [.call (.add "tok".toList kenSession) Reference.env,
    .call (.remove "tok".toList) full] (.remove "tok".toList) Reference.env [] rfl
    (by decide +kernel) (Machine.along_nil _ _ _) Reference.env _ _ rfl
    (open_eq (keeps_run Reference.documented secure keeps _).saved secure rfl)
  revert gone
  decide +kernel

/-! ## Calls that fail -/

/-- A call that returns an error leaves the state file as it was.  Memory has changed all
the same, unless the call was refused or memory had its effect before; the next write that
succeeds takes the change to the file. -/
theorem perform_error {crates : StoreCrates} (documented : crates.Documented) {store : Store}
    {disk : Disk} {env : Env} {call : Call} {e : Str}
    (failed : (store.perform crates disk env call).2.2 = .error e) :
    (store.perform crates disk env call).2.1 = disk ∧
    (((∃ session, call = .add [] session) ∧ (store.perform crates disk env call).1 = store) ∨
      ((∀ session, call ≠ .add [] session) ∧
        (store.perform crates disk env call).1 =
          { store with sessions := call.change store.sessions } ∧
        ((store.perform crates disk env call).1 = store ↔
          store.sessions.lookup call.token = call.effect) ∧
        ∀ name ∈ store.path, ∀ disk' env',
          ((store.perform crates disk env call).1.save crates disk' env').2 = .ok () →
            fileSessions crates name
              ((store.perform crates disk env call).1.save crates disk' env').1 =
                call.change store.sessions)) := by
  rcases store.perform_cases crates disk env call with
    ⟨session, refused, same⟩ | ⟨token, -, -, same⟩ | ⟨named, -, changed⟩
  · rw [same]
    exact ⟨rfl, .inl ⟨⟨session, refused⟩, rfl⟩⟩
  · rw [same] at failed
    cases failed
  · rw [changed] at failed ⊢
    refine ⟨disk_save failed, .inr ⟨named, rfl, ?_, ?_⟩⟩
    · constructor
      · intro same
        have whole : call.change store.sessions = store.sessions := congrArg Store.sessions same
        rw [← call.lookup_change store.sessions, whole]
      · intro known
        have same : call.change store.sessions = store.sessions := by
          apply Finmap.ext_lookup
          intro token
          by_cases own : token = call.token
          · rw [own, call.lookup_change, known]
          · exact call.lookup_change_of_ne store.sessions own
        simp only [same]
    · intro name member disk' env' ok
      exact @fileSessions_save crates { store with sessions := call.change store.sessions } name
        documented member _ _ ok

/-- A session that could not be written is there in memory. -/
theorem perform_error_add :
    let full := { Reference.env with writeError := some "disk full".toList }
    let after := Reference.store.perform Reference.crates.toStoreCrates Reference.disk full
      (.add "tok".toList kenSession)
    after.2.1 = Reference.disk ∧ after.1.sessions.lookup "tok".toList = some kenSession := by
  intro full after
  obtain ⟨disk, refused | ⟨-, changed, -⟩⟩ := perform_error Reference.documented
    (show after.2.2 = .error "save auth state: disk full".toList from rfl)
  · simp at refused
  · refine ⟨disk, ?_⟩
    rw [show after.1 = _ from changed]
    exact Finmap.lookup_insert _

/-- A call that fails can change what is valid. -/
theorem failed_add_is_valid :
    let full := { Reference.env with writeError := some "disk full".toList }
    let after := Reference.store.perform Reference.crates.toStoreCrates Reference.disk full
      (.add "tok".toList kenSession)
    after.2.2 = .error "save auth state: disk full".toList ∧
      after.1.isValid "tok".toList "proxemby".toList = true ∧
      Reference.store.isValid "tok".toList "proxemby".toList = false := by
  decide +kernel

end Proxemby.Store
