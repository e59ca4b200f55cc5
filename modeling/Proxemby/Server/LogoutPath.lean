import Proxemby.Server.Normalisation

/-!
# Where a rejected login is logged out

`is_login_path` finds the login endpoint at the end of a path, and `logout_upstream` cuts
the forwarded path at the last segment that reads `users`.
-/

namespace Proxemby

open Text

/-- The segments of a login endpoint, with the user id if it has one. -/
inductive LoginEnd : List Str → Option Str → Prop where
  | byName {users action : Str} (isUsers : eqIgnoreAsciiCase users "users".toList = true)
      (isAction : eqIgnoreAsciiCase action "authenticatebyname".toList = true) :
      LoginEnd [users, action] none
  | byId {users id action : Str} (isUsers : eqIgnoreAsciiCase users "users".toList = true)
      (segment : '/' ∉ id)
      (isAction : eqIgnoreAsciiCase action "authenticate".toList = true) :
      LoginEnd [users, id, action] (some id)

/-- The path is `before` and a login endpoint, with slashes behind it. -/
def LoginAt (path before : Str) (user : Option Str) : Prop :=
  ∃ ends slashes, LoginEnd ends user ∧
    let endpoint := ['/'].intercalate ends ++ List.replicate slashes '/'
    path = before ++ '/' :: endpoint ∨ before = [] ∧ path = endpoint

/-! ## Segments of a login path -/

theorem eqIgnoreAsciiCase_other {segment word other : Str}
    (same : eqIgnoreAsciiCase segment word = true)
    (apart : toAsciiLowercase word ≠ toAsciiLowercase other) :
    eqIgnoreAsciiCase segment other = false := by
  rw [← Bool.not_eq_true, eqIgnoreAsciiCase_iff, eqIgnoreAsciiCase_iff.mp same]
  exact apart

namespace LoginEnd

variable {ends : List Str} {user : Option Str}

theorem slash_notMem (login : LoginEnd ends user) : ∀ segment ∈ ends, '/' ∉ segment := by
  cases login with
  | byName isUsers isAction =>
      have users := notMem_of_eqIgnoreAsciiCase (c := '/') isUsers (by decide)
      have action := notMem_of_eqIgnoreAsciiCase (c := '/') isAction (by decide)
      simp [users, action]
  | byId isUsers segment isAction =>
      have users := notMem_of_eqIgnoreAsciiCase (c := '/') isUsers (by decide)
      have action := notMem_of_eqIgnoreAsciiCase (c := '/') isAction (by decide)
      simp [users, segment, action]

/-- Login endpoints are what matches one of the patterns of `is_login_path` in small letters. -/
theorem exists_iff (fresh : ∀ segment ∈ ends, '/' ∉ segment) :
    (∃ user, LoginEnd ends user) ↔
      ends.map toAsciiLowercase = ["users".toList, "authenticatebyname".toList] ∨
      ∃ id, ends.map toAsciiLowercase = ["users".toList, id, "authenticate".toList] := by
  constructor
  · rintro ⟨user, login⟩
    cases login with
    | byName isUsers isAction =>
        rw [List.map_cons, List.map_cons, eqIgnoreAsciiCase_iff.mp isUsers,
          eqIgnoreAsciiCase_iff.mp isAction]
        exact .inl rfl
    | @byId users id action isUsers segment isAction =>
        rw [List.map_cons, List.map_cons, List.map_cons, eqIgnoreAsciiCase_iff.mp isUsers,
          eqIgnoreAsciiCase_iff.mp isAction]
        exact .inr ⟨toAsciiLowercase id, rfl⟩
  · rintro (byName | ⟨id, byId⟩)
    · obtain ⟨users, _, rfl, isUsers, rest⟩ := List.map_eq_cons_iff.mp byName
      obtain ⟨action, _, rfl, isAction, rest⟩ := List.map_eq_cons_iff.mp rest
      obtain rfl := List.map_eq_nil_iff.mp rest
      exact ⟨none, .byName (eqIgnoreAsciiCase_iff.mpr isUsers) (eqIgnoreAsciiCase_iff.mpr isAction)⟩
    · obtain ⟨users, _, rfl, isUsers, rest⟩ := List.map_eq_cons_iff.mp byId
      obtain ⟨user, _, rfl, -, rest⟩ := List.map_eq_cons_iff.mp rest
      obtain ⟨action, _, rfl, isAction, rest⟩ := List.map_eq_cons_iff.mp rest
      obtain rfl := List.map_eq_nil_iff.mp rest
      exact ⟨some user, .byId (eqIgnoreAsciiCase_iff.mpr isUsers) (fresh user (by simp))
        (eqIgnoreAsciiCase_iff.mpr isAction)⟩

/-- Neither end of a login endpoint is empty. -/
theorem ends_ne_nil (login : LoginEnd ends user) :
    ∃ some : ends ≠ [], ends.head some ≠ [] ∧ ends.getLast some ≠ [] := by
  have notNil {segment word : Str} (same : eqIgnoreAsciiCase segment word = true)
      (some : word ≠ []) : segment ≠ [] := by
    rintro rfl
    exact some (List.map_eq_nil_iff.mp (eqIgnoreAsciiCase_iff.mp same).symm)
  cases login with
  | byName isUsers isAction =>
      exact ⟨by simp, notNil isUsers (by decide), notNil isAction (by decide)⟩
  | byId isUsers segment isAction =>
      exact ⟨by simp, notNil isUsers (by decide), notNil isAction (by decide)⟩

end LoginEnd

/-! ## The gate's view of a login path -/

theorem matchSegments_byName {segments : List Str} :
    matchSegments segments ["users", "authenticatebyname"] = true ↔
      segments = ["users".toList, "authenticatebyname".toList] := by
  simp [matchSegments_cons, matchSegments_nil]

theorem matchSegments_byId {segments : List Str} :
    matchSegments segments ["users", "*", "authenticate"] = true ↔
      ∃ id, segments = ["users".toList, id, "authenticate".toList] := by
  simp [matchSegments_cons, matchSegments_nil]

theorem isLoginPath_iff_suffix (path : Str) :
    isLoginPath path = true ↔ ∃ rest, rest <:+ embyPathSegments path ∧
      (rest = ["users".toList, "authenticatebyname".toList] ∨
        ∃ id, rest = ["users".toList, id, "authenticate".toList]) := by
  rw [isLoginPath, List.any_eq_true]
  refine exists_congr fun rest => ?_
  rw [List.mem_tails, Bool.and_eq_true, Bool.or_eq_true, matchSegments_byName, matchSegments_byId,
    decide_eq_true_eq]
  refine and_congr_right fun _ => and_iff_right_of_imp ?_
  rintro (rfl | ⟨id, rfl⟩)
  · rfl
  · rfl

theorem withoutBase_suffix (segments : List Str) : withoutBase segments <:+ segments := by
  cases segments with
  | nil => exact List.suffix_refl _
  | cons first rest =>
      rw [withoutBase]
      split
      · exact List.suffix_cons first rest
      · exact List.suffix_refl _

/-- The base is not the start of an endpoint. -/
theorem suffix_withoutBase {segments rest : List Str} (suffix : rest <:+ segments)
    (users : rest.head? = some "users".toList) : rest <:+ withoutBase segments := by
  obtain ⟨front, rfl⟩ := suffix
  cases front with
  | nil =>
      obtain ⟨tail, rfl⟩ := List.head?_eq_some_iff.mp users
      exact List.suffix_refl _
  | cons first front =>
      rw [List.cons_append, withoutBase]
      split
      · exact List.suffix_append front rest
      · exact List.suffix_append (first :: front) rest

/-- A path is a login path when its segments end in those of a login endpoint, but for empty
ones behind it. -/
theorem isLoginPath_iff_segments (path : Str) :
    isLoginPath path = true ↔ ∃ front ends slashes user, LoginEnd ends user ∧
      path.splitOn '/' = front ++ ends ++ List.replicate slashes [] := by
  have fresh : ∀ segment ∈ path.splitOn '/', '/' ∉ segment := fun _ => notMem_of_mem_splitOn
  rw [isLoginPath_iff_suffix, embyPathSegments_eq, gateSegments]
  constructor
  · rintro ⟨rest, suffix, matched⟩
    obtain ⟨front, whole⟩ := suffix.trans (withoutBase_suffix _)
    obtain ⟨before, ends, trimmed, -, rfl⟩ := List.map_eq_append_iff.mp whole.symm
    obtain ⟨blank, blank', split, -, empty⟩ := exists_trimMatches (· = []) (path.splitOn '/')
    rw [trimmed] at split
    have inside : ∀ segment ∈ ends, '/' ∉ segment := by
      intro segment member
      exact fresh segment (by rw [split]; simp [member])
    obtain ⟨user, login⟩ := (LoginEnd.exists_iff inside).mpr matched
    have slashes : blank' = List.replicate blank'.length [] :=
      List.eq_replicate_iff.mpr ⟨rfl, fun x member => by simpa using empty x member⟩
    exact ⟨blank ++ before, ends, blank'.length, user, login, by
      rw [split, ← slashes, ← List.append_assoc blank]⟩
  · rintro ⟨front, ends, slashes, user, login, split⟩
    obtain ⟨some, first, last⟩ := login.ends_ne_nil
    have matched := (LoginEnd.exists_iff login.slash_notMem).mp ⟨user, login⟩
    refine ⟨ends.map toAsciiLowercase, suffix_withoutBase ?_ ?_, matched⟩
    · have blank : (List.replicate slashes ([] : Str)).rdropWhile (· = []) = [] :=
        List.rdropWhile_eq_nil_iff.mpr fun x member => by simp [List.eq_of_mem_replicate member]
      rw [split, trimMatches_append some (by simpa using first) (by simpa using last), blank,
        List.append_nil, List.map_append]
      exact List.suffix_append _ _
    · rcases matched with byName | ⟨id, byId⟩
      · rw [byName]
        rfl
      · rw [byId]
        rfl

theorem LoginEnd.splitOn {ends : List Str} {user : Option Str} (login : LoginEnd ends user)
    (slashes : Nat) : (['/'].intercalate ends ++ List.replicate slashes '/').splitOn '/' =
      ends ++ List.replicate slashes [] := by
  obtain ⟨some, -⟩ := login.ends_ne_nil
  rw [← intercalate_append_replicate '/' some, List.splitOn_intercalate '/' ?_ (by simp [some])]
  intro segment member
  rcases List.mem_append.mp member with inEnds | blank
  · exact login.slash_notMem segment inEnds
  · simp [List.eq_of_mem_replicate blank]

theorem LoginEnd.head_ne {ends : List Str} {user : Option Str} (login : LoginEnd ends user)
    (slashes : Nat) :
    (['/'].intercalate ends ++ List.replicate slashes '/').head? ≠ some '/' := by
  obtain ⟨some, first, -⟩ := login.ends_ne_nil
  obtain ⟨segment, rest, rfl⟩ := List.exists_cons_of_ne_nil some
  obtain ⟨c, segment, rfl⟩ := List.exists_cons_of_ne_nil first
  rw [intercalate_cons]
  intro slash
  obtain rfl : c = '/' := by simpa using slash
  exact login.slash_notMem _ List.mem_cons_self List.mem_cons_self

/-- The paths that `is_login_path` accepts end in a login endpoint. -/
theorem isLoginPath_iff (path : Str) :
    isLoginPath path = true ↔ ∃ before user, LoginAt path before user := by
  rw [isLoginPath_iff_segments]
  constructor
  · rintro ⟨front, ends, slashes, user, login, split⟩
    obtain ⟨some, -⟩ := login.ends_ne_nil
    have whole : path = ['/'].intercalate (front ++ (ends ++ List.replicate slashes [])) := by
      rw [← List.append_assoc, ← split, List.intercalate_splitOn]
    rcases eq_or_ne front [] with rfl | inFront
    · refine ⟨[], user, ends, slashes, login, .inr ⟨rfl, ?_⟩⟩
      rw [whole, List.nil_append, intercalate_append_replicate '/' some]
    · refine ⟨['/'].intercalate front, user, ends, slashes, login, .inl ?_⟩
      rw [whole, intercalate_append '/' inFront (by simp [some]),
        intercalate_append_replicate '/' some]
  · rintro ⟨before, user, ends, slashes, login, rfl | ⟨-, rfl⟩⟩
    · exact ⟨before.splitOn '/', ends, slashes, user, login, by
        rw [List.splitOn_append_cons_self, login.splitOn, List.append_assoc]⟩
    · exact ⟨[], ends, slashes, user, login, login.splitOn slashes⟩

/-! ## The forwarded path -/

theorem isPrefixOf_slash {path : Str} : ['/'].isPrefixOf path = (path.head? == some '/') := by
  cases path with
  | nil => rfl
  | cons c path => simp [List.isPrefixOf, eq_comm]

/-- A slash in front of a path does not matter to `join_path`. -/
theorem joinPath_cons {path : Str} (other : path.head? ≠ some '/') (base : Str) :
    joinPath base ('/' :: path) = joinPath base path := by
  have slash : ['/'].isPrefixOf ('/' :: path) = true := rfl
  have noSlash : ['/'].isPrefixOf path = false := by simpa [isPrefixOf_slash] using other
  rw [joinPath, joinPath, slash, noSlash]
  cases ['/'].isSuffixOf base <;> rfl

/-- What `join_path` puts in front of a path stays when the end of the path changes. -/
theorem exists_joinPath (base before : Str) :
    ∃ front, ∀ rest, joinPath base (before ++ '/' :: rest) = front ++ '/' :: rest := by
  have starts (rest : Str) : ['/'].isPrefixOf (before ++ '/' :: rest) =
      ['/'].isPrefixOf (before ++ ['/']) := by
    cases before with
    | nil => rfl
    | cons c before => rfl
  cases ends : ['/'].isSuffixOf base with
  | false =>
      cases slash : ['/'].isPrefixOf (before ++ ['/']) with
      | false =>
          exact ⟨base ++ '/' :: before, fun rest => by
            rw [joinPath, starts, ends, slash, List.append_assoc]; rfl⟩
      | true =>
          exact ⟨base ++ before, fun rest => by
            rw [joinPath, starts, ends, slash, List.append_assoc]⟩
  | true =>
      cases slash : ['/'].isPrefixOf (before ++ ['/']) with
      | false =>
          exact ⟨base ++ before, fun rest => by
            rw [joinPath, starts, ends, slash, List.append_assoc]⟩
      | true =>
          cases before with
          | cons c before =>
              exact ⟨base ++ before, fun rest => by
                rw [joinPath, starts, ends, slash, List.append_assoc]; rfl⟩
          | nil =>
              -- The slash that stays is that of the base.
              obtain ⟨front, rfl⟩ := List.isSuffixOf_iff_suffix.mp ends
              exact ⟨front, fun rest => by
                rw [joinPath, starts, ends, slash, List.append_assoc]; rfl⟩

/-- The forwarded path is a login path as well, at the same place behind the base. -/
theorem LoginAt.forwarded {path before : Str} {user : Option Str}
    (login : LoginAt path before user) (base : Str) : ∃ front ends slashes, LoginEnd ends user ∧
      joinPath base path = front ++ '/' :: (['/'].intercalate ends ++ List.replicate slashes '/') ∧
      ∀ rest, joinPath base (before ++ '/' :: rest) = front ++ '/' :: rest := by
  obtain ⟨front, joined⟩ := exists_joinPath base before
  obtain ⟨ends, slashes, login, rfl | ⟨rfl, rfl⟩⟩ := login
  · exact ⟨front, ends, slashes, login, joined _, joined⟩
  · refine ⟨front, ends, slashes, login, ?_, joined⟩
    rw [← joined, List.nil_append, joinPath_cons (login.head_ne slashes)]

/-! ## The request -/

namespace RouteProxy

variable {crates : Crates} {proxy : RouteProxy}

/-- A logout goes to the path in front of the last segment that reads `users`. -/
theorem logoutUpstream_uri {loginPath token users : Str} {front after : List Str}
    {out : OutRequest} (sent : proxy.logoutUpstream crates loginPath token = some out)
    (split : loginPath.splitOn '/' = front ++ users :: after)
    (isUsers : eqIgnoreAsciiCase users "users".toList = true)
    (last : ∀ segment ∈ after, eqIgnoreAsciiCase segment "users".toList = false) :
    out.uri = proxy.route.upstreamUrl.scheme ++ "://".toList ++ proxy.route.upstreamUrl.host ++
      ['/'].intercalate front ++ "/Sessions/Logout".toList := by
  have cut : (loginPath.splitOn '/').reverse.dropWhile
      (fun s => !eqIgnoreAsciiCase s "users".toList) = users :: front.reverse := by
    rw [split, List.reverse_append, List.reverse_cons, List.append_assoc,
      List.dropWhile_append_of_pos fun segment member => by
        rw [last segment (List.mem_reverse.mp member), Bool.not_false], List.singleton_append]
    exact List.dropWhile_cons_of_neg (by rw [isUsers]; decide)
  rw [logoutUpstream] at sent
  simp only [cut, List.reverse_reverse] at sent
  obtain ⟨_, -, rfl⟩ := Option.map_eq_some_iff.mp sent
  rfl

end RouteProxy

/-- The logout of a login that is not allowed goes to the base path, the path in front of the
login endpoint and `/Sessions/Logout` exactly when the login is not by an id that reads
`users` itself. -/
theorem logout_endpoint_iff (crates : Crates) (proxy : RouteProxy) (path token : Str) :
    let upstream := proxy.route.upstreamUrl
    (isLoginPath path = true ↔ ∃ before user, LoginAt path before user) ∧
      ∀ before user, LoginAt path before user → ∀ out,
        proxy.logoutUpstream crates (joinPath upstream.path path) token = some out →
        (out.uri = upstream.scheme ++ "://".toList ++ upstream.host ++
            joinPath upstream.path (before ++ "/Sessions/Logout".toList) ↔
          ∀ id, user = some id → eqIgnoreAsciiCase id "users".toList = false) := by
  refine ⟨isLoginPath_iff path, fun before user login out sent => ?_⟩
  obtain ⟨front, ends, slashes, login, forwarded, joined⟩ := login.forwarded _
  have split : (joinPath proxy.route.upstreamUrl.path path).splitOn '/' =
      front.splitOn '/' ++ (ends ++ List.replicate slashes []) := by
    rw [forwarded, List.splitOn_append_cons_self, login.splitOn]
  have target : joinPath proxy.route.upstreamUrl.path (before ++ "/Sessions/Logout".toList) =
      front ++ "/Sessions/Logout".toList := joined _
  have behind {action word : Str} (isAction : eqIgnoreAsciiCase action word = true)
      (apart : toAsciiLowercase word ≠ toAsciiLowercase "users".toList) :
      ∀ segment ∈ action :: List.replicate slashes [],
        eqIgnoreAsciiCase segment "users".toList = false := by
    intro segment member
    rcases List.mem_cons.mp member with rfl | blank
    · exact eqIgnoreAsciiCase_other isAction apart
    · rw [List.eq_of_mem_replicate blank]
      rfl
  rw [target]
  cases login with
  | byName isUsers isAction =>
      have uri := RouteProxy.logoutUpstream_uri sent split isUsers (behind isAction (by decide))
      rw [List.intercalate_splitOn, List.append_assoc] at uri
      exact iff_of_true uri fun id none => by cases none
  | @byId users id action isUsers segment isAction =>
      have after := behind isAction (by decide)
      cases own : eqIgnoreAsciiCase id "users".toList with
      | false =>
          have uri := RouteProxy.logoutUpstream_uri sent split isUsers
            (List.forall_mem_cons.mpr ⟨own, after⟩)
          rw [List.intercalate_splitOn, List.append_assoc] at uri
          exact iff_of_true uri fun other same => Option.some.inj same ▸ own
      | true =>
          -- The last segment that reads `users` is the id, and the first one stays in the path.
          have split' : (joinPath proxy.route.upstreamUrl.path path).splitOn '/' =
              (front.splitOn '/' ++ [users]) ++ id :: action :: List.replicate slashes [] := by
            rw [split, List.append_assoc]
            rfl
          have uri := RouteProxy.logoutUpstream_uri sent split' own after
          rw [intercalate_append '/' (List.splitOn_ne_nil '/' front) (by simp),
            List.intercalate_splitOn] at uri
          refine iff_of_false (fun same => ?_) fun other => ?_
          · have length := congrArg List.length (uri.symm.trans same)
            simp only [List.length_append, List.length_cons] at length
            omega
          · rw [other id rfl] at own
            cases own

/-- A login by an id that is not a word of the endpoint, behind two bases. -/
theorem logout_endpoint_iff_id :
    let route := { Reference.route with
      upstreamUrl := ⟨"http".toList, "emby:8096".toList, "/base/".toList, []⟩ }
    let proxy := RouteProxy.new Reference.crates (Reference.config [] []) route none
    ∃ out, proxy.logoutUpstream Reference.crates
        (joinPath route.upstreamUrl.path "/emby/USERS/7/Authenticate/".toList) [] = some out ∧
      out.uri = "http://emby:8096/base/emby/Sessions/Logout".toList := by
  intro route proxy
  have login : LoginAt "/emby/USERS/7/Authenticate/".toList "/emby".toList (some ['7']) :=
    ⟨["USERS".toList, ['7'], "Authenticate".toList], 1,
      .byId (by decide) (by decide) (by decide), .inl rfl⟩
  refine ⟨_, rfl, ?_⟩
  refine ((logout_endpoint_iff Reference.crates proxy _ []).2 _ _ login _ rfl).mpr ?_
  intro id same
  obtain rfl := Option.some.inj same
  decide

/-- A user with the id `users` is logged out below `/emby/Users`, where no endpoint is. -/
theorem logout_misses_users_id :
    let proxy := RouteProxy.new Reference.crates (Reference.config [] []) Reference.route none
    let path := "/emby/Users/users/Authenticate".toList
    isLoginPath path = true ∧ LoginAt path "/emby".toList (some "users".toList) ∧
      ∃ out, proxy.logoutUpstream Reference.crates
          (joinPath proxy.route.upstreamUrl.path path) "tok".toList = some out ∧
        out.uri = "http://emby:8096/emby/Users/Sessions/Logout".toList ∧
        out.uri ≠ "http://emby:8096".toList ++
          joinPath proxy.route.upstreamUrl.path ("/emby".toList ++ "/Sessions/Logout".toList) := by
  intro proxy path
  refine ⟨by decide, ?_, _, rfl, rfl, by decide⟩
  exact ⟨["Users".toList, "users".toList, "Authenticate".toList], 0,
    .byId (by decide) (by decide) (by decide), .inl rfl⟩

end Proxemby
