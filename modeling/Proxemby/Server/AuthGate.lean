import Proxemby.Http

/-!
# Path rules of the allowed-users check

`src/server/auth_gate.rs`.
-/

namespace Proxemby

open Text

/-- Lower-cased path segments without the optional `emby` or `mediabrowser` base
path. -/
def embyPathSegments (path : Str) : List Str :=
  let trimmed := trimMatches (· = '/') path
  if trimmed = [] then []
  else
    match (trimmed.splitOn '/').map toAsciiLowercase with
    | [] => []
    | first :: rest =>
        if first = "emby".toList ∨ first = "mediabrowser".toList then rest else first :: rest

/-- Segments match a pattern in which `*` stands for any segment. -/
def matchSegments (segments : List Str) (want : List String) : Bool :=
  segments.length = want.length &&
    (segments.zip want).all fun pair => pair.2 = "*" || pair.1 = pair.2.toList

theorem matchSegments_nil {segments : List Str} :
    matchSegments segments [] = true ↔ segments = [] := by
  cases segments with
  | nil => simp [matchSegments]
  | cons segment rest => simp [matchSegments]

theorem matchSegments_cons {segments : List Str} {word : String} {want : List String} :
    matchSegments segments (word :: want) = true ↔
      ∃ segment rest, segments = segment :: rest ∧ (word = "*" ∨ segment = word.toList) ∧
        matchSegments rest want = true := by
  cases segments with
  | nil => simp [matchSegments]
  | cons segment rest =>
      simp only [matchSegments, List.length_cons, Nat.add_right_cancel_iff, List.zip_cons_cons,
        List.all_cons, Bool.and_eq_true, Bool.or_eq_true, decide_eq_true_eq, List.cons.injEq]
      constructor
      · rintro ⟨length, here, later⟩
        exact ⟨segment, rest, ⟨rfl, rfl⟩, here, length, later⟩
      · rintro ⟨_, _, ⟨rfl, rfl⟩, here, length, later⟩
        exact ⟨length, here, later⟩

/-- Whether the path is an Emby login endpoint, allowing for an upstream base path
in front of it. -/
def isLoginPath (path : Str) : Bool :=
  (embyPathSegments path).tails.any fun rest =>
    rest.head? = some "users".toList &&
      (matchSegments rest ["users", "authenticatebyname"] ||
        matchSegments rest ["users", "*", "authenticate"])

def publicPatterns : List (List String) :=
  [["favicon.ico"],
    ["system", "info", "public"],
    ["system", "ping"],
    ["users", "authenticatebyname"],
    ["users", "*", "authenticate"],
    ["branding", "configuration"],
    ["branding", "css"],
    ["branding", "css.css"]]

/-- Endpoints clients need before they have logged in. -/
def isPublicEmbyPath (method : Method) (segments : List Str) : Bool :=
  if segments = [] || publicPatterns.any (matchSegments segments) ||
      -- Static files for the Emby web client.
      segments.head? = some "web".toList then true
  else if method ≠ .get && method ≠ .head then false
  -- Most clients load artwork without an access token.
  else segments.any (· = "images".toList)

example : isLoginPath "/base/emby/Users/abc/Authenticate".toList = true := by decide

example : isPublicEmbyPath .post (embyPathSegments "/emby/Items/1/Images/Primary".toList) =
    false := by decide

end Proxemby
