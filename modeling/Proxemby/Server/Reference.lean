import Mathlib.Data.Char
import Mathlib.Data.List.Lex
import Proxemby.Lib.Base64
import Proxemby.Lib.Ordered
import Proxemby.Server.Process

/-!
# Reference crates

Functions that keep what the crates of the server document, so that those laws can be
met.  Where a function of a crate is too large to write down here (a hash, a JSON
parser), its reference is exact on the inputs of the examples and any lawful function
elsewhere.  The end of the module is the configuration that the examples share.
-/

namespace Proxemby

open Text Utf8 Rfc8259

namespace Reference

/-! ## A form of the state file -/

/-- A character as three octets behind a mark; a zero octet ends a string. -/
def writeStr (s : Str) (rest : Bytes) : Bytes :=
  s.foldr (fun c out => 1 :: UInt8.ofNat (c.toNat / 65536) :: UInt8.ofNat (c.toNat / 256) ::
    UInt8.ofNat c.toNat :: out) (0 :: rest)

def writeStrs (strs : List Str) : Bytes := strs.foldr writeStr []

def readStrs : Bytes → Option (List Str)
  | [] => some []
  | 0 :: rest => (readStrs rest).map ([] :: ·)
  | 1 :: a :: b :: c :: rest =>
      match readStrs rest with
      | some (s :: strs) =>
          some ((Char.ofNat (a.toNat * 65536 + b.toNat * 256 + c.toNat) :: s) :: strs)
      | _ => none
  | _ => none

theorem readStrs_writeStrs (strs : List Str) : readStrs (writeStrs strs) = some strs := by
  induction strs with
  | nil => rfl
  | cons s strs ih =>
      rw [writeStrs] at ih
      rw [writeStrs, List.foldr_cons, writeStr]
      induction s with
      | nil => simp [readStrs, ih]
      | cons c s inner =>
          have small : c.toNat < 1114112 := by
            rcases c.valid with low | ⟨-, high⟩
            · exact Nat.lt_trans low (by decide)
            · exact high
          have number : (UInt8.ofNat (c.toNat / 65536)).toNat * 65536 +
              (UInt8.ofNat (c.toNat / 256)).toNat * 256 + (UInt8.ofNat c.toNat).toNat =
                c.toNat := by
            simp only [UInt8.toNat_ofNat']
            omega
          rw [List.foldr_cons]
          simp only [readStrs, inner, number, Char.ofNat_toNat]

/-- The strings of a session with its token. -/
def entryStrs (entry : Str × Session) : List Str :=
  [entry.1, entry.2.route, entry.2.userId, entry.2.userName, entry.2.createdAt]

def readEntries : List Str → Option (List (Str × Session))
  | [] => some []
  | token :: route :: userId :: userName :: createdAt :: rest =>
      (readEntries rest).map ((token, { route, userId, userName, createdAt }) :: ·)
  | _ => none

theorem readEntries_entryStrs (entries : List (Str × Session)) :
    readEntries (entries.flatMap entryStrs) = some entries := by
  induction entries with
  | nil => rfl
  | cons entry entries ih =>
      rw [List.flatMap_cons]
      simp [entryStrs, readEntries, ih]

def writeFile (file : StoreFile) : Bytes :=
  writeStrs (file.secret ::
    match file.sessions with
    | none => []
    | some sessions => [] :: (Ordered.entries sessions).flatMap entryStrs)

def readFile (data : Bytes) : Option StoreFile :=
  match readStrs data with
  | some [secret] => some { secret, sessions := none }
  | some (secret :: _ :: strs) =>
      (readEntries strs).map fun entries => { secret, sessions := some (Ordered.ofEntries entries) }
  | _ => none

theorem readFile_writeFile (file : StoreFile) : readFile (writeFile file) = some file := by
  obtain ⟨secret, sessions⟩ := file
  cases sessions with
  | none => simp [readFile, writeFile, readStrs_writeStrs]
  | some sessions =>
      simp [readFile, writeFile, readStrs_writeStrs, readEntries_entryStrs,
        Ordered.ofEntries_entries]

/-- The form marks a character with one and ends a string with zero. -/
theorem head_writeFile (file : StoreFile) : (writeFile file).head? ≠ some 0x7B := by
  rw [writeFile, writeStrs, List.foldr_cons, writeStr]
  cases file.secret with
  | nil => simp
  | cons c secret => simp

/-! ## The crates -/

/-- The key of the examples. -/
def secret : Secret := ⟨encode "0123456789abcdef0123456789abcdef".toList, by decide⟩

/-- A state file with the key and no session, and the JSON text that is written for it. -/
def emptyFile : StoreFile where
  secret := Base64.standard.encodePadded secret
  sessions := some ∅

/-- The lines of a text. -/
def lines (texts : List String) : Bytes :=
  encode (['\n'].intercalate (texts.map String.toList))

def emptyFileJson : Bytes :=
  lines ["\x7b", "  \"secret\": \"MDEyMzQ1Njc4OWFiY2RlZjAxMjM0NTY3ODlhYmNkZWY=\",",
    "  \"sessions\": \x7b\x7d", "\x7d"]

/-- The state file after a login of `ken`. -/
def kenFile : StoreFile where
  secret := Base64.standard.encodePadded secret
  sessions := some ((∅ : Sessions).insert "tok".toList {
    route := "proxemby".toList
    userId := "1".toList
    userName := "ken".toList
    createdAt := "2026-01-02T03:04:05.678Z".toList })

def kenFileJson : Bytes :=
  lines ["\x7b", "  \"secret\": \"MDEyMzQ1Njc4OWFiY2RlZjAxMjM0NTY3ODlhYmNkZWY=\",",
    "  \"sessions\": \x7b", "    \"tok\": \x7b", "      \"route\": \"proxemby\",",
    "      \"user_id\": \"1\",", "      \"user_name\": \"ken\",",
    "      \"created_at\": \"2026-01-02T03:04:05.678Z\"", "    \x7d", "  \x7d", "\x7d"]

/-- The answer of an upstream that logs `ken` in. -/
def loginBody : Bytes :=
  encode "\x7b\"AccessToken\":\"tok\",\"User\":\x7b\"Name\":\"ken\",\"Id\":\"1\"\x7d\x7d".toList

/-- The answer to a PlaybackInfo request, with a resource on `cdn.example.com`. -/
def playbackBody : Bytes :=
  encode "\x7b\"Path\":\"https://cdn.example.com/movie.mkv\"\x7d".toList

def loginJson : Json :=
  .object [("AccessToken".toList, .string "tok".toList),
    ("User".toList, .object [("Name".toList, .string "ken".toList),
      ("Id".toList, .string "1".toList)])]

/-- The MAC of the route `proxemby`, the scheme `https` and the host
`cdn.example.com` under the key of the examples; zeros elsewhere. -/
def hmacSha256 (key message : Bytes) : Bytes :=
  if key = secret ∧ message = encode "proxemby\x00https\x00cdn.example.com\x00".toList then
    [0xF6, 0xFF, 0x64, 0xEA, 0x7A, 0xFE, 0xDC, 0xCF, 0x18, 0x7F, 0xCA, 0x11, 0x12, 0xEF, 0xB2,
      0x85, 0xAA, 0x90, 0x3B, 0x09, 0xA4, 0xF2, 0x49, 0xB8, 0xD3, 0xFD, 0x53, 0x6E, 0xE9, 0x9F,
      0x48, 0x71]
  else List.replicate 32 0

/-- The path of an absolute URL in visible ASCII with an authority, whose host has no
percent escape. -/
def uriPath (text : Str) : Option Str :=
  match splitOnceText "://".toList text with
  | none => none
  | some (_, rest) =>
      let (authority, path) := splitBefore '/' (rest.takeWhile (· ≠ '?'))
      if authority = [] ∨ '%' ∈ authority.rtakeWhile (· ≠ '@') ∨
          !text.all (fun c => '!' ≤ c && c ≤ '~') then none
      else some (if path = [] then ['/'] else path)

def fileToVec (file : StoreFile) : Except Str Bytes :=
  .ok (if file = emptyFile then emptyFileJson
    else if file = kenFile then kenFileJson
    else writeFile file)

def fileFromSlice (data : Bytes) : Except Str StoreFile :=
  if data = emptyFileJson then .ok emptyFile
  else if data = kenFileJson then .ok kenFile
  else
    match readFile data with
    | some file => .ok file
    | none => .error "expected value at line 1 column 1".toList

theorem fileFromSlice_fileToVec (file : StoreFile) :
    ∃ data, fileToVec file = .ok data ∧ fileFromSlice data = .ok file := by
  by_cases empty : file = emptyFile
  · refine ⟨emptyFileJson, ?_, ?_⟩
    · rw [fileToVec, if_pos empty]
    · rw [fileFromSlice, if_pos rfl, empty]
  · by_cases ken : file = kenFile
    · refine ⟨kenFileJson, ?_, ?_⟩
      · rw [fileToVec, if_neg empty, if_pos ken]
      · rw [fileFromSlice, if_neg (by decide +kernel), if_pos rfl, ken]
    · have other : ∀ json : Bytes, json.head? = some 0x7B → writeFile file ≠ json := by
        rintro json brace rfl
        exact head_writeFile file brace
      refine ⟨writeFile file, ?_, ?_⟩
      · rw [fileToVec, if_neg empty, if_neg ken]
      · rw [fileFromSlice, if_neg (other emptyFileJson (by decide +kernel)),
          if_neg (other kenFileJson (by decide +kernel)), readFile_writeFile]

def standardDecode (text : Str) : Except Str Bytes :=
  match Base64.standard.decodePadded text with
  | some bytes => .ok bytes
  | none => .error "Invalid padding".toList

def crates : Crates where
  hmacSha256 := hmacSha256
  standardEncode := Base64.standard.encodePadded
  standardDecode := standardDecode
  urlSafeEncode := Base64.urlSafe.encode
  urlSafeDecode := Base64.urlSafe.decode
  fileToVec := fileToVec
  fileFromSlice := fileFromSlice
  toLowercase := toAsciiLowercase
  ip := { parse := fun _ => none, display := fun _ => "127.0.0.1".toList }
  parseUri := uriPath
  gunzip _ := ([], some "invalid gzip header".toList)
  parseJson body := if body = loginBody then some loginJson else none
  toJson value := '"' :: writeString value ++ ['"']

theorem documented : crates.Documented where
  hmac_length key message := by
    change (hmacSha256 key message).length = 32
    rw [hmacSha256]
    split <;> rfl
  standard_decode bytes := by
    change standardDecode (Base64.standard.encodePadded bytes) = .ok bytes
    rw [standardDecode, Base64.Alphabet.decodePadded_encodePadded]
  urlSafe_decode := Base64.urlSafe.decode_encode
  urlSafe_letters bytes c member :=
    Base64.urlSafe_letters c (Base64.urlSafe.encode_mem bytes c member)
  urlSafe_length bytes sixteen := by
    change (Base64.urlSafe.encode bytes).length = 22
    rw [Base64.Alphabet.length_encode, sixteen]
  file_read := fileFromSlice_fileToVec

theorem refusesEscapedHosts : crates.RefusesEscapedHosts := by
  intro scheme host rest http percent chars
  have cut : splitOnceText "://".toList (scheme ++ "://".toList ++ host ++ '/' :: rest) =
      some (scheme, host ++ '/' :: rest) := by
    rcases http with rfl | rfl <;> rfl
  have query : (host ++ '/' :: rest).takeWhile (· ≠ '?') =
      host ++ '/' :: rest.takeWhile (· ≠ '?') := by
    rw [List.takeWhile_append_of_pos (by simpa using fun c member => (chars c member).2.2.2.1)]
    rfl
  have authority : (splitBefore '/' (host ++ '/' :: rest.takeWhile (· ≠ '?'))).1 = host := by
    rw [splitBefore,
      List.takeWhile_append_of_pos (by simpa using fun c member => (chars c member).2.2.1)]
    simp
  have userinfo : host.rtakeWhile (· ≠ '@') = host := by
    rw [List.rtakeWhile, List.takeWhile_eq_self_iff.mpr, List.reverse_reverse]
    simpa using fun c member => (chars c member).2.1
  change uriPath _ = none
  rw [uriPath, cut]
  dsimp only
  rw [query, authority, userinfo, if_pos (.inr (.inl percent))]

/-! ## A configuration -/

/-- `http://proxemby` in front of `http://emby:8096`. -/
def route : Route where
  upstreamUrl := ⟨"http".toList, "emby:8096".toList, [], []⟩
  publicUrl := ⟨"http".toList, "proxemby".toList, [], []⟩

/-- One route, with the allowed users and hosts of the examples. -/
def config (allowedUsers allowedHosts : List String) : Config where
  routes := [route]
  allowedHosts := allowedHosts.map String.toList
  playbackinfoMaxBytes := 8388608
  allowedClients := []
  trustProxyHeaders := false
  hideClient := false
  allowedUsers := allowedUsers.map String.toList
  authStateFile := "auth.json".toList

def env : Env where
  now := "2026-01-02T03:04:05.678Z".toList
  readError := none
  random := .ok secret
  writeError := none

def conn : ConnInfo where
  remote := .v4 0x7F000001#32
  tls := false

/-- A request to the route of the examples. -/
def request (method : Method) (path : String) (query : Option String)
    (headers : List (String × String)) : Request where
  method
  authority := none
  path := path.toList
  query := query.map String.toList
  headers := ⟨("host".toList, encode "proxemby".toList) ::
    headers.map fun header => (header.1.toList, encode header.2.toList)⟩

/-- An answer with a body in one frame. -/
def answer (contentType : String) (body : Bytes) : SendResult :=
  .reply {
    status := 200
    headers := ⟨[("content-type".toList, encode contentType.toList)]⟩
    frames := [.data body] }

/-- A login of `ken`. -/
def login : List Input :=
  [.request (request .post "/emby/Users/AuthenticateByName" none []) conn env,
    .reply 0 (answer "application/json" loginBody) env]

/-- A PlaybackInfo request with the token of that login. -/
def playback : List Input :=
  [.request (request .post "/emby/Items/1/PlaybackInfo" none [("x-emby-token", "tok")]) conn env,
    .reply 1 (answer "application/json" playbackBody) env]

/-- A request for the signed form of the resource in the answer to it. -/
def signedRequest : Request :=
  request .get "/_proxy/9v9k6nr-3M8Yf8oREu-yhQ/https/cdn.example.com/movie.mkv" none []

/-- The store, the disk and the process after a first start. -/
def store : Store where
  path := some "auth.json".toList
  secret := secret
  sessions := ∅

def disk : Disk := Function.update (fun _ => none) "auth.json".toList (some emptyFileJson)

def server (cfg : Config) : Server := Server.withStats crates cfg (some store)

def start (cfg : Config) : State := Server.initial cfg (some store) disk

theorem boot_of_open {cfg : Config} {files : Disk} (users : cfg.allowedUsers ≠ [])
    (file : cfg.authStateFile = "auth.json".toList)
    (opened : Store.open crates.toStoreCrates (some "auth.json".toList) files env =
      (disk, .ok store)) : boot crates cfg files env = (disk, .ok (server cfg, start cfg)) := by
  have path : cfg.statePath = some "auth.json".toList := by
    rw [Config.statePath, file, if_neg (by decide)]
  rw [boot, if_neg users, path, opened]
  rfl

theorem boot_eq {cfg : Config} (users : cfg.allowedUsers ≠ [])
    (file : cfg.authStateFile = "auth.json".toList) :
    boot crates cfg (fun _ => none) env = (disk, .ok (server cfg, start cfg)) :=
  boot_of_open users file rfl

theorem run_start {cfg : Config} (users : cfg.allowedUsers ≠ [])
    (file : cfg.authStateFile = "auth.json".toList) :
    (System.machine crates).run (.down fun _ => none) [.start cfg env] =
      .up cfg (server cfg) (start cfg) := by
  simp [Machine.next, System.machine, System.step, System.disk, boot_eq users file]

/-- The next process starts like the first one. -/
theorem run_again {cfg : Config} (users : cfg.allowedUsers ≠ [])
    (file : cfg.authStateFile = "auth.json".toList) :
    (System.machine crates).run (.up cfg (server cfg) (start cfg)) [.start cfg env] =
      .up cfg (server cfg) (start cfg) := by
  have again := @boot_of_open cfg (start cfg).disk users file rfl
  simp [Machine.next, System.machine, System.step, System.disk, again]

end Reference

end Proxemby
