import Proxemby.Util

/-!
# HTTP messages

The parts of requests, responses and header maps that proxemby reads and writes.
A header map is an ordered multimap over lower-case names, a header value is a
string of octets, and a streamed body is the sequence of frames still to come.
-/

namespace Proxemby

open Text

abbrev HeaderValue := Bytes

/-- Readable text of a header value: visible ASCII and tabs only. -/
def HeaderValue.toStr (value : HeaderValue) : Option Str :=
  if value.all fun b => (0x20 ≤ b && b < 0x7F) || b == 0x09 then
    some (value.map fun b => Char.ofNat b.toNat)
  else none

/-- A header value from a string; other than visible ASCII and tabs is refused, as `http`
documents.  What it does is to let octets from `0x80` on pass as well. -/
def HeaderValue.fromStr (text : Str) : Option HeaderValue :=
  let value := Utf8.encode text
  if value.all fun b => (0x20 ≤ b && b < 0x7F) || b == 0x09 then some value else none

/-- A header value known to be text. -/
def HeaderValue.fromStatic (text : String) : HeaderValue := Utf8.encode text.toList

/-- A header name from text: an RFC 9110 token, put in lower case. -/
def headerName (text : Str) : Option Str :=
  let token := fun c : Char => c.isAlphanum || "!#$%&'*+-.^_|~`".toList.contains c
  if text ≠ [] ∧ text.all token then some (toAsciiLowercase text) else none

/-- Ordered multimap from lower-case names to values. -/
structure HeaderMap where
  entries : List (Str × HeaderValue)
  deriving DecidableEq

namespace HeaderMap

def empty : HeaderMap := ⟨[]⟩

/-- All values of a name, in order. -/
def getAll (headers : HeaderMap) (name : Str) : List HeaderValue :=
  headers.entries.filterMap fun entry =>
    if entry.1 = name then some entry.2 else none

/-- The first value of a name. -/
def get (headers : HeaderMap) (name : Str) : Option HeaderValue :=
  (headers.getAll name).head?

/-- Remove every value of a name. -/
def remove (headers : HeaderMap) (name : Str) : HeaderMap :=
  ⟨headers.entries.filter fun entry => entry.1 ≠ name⟩

/-- Replace every value of a name by one. -/
def insert (headers : HeaderMap) (name : Str) (value : HeaderValue) : HeaderMap :=
  ⟨(headers.remove name).entries ++ [(name, value)]⟩

@[simp] theorem getAll_remove (headers : HeaderMap) (name other : Str) :
    (headers.remove name).getAll other = if other = name then [] else headers.getAll other := by
  rw [remove, getAll, List.filterMap_filter]
  by_cases same : other = name
  · rw [if_pos same, List.filterMap_eq_nil_iff]
    intro entry member
    by_cases found : entry.1 = name
    · simp [found]
    · simp [found, same]
  · rw [if_neg same, getAll]
    refine List.filterMap_congr fun entry member => ?_
    by_cases found : entry.1 = name
    · simp [found, Ne.symm same]
    · simp [found]

@[simp] theorem getAll_insert (headers : HeaderMap) (name : Str) (value : HeaderValue)
    (other : Str) :
    (headers.insert name value).getAll other =
      if other = name then [value] else headers.getAll other := by
  have split : (headers.insert name value).getAll other =
      (headers.remove name).getAll other ++ (⟨[(name, value)]⟩ : HeaderMap).getAll other := by
    simp [insert, getAll]
  rw [split, getAll_remove]
  by_cases same : other = name
  · simp [same, getAll]
  · simp [same, getAll, Ne.symm same]

end HeaderMap

inductive Method where
  | get
  | head
  | post
  | other (name : Str)
  deriving DecidableEq

/-- A request as the server hands it on.  `authority` is the one of an HTTP/2 or
absolute-form target; the path and query are those of the target. -/
structure Request where
  method : Method
  authority : Option Str
  path : Str
  query : Option Str
  headers : HeaderMap
  deriving DecidableEq

/-- One frame of a streamed body, or the failure to read it. -/
inductive Frame where
  | data (bytes : Bytes)
  | trailers
  | error (message : Str)
  deriving DecidableEq

inductive Body where
  | empty
  | full (data : Bytes)
  | incoming (frames : List Frame)
  deriving DecidableEq

structure Response where
  status : Nat
  headers : HeaderMap
  body : Body
  deriving DecidableEq

/-- What an upstream answered: the head and the frames of the body. -/
structure Reply where
  status : Nat
  headers : HeaderMap
  frames : List Frame
  deriving DecidableEq

/-- A request proxemby sends: the target is the absolute URL. -/
structure OutRequest where
  method : Method
  uri : Str
  headers : HeaderMap
  deriving DecidableEq

/-- A plain-text error response like Go's `http.Error`. -/
def textResponse (status : Nat) (msg : String) : Response where
  status
  headers :=
    (HeaderMap.empty.insert "content-type".toList
      (.fromStatic "text/plain; charset=utf-8")).insert
      "x-content-type-options".toList (.fromStatic "nosniff")
  body := .full (Utf8.encode (msg.toList ++ ['\n']))

def emptyResponse (status : Nat) : Response where
  status
  headers := .empty
  body := .empty

end Proxemby
