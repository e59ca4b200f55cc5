import Proxemby.Server.AuthGate
import Proxemby.Stats.Counters

/-!
# Kinds of requests

`classify` of `src/stats.rs`.  A request counts as media, an image or other API traffic by
the segments of its path, in any letter case.
-/

namespace Proxemby

open Text

/-- The segments of a path that are not empty. -/
def pathSegments (path : Str) : List Str := (path.splitOn '/').filter (· ≠ [])

/-- The first of the later segments that tells images and downloads. -/
def classifyRest : List Str → Kind
  | [] => .api
  | segment :: segments =>
      if eqIgnoreAsciiCase segment "images".toList then .image
      else if eqIgnoreAsciiCase segment "download".toList then .media
      else classifyRest segments

/-- The segments after an optional `emby` or `mediabrowser`. -/
def dropBase : List Str → List Str
  | [] => []
  | first :: segments =>
      if eqIgnoreAsciiCase first "emby".toList ∨ eqIgnoreAsciiCase first "mediabrowser".toList then
        segments
      else first :: segments

/-- Media covers proxied resources, Emby video and audio streams and downloads. -/
def classify (path : Str) : Kind :=
  if "/_proxy/".toList.isPrefixOf path then .media
  else
    match dropBase (pathSegments path) with
    | [] => .api
    | first :: segments =>
        if eqIgnoreAsciiCase first "videos".toList ∨ eqIgnoreAsciiCase first "audio".toList then
          .media
        else classifyRest segments

/-! ## What the kind depends on -/

theorem eqIgnoreAsciiCase_congr {left right word : Str}
    (same : toAsciiLowercase left = toAsciiLowercase right) :
    eqIgnoreAsciiCase left word = eqIgnoreAsciiCase right word := by
  rw [eqIgnoreAsciiCase, eqIgnoreAsciiCase, same]

/-- Segments that are equal up to letter case. -/
abbrev SameSegments (left right : List Str) : Prop :=
  List.Forall₂ (fun segment other => toAsciiLowercase segment = toAsciiLowercase other) left right

theorem classifyRest_congr {left right : List Str} (same : SameSegments left right) :
    classifyRest left = classifyRest right := by
  induction same with
  | nil => rfl
  | cons here _ ih =>
      rw [classifyRest, classifyRest, eqIgnoreAsciiCase_congr here,
        eqIgnoreAsciiCase_congr here, ih]

theorem SameSegments.dropBase {left right : List Str} (same : SameSegments left right) :
    SameSegments (dropBase left) (dropBase right) := by
  cases same with
  | nil => exact .nil
  | cons here later =>
      rw [Proxemby.dropBase, Proxemby.dropBase, eqIgnoreAsciiCase_congr here,
        eqIgnoreAsciiCase_congr here]
      split
      · exact later
      · exact .cons here later

/-- Outside `/_proxy/` the kind is up to the segments, in any case of their letters. -/
theorem classify_congr {path other : Str} (outside : "/_proxy/".toList.isPrefixOf path = false)
    (outside' : "/_proxy/".toList.isPrefixOf other = false)
    (same : SameSegments (pathSegments path) (pathSegments other)) :
    classify path = classify other := by
  have left := same.dropBase
  simp only [classify, outside, outside', Bool.false_eq_true, if_false]
  generalize dropBase (pathSegments path) = segments, dropBase (pathSegments other) = segments'
    at left ⊢
  cases left with
  | nil => rfl
  | cons here later =>
      dsimp only
      rw [eqIgnoreAsciiCase_congr here, eqIgnoreAsciiCase_congr here, classifyRest_congr later]

end Proxemby
