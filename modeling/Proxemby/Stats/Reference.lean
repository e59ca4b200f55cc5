import Proxemby.Server.Reference
import Proxemby.Stats.Flush

/-!
# Reference form of the stats file

A lawful stand-in for the JSON form of the stats file: exact on the file of the
examples, and elsewhere any text that can be read again.
-/

namespace Proxemby

namespace Reference

/-- A way to write the valid values as strings that can be read again in front of others.
Only valid values are read. -/
structure Codec (α : Type) where
  valid : α → Prop
  write : α → List Str
  read : List Str → Option (α × List Str)
  read_write : ∀ value rest, valid value → read (write value ++ rest) = some (value, rest)
  valid_of_read : ∀ strs value rest, read strs = some (value, rest) → valid value

namespace Codec

variable {α β : Type}

def str : Codec Str where
  valid _ := True
  write value := [value]
  read
    | [] => none
    | value :: rest => some (value, rest)
  read_write _ _ _ := rfl
  valid_of_read _ _ _ _ := trivial

/-- A number as so many marks. -/
def nat : Codec Nat where
  valid _ := True
  write value := [List.replicate value 'x']
  read
    | [] => none
    | marks :: rest => some (marks.length, rest)
  read_write value rest _ := by simp
  valid_of_read _ _ _ _ := trivial

/-- The values that meet a condition. -/
def only (codec : Codec α) (condition : α → Prop) [DecidablePred condition] : Codec α where
  valid value := codec.valid value ∧ condition value
  write := codec.write
  read strs := (codec.read strs).filter fun found => condition found.1
  read_write value rest valid := by
    rw [codec.read_write value rest valid.1, Option.filter_some, if_pos (by simpa using valid.2)]
  valid_of_read strs value rest read := by
    obtain ⟨found, meets⟩ := Option.filter_eq_some_iff.mp read
    exact ⟨codec.valid_of_read strs value rest found, by simpa using meets⟩

/-- Values that another codec can tell apart. -/
def ofInverse (codec : Codec β) (image : α → β) (back : β → α)
    (inverse : ∀ value, back (image value) = value)
    (inverse' : ∀ value, image (back value) = value) : Codec α where
  valid value := codec.valid (image value)
  write value := codec.write (image value)
  read strs := (codec.read strs).map fun found => (back found.1, found.2)
  read_write value rest valid := by
    rw [codec.read_write _ _ valid, Option.map_some, inverse]
  valid_of_read strs value rest read := by
    obtain ⟨⟨found, rest'⟩, reads, same⟩ := Option.map_eq_some_iff.mp read
    obtain ⟨rfl, rfl⟩ := Prod.mk.inj same
    rw [inverse']
    exact codec.valid_of_read strs found rest' reads

def pair (first : Codec α) (second : Codec β) : Codec (α × β) where
  valid value := first.valid value.1 ∧ second.valid value.2
  write value := first.write value.1 ++ second.write value.2
  read strs := (first.read strs).bind fun found =>
    (second.read found.2).map fun found' => ((found.1, found'.1), found'.2)
  read_write value rest valid := by
    rw [List.append_assoc, first.read_write _ _ valid.1, Option.bind_some,
      second.read_write _ _ valid.2]
    rfl
  valid_of_read strs value rest read := by
    obtain ⟨⟨found, middle⟩, reads, read⟩ := Option.bind_eq_some_iff.mp read
    obtain ⟨⟨found', rest'⟩, reads', same⟩ := Option.map_eq_some_iff.mp read
    obtain ⟨rfl, rfl⟩ := Prod.mk.inj same
    exact ⟨first.valid_of_read _ _ _ reads, second.valid_of_read _ _ _ reads'⟩

/-- Some values one after another. -/
def readMany (codec : Codec α) : Nat → List Str → Option (List α × List Str)
  | 0, strs => some ([], strs)
  | n + 1, strs => (codec.read strs).bind fun found =>
      (codec.readMany n found.2).map fun found' => (found.1 :: found'.1, found'.2)

theorem readMany_write (codec : Codec α) {values : List α}
    (valid : ∀ value ∈ values, codec.valid value) (rest : List Str) :
    codec.readMany values.length (values.flatMap codec.write ++ rest) = some (values, rest) := by
  induction values with
  | nil => rfl
  | cons value values ih =>
      obtain ⟨here, later⟩ := List.forall_mem_cons.mp valid
      rw [List.length_cons, readMany, List.flatMap_cons, List.append_assoc,
        codec.read_write _ _ here, Option.bind_some, ih later]
      rfl

theorem valid_of_readMany (codec : Codec α) {count : Nat} {strs rest : List Str}
    {values : List α} (read : codec.readMany count strs = some (values, rest)) :
    ∀ value ∈ values, codec.valid value := by
  induction count generalizing strs values with
  | zero =>
      obtain ⟨rfl, rfl⟩ := Prod.mk.inj (Option.some.inj read)
      simp
  | succ count ih =>
      obtain ⟨⟨found, middle⟩, reads, read⟩ := Option.bind_eq_some_iff.mp read
      obtain ⟨⟨later, rest'⟩, reads', same⟩ := Option.map_eq_some_iff.mp read
      obtain ⟨rfl, rfl⟩ := Prod.mk.inj same
      exact List.forall_mem_cons.mpr ⟨codec.valid_of_read _ _ _ reads, ih reads'⟩

def list (codec : Codec α) : Codec (List α) where
  valid values := ∀ value ∈ values, codec.valid value
  write values := nat.write values.length ++ values.flatMap codec.write
  read strs := (nat.read strs).bind fun found => codec.readMany found.1 found.2
  read_write values rest valid := by
    rw [List.append_assoc, nat.read_write _ _ trivial, Option.bind_some,
      codec.readMany_write valid]
  valid_of_read strs values rest read := by
    obtain ⟨found, -, reads⟩ := Option.bind_eq_some_iff.mp read
    exact codec.valid_of_readMany reads

/-- The entries of a map in order.  Other lists of entries are not read. -/
def finmap (codec : Codec β) : Codec (Finmap fun _ : Str => β) where
  valid map := ∀ key value, map.lookup key = some value → codec.valid value
  write map := (list (pair str codec)).write (Ordered.entries map)
  read strs := ((list (pair str codec)).read strs).map fun found =>
    (Ordered.ofEntries found.1, found.2)
  read_write map rest valid := by
    rw [(list (pair str codec)).read_write, Option.map_some, Ordered.ofEntries_entries]
    intro entry member
    exact ⟨trivial, valid entry.1 entry.2 (Ordered.lookup_of_mem_entries member)⟩
  valid_of_read strs map rest read := by
    obtain ⟨⟨entries, rest'⟩, reads, same⟩ := Option.map_eq_some_iff.mp read
    obtain ⟨rfl, rfl⟩ := Prod.mk.inj same
    intro key value found
    have all := (list (pair str codec)).valid_of_read _ _ _ reads
    exact (all _ (Ordered.mem_of_lookup_ofEntries found)).2

/-- Totals of 64 bits. -/
def totals : Codec Totals :=
  let u64 := nat.only (· < 2 ^ 64)
  (pair u64 (pair u64 u64)).ofInverse
    (fun totals => (totals.requests, totals.bytesOut, totals.bytesIn))
    (fun parts => ⟨parts.1, parts.2.1, parts.2.2⟩) (fun _ => rfl) (fun _ => rfl)

theorem valid_totals {value : Totals} : totals.valid value ↔ value.Fits := by
  constructor
  · rintro ⟨⟨-, requests⟩, ⟨-, bytesOut⟩, ⟨-, bytesIn⟩⟩ field
    cases field
    · exact requests
    · exact bytesOut
    · exact bytesIn
  · intro fits
    exact ⟨⟨trivial, fits .requests⟩, ⟨trivial, fits .bytesOut⟩, ⟨trivial, fits .bytesIn⟩⟩

def days : Codec Days := finmap (finmap (finmap totals))

theorem valid_days {value : Days} : days.valid value ↔ value.Fits := by
  constructor
  · intro valid date route kind
    rw [Days.stored]
    cases day : value.lookup date with
    | none => exact Totals.fits_zero
    | some routes =>
        cases entry : routes.lookup route with
        | none =>
            simp only [Option.bind_some, entry, Option.bind_none, Option.getD_none]
            exact Totals.fits_zero
        | some kinds =>
            cases found : kinds.lookup kind with
            | none =>
                simp only [Option.bind_some, entry, found, Option.getD_none]
                exact Totals.fits_zero
            | some totals =>
                simp only [Option.bind_some, entry, found, Option.getD_some]
                exact valid_totals.mp (valid date routes day route kinds entry kind totals found)
  · intro fits date routes day route kinds entry kind totals found
    have small := fits date route kind
    rw [Days.stored, day, Option.bind_some, entry, Option.bind_some, found,
      Option.getD_some] at small
    exact valid_totals.mpr small

end Codec

/-- A file with the requests of one day on the route `a`, in numbers and in digits. -/
def requests (count : Nat) : Days :=
  Days.put ∅ "2026-01-02".toList "a".toList "api".toList ⟨count, 0, 0⟩

def requestsJson (count : String) : Bytes :=
  lines ["\x7b", "  \"days\": \x7b", "    \"2026-01-02\": \x7b", "      \"a\": \x7b",
    "        \"api\": \x7b", "          \"requests\": " ++ count ++ ",",
    "          \"bytes_out\": 0,", "          \"bytes_in\": 0", "        \x7d", "      \x7d",
    "    \x7d", "  \x7d", "\x7d"]

theorem fits_requests {count : Nat} (small : count < 2 ^ 64) : (requests count).Fits := by
  refine Days.fits_empty.put _ _ _ fun field => ?_
  cases field
  · exact small
  · exact Nat.two_pow_pos 64
  · exact Nat.two_pow_pos 64

/-- One request, and as many as can be counted. -/
def oneRequestJson : Bytes := requestsJson "1"

def mostRequestsJson : Bytes := requestsJson "18446744073709551615"

theorem head_writeStrs (strs : List Str) : (writeStrs strs).head? ≠ some 0x7B := by
  cases strs with
  | nil => simp [writeStrs]
  | cons s strs =>
      rw [writeStrs, List.foldr_cons, writeStr]
      cases s with
      | nil => simp
      | cons c s => simp

def statsCrates : StatsCrates where
  toVec days :=
    .ok (if days = requests 1 then oneRequestJson
      else if days = requests (2 ^ 64 - 1) then mostRequestsJson
      else writeStrs (Codec.days.write days))
  fromSlice data :=
    if data = oneRequestJson then .ok (requests 1)
    else if data = mostRequestsJson then .ok (requests (2 ^ 64 - 1))
    else
      match (readStrs data).bind Codec.days.read with
      | some (days, []) => .ok days
      | _ => .error "expected value at line 1 column 1".toList

theorem statsDocumented : statsCrates.Documented where
  fits data days read := by
    dsimp only [statsCrates] at read
    split at read
    · rw [← Except.ok.inj read]
      exact fits_requests (by decide)
    · split at read
      · rw [← Except.ok.inj read]
        exact fits_requests (by decide)
      · split at read
        · next found =>
            obtain ⟨strs, -, reads⟩ := Option.bind_eq_some_iff.mp found
            rw [← Except.ok.inj read]
            exact Codec.valid_days.mp (Codec.days.valid_of_read _ _ _ reads)
        · cases read
  round_trip days fits := by
    refine ⟨_, rfl, ?_⟩
    dsimp only [statsCrates]
    have brace : oneRequestJson.head? = some 0x7B ∧ mostRequestsJson.head? = some 0x7B :=
      ⟨rfl, rfl⟩
    by_cases one : days = requests 1
    · rw [if_pos one, if_pos rfl, one]
    · by_cases most : days = requests (2 ^ 64 - 1)
      · have other : mostRequestsJson ≠ oneRequestJson := by decide +kernel
        rw [if_neg one, if_pos most, if_neg other, if_pos rfl, most]
      · have head := head_writeStrs (Codec.days.write days)
        have notOne : writeStrs (Codec.days.write days) ≠ oneRequestJson := by
          intro same
          exact head (same ▸ brace.1)
        have notMost : writeStrs (Codec.days.write days) ≠ mostRequestsJson := by
          intro same
          exact head (same ▸ brace.2)
        have read := Codec.days.read_write days [] (Codec.valid_days.mpr fits)
        rw [List.append_nil] at read
        rw [if_neg one, if_neg most, if_neg notOne, if_neg notMost, readStrs_writeStrs,
          Option.bind_some, read]

end Reference

end Proxemby
