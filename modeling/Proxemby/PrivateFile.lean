import Proxemby.Auth.Store
import Proxemby.Lib.FileSystem
import Proxemby.Lib.Machine

/-!
# Replacing a file

`write_private_file` of `src/util.rs`, one call of the operating system at a time.  The data
goes to a new file, which takes the name of the old one once all of it is on the device.
Calls for one path come one after another, since each path has a lock of its own; calls for
different paths, failures, kills of the process and losses of power come in any order.
-/

namespace Proxemby.PrivateFile

open Text

/-- The name of the temporary file next to the file that a path names. -/
def tmpName (path : Str) (suffix : Nat) : Str :=
  path ++ '.' :: "tmp".toList ++ Nat.toDigits 10 suffix

/-- How far a call is. -/
inductive Stage where
  | create
  | write (file : Nat) (left : Bytes)
  | rename (file : Nat)
  | cleanup (error : Str)
  deriving DecidableEq

structure Call where
  data : Bytes
  suffix : Nat
  stage : Stage
  deriving DecidableEq

/-- The files, and the call for each path that is in progress. -/
structure World where
  fs : FileSystem Str UInt8
  calls : Str → Option Call

/-- What happens: a call begins, it goes on with an answer of the operating system (an error,
or success with a number of octets), the process is killed, or the power is lost. -/
inductive Input where
  | start (path : Str) (data : Bytes) (suffix : Nat)
  | go (path : Str) (answer : Except Str Nat)
  | kill
  | losePower (pick : Str → Nat) (torn : Nat → Bytes)

/-- A call returns. -/
structure Output where
  path : Str
  data : Bytes
  result : Except Str Unit

namespace World

/-- Go on to a stage of a call. -/
def turn (world : World) (path : Str) (call : Call) (stage : Stage) : World :=
  { world with calls := Function.update world.calls path (some { call with stage }) }

/-- The end of a call. -/
def finish (world : World) (path : Str) : World :=
  { world with calls := Function.update world.calls path none }

/-- One call of the operating system. -/
def go (world : World) (path : Str) (call : Call) (answer : Except Str Nat) :
    World × List Output :=
  match call.stage, answer with
  | .cleanup e, answer =>
      let fs :=
        match answer with
        | .ok _ => world.fs.remove (tmpName path call.suffix)
        | .error _ => world.fs
      (({ world with fs }).finish path, [⟨path, call.data, .error e⟩])
  | _, .error e => (world.turn path call (.cleanup e), [])
  | .create, .ok _ =>
      match world.fs.createNew (tmpName path call.suffix) 0o600 with
      | some (file, fs) => (({ world with fs }).turn path call (.write file call.data), [])
      | none => (world.turn path call (.cleanup "File exists".toList), [])
  | .write file [], .ok _ =>
      (({ world with fs := world.fs.sync file }).turn path call (.rename file), [])
  | .write file left, .ok n =>
      -- A write takes at least one octet; one that takes none is an error.
      (({ world with fs := world.fs.append file (left.take (n + 1)) }).turn path call
        (.write file (left.drop (n + 1))), [])
  | .rename _, .ok _ =>
      match world.fs.rename (tmpName path call.suffix) path with
      | some fs => (({ world with fs }).finish path, [⟨path, call.data, .ok ()⟩])
      | none => (world.turn path call (.cleanup "No such file or directory".toList), [])

def step (world : World) : Input → World × List Output
  | .start path data suffix =>
      match world.calls path with
      | some _ => (world, [])
      | none =>
          let call := { data, suffix, stage := .create }
          ({ world with calls := Function.update world.calls path (some call) }, [])
  | .go path answer =>
      match world.calls path with
      | some call => world.go path call answer
      | none => (world, [])
  | .kill => ({ world with calls := fun _ => none }, [])
  | .losePower pick torn => ({ fs := world.fs.losePower pick torn, calls := fun _ => none }, [])

def machine : Machine World Input Output where
  step := step

end World

/-! ## Names -/

theorem dot_notMem_toDigits (n : Nat) : '.' ∉ Nat.toDigits 10 n := by
  intro member
  have digit := Nat.isDigit_of_mem_toDigits (by decide) (by decide) member
  exact absurd digit (by decide)

theorem rsplitOnce_tmpName (path : Str) (suffix : Nat) :
    rsplitOnce '.' (tmpName path suffix) =
      some (path, "tmp".toList ++ Nat.toDigits 10 suffix) := by
  have fresh : '.' ∉ "tmp".toList ++ Nat.toDigits 10 suffix := by
    rw [List.mem_append, not_or]
    exact ⟨by decide, dot_notMem_toDigits suffix⟩
  rw [tmpName, List.append_assoc]
  exact rsplitOnce_append fresh path

/-- A temporary name tells the path. -/
theorem tmpName_inj {path path' : Str} {suffix suffix' : Nat}
    (same : tmpName path suffix = tmpName path' suffix') : path = path' := by
  have halves := (rsplitOnce_tmpName path suffix).symm.trans
    ((congrArg _ same).trans (rsplitOnce_tmpName path' suffix'))
  exact (Prod.mk.inj (Option.some.inj halves)).1

/-- The paths that are written, none of which is the temporary name of another. -/
structure Targets where
  paths : List Str
  apart : ∀ path ∈ paths, ∀ suffix, tmpName path suffix ∉ paths

theorem Targets.tmpName_ne {targets : Targets} {path other : Str} (target : path ∈ targets.paths)
    (other_target : other ∈ targets.paths) (suffix : Nat) : other ≠ tmpName path suffix := by
  rintro rfl
  exact targets.apart path target suffix other_target

/-! ## What is on the device at every moment -/

/-- The file that a call is filling. -/
def Stage.file? : Stage → Option Nat
  | .write file _ => some file
  | .rename file => some file
  | _ => none

section Invariant

variable {targets : Targets} {allowed : Str → Option Bytes → Prop}
  {fs fs' : FileSystem Str UInt8}

/-- What a path has, or may go back to, is complete and on the device. -/
def Whole (targets : Targets) (allowed : Str → Option Bytes → Prop)
    (fs : FileSystem Str UInt8) : Prop :=
  ∀ path ∈ targets.paths, ∀ entry ∈ fs.possible path,
    allowed path (fs.contentOf entry) ∧
      ∀ file, entry = some file → (fs.files file).synced = true

/-- A call has a file of its own, under its temporary name alone: with a part of the data, or
with all of it on the device. -/
structure Fits (targets : Targets) (fs : FileSystem Str UInt8) (path : Str) (call : Call) :
    Prop where
  own : ∀ file, call.stage.file? = some file →
    fs.entries (tmpName path call.suffix) = some file ∧
      ∀ other ∈ targets.paths, some file ∉ fs.possible other
  filling : ∀ file left, call.stage = .write file left →
    (fs.files file).written ++ left = call.data
  filled : ∀ file, call.stage = .rename file →
    (fs.files file).written = call.data ∧ (fs.files file).synced = true

structure Sound (targets : Targets) (allowed : Str → Option Bytes → Prop) (world : World) :
    Prop where
  whole : Whole targets allowed world.fs
  target : ∀ path call, world.calls path = some call →
    path ∈ targets.paths ∧ allowed path (some call.data)
  fits : ∀ path call, world.calls path = some call → Fits targets world.fs path call
  distinct : ∀ path path' call call' file, world.calls path = some call →
    world.calls path' = some call' → call.stage.file? = some file →
    call'.stage.file? = some file → path = path'

/-- A call that has no file fits. -/
theorem Fits.of_none {path : Str} {call : Call} (none : call.stage.file? = none) :
    Fits targets fs path call where
  own file some := by
    rw [none] at some
    cases some
  filling file left stage := by
    rw [stage] at none
    cases none
  filled file stage := by
    rw [stage] at none
    cases none

/-- Steps of others leave the temporary name and the file of a call alone. -/
theorem Fits.frame {path : Str} {call : Call} (fits : Fits targets fs path call)
    (entry : fs'.entries (tmpName path call.suffix) = fs.entries (tmpName path call.suffix))
    (possible : ∀ file, call.stage.file? = some file → ∀ other ∈ targets.paths,
      some file ∈ fs'.possible other → some file ∈ fs.possible other)
    (content : ∀ file, call.stage.file? = some file → fs'.files file = fs.files file) :
    Fits targets fs' path call where
  own file has := by
    obtain ⟨named, alone⟩ := fits.own file has
    refine ⟨entry.trans named, ?_⟩
    intro other target member
    exact alone other target (possible file has other target member)
  filling file left stage := by
    rw [content file (by rw [stage]; rfl)]
    exact fits.filling file left stage
  filled file stage := by
    rw [content file (by rw [stage]; rfl)]
    exact fits.filled file stage

/-- One call moves on, and the others see nothing of it. -/
theorem Sound.move {world : World} (sound : Sound targets allowed world) {path : Str}
    {next : Option Call} (whole : Whole targets allowed fs')
    (target : ∀ after, next = some after →
      path ∈ targets.paths ∧ allowed path (some after.data))
    (fits : ∀ after, next = some after → Fits targets fs' path after)
    (frame : ∀ other call', other ≠ path → world.calls other = some call' →
      Fits targets fs' other call')
    (fresh : ∀ after file, next = some after → after.stage.file? = some file →
      ∀ other call', other ≠ path → world.calls other = some call' →
        call'.stage.file? ≠ some file) :
    Sound targets allowed ⟨fs', Function.update world.calls path next⟩ where
  whole := whole
  target other call' found := by
    change Function.update world.calls path next other = some call' at found
    by_cases here : other = path
    · subst here
      rw [Function.update_self] at found
      exact target call' found
    · rw [Function.update_of_ne here] at found
      exact sound.target other call' found
  fits other call' found := by
    change Function.update world.calls path next other = some call' at found
    by_cases here : other = path
    · subst here
      rw [Function.update_self] at found
      exact fits call' found
    · rw [Function.update_of_ne here] at found
      exact frame other call' here found
  distinct first second call₁ call₂ file found₁ found₂ has₁ has₂ := by
    change Function.update world.calls path next first = some call₁ at found₁
    change Function.update world.calls path next second = some call₂ at found₂
    by_cases here₁ : first = path <;> by_cases here₂ : second = path
    · rw [here₁, here₂]
    · subst here₁
      rw [Function.update_self] at found₁
      rw [Function.update_of_ne here₂] at found₂
      exact absurd has₂ (fresh call₁ file found₁ has₁ second call₂ here₂ found₂)
    · subst here₂
      rw [Function.update_self] at found₂
      rw [Function.update_of_ne here₁] at found₁
      exact absurd has₁ (fresh call₂ file found₂ has₂ first call₁ here₁ found₁)
    · rw [Function.update_of_ne here₁] at found₁
      rw [Function.update_of_ne here₂] at found₂
      exact sound.distinct first second call₁ call₂ file found₁ found₂ has₁ has₂

/-- A file that no path can have may change. -/
theorem Whole.setFile (whole : Whole targets allowed fs) {id : Nat}
    (alone : ∀ other ∈ targets.paths, some id ∉ fs.possible other) (file : File UInt8) :
    Whole targets allowed (fs.setFile id file) := by
  intro path target entry member
  have differ : entry ≠ some id := by
    rintro rfl
    exact alone path target member
  have same : ∀ other, entry = some other →
      (fs.setFile id file).files other = fs.files other := by
    rintro other rfl
    exact Function.update_of_ne (fun same => differ (by rw [same])) _ _
  obtain ⟨content, synced⟩ := whole path target entry member
  constructor
  · cases entry with
    | none => exact content
    | some other =>
        change allowed path (some ((fs.setFile id file).files other).written)
        rw [same other rfl]
        exact content
  · intro other named
    rw [same other named]
    exact synced other named

/-- Paths that can have no more than before stay whole. -/
theorem Whole.mono (whole : Whole targets allowed fs)
    (possible : ∀ path ∈ targets.paths, ∀ entry ∈ fs'.possible path,
      entry ∈ fs.possible path)
    (files : ∀ path ∈ targets.paths, ∀ file, some file ∈ fs.possible path →
      fs'.files file = fs.files file) : Whole targets allowed fs' := by
  intro path target entry member
  have before := possible path target entry member
  obtain ⟨content, synced⟩ := whole path target entry before
  cases entry with
  | none => exact ⟨content, fun _ same => by cases same⟩
  | some file =>
      have same := files path target file before
      refine ⟨?_, ?_⟩
      · change allowed path (some (fs'.files file).written)
        rw [same]
        exact content
      · rintro other named
        obtain rfl := Option.some.inj named
        rw [same]
        exact synced file rfl

/-- A call that fails only has its temporary name left to remove. -/
theorem Sound.fail {world : World} (sound : Sound targets allowed world) {path : Str}
    {call : Call} (there : world.calls path = some call) (e : Str) :
    Sound targets allowed (world.turn path call (.cleanup e)) := by
  refine sound.move sound.whole ?_ ?_ ?_ ?_
  · rintro _ ⟨⟩
    exact sound.target path call there
  · rintro _ ⟨⟩
    exact .of_none rfl
  · intro other call' _ found
    exact sound.fits other call' found
  · rintro _ file ⟨⟩ has
    cases has

/-- A file that a call is filling takes another content. -/
theorem Sound.fill {world : World} (sound : Sound targets allowed world) {path : Str}
    {call : Call} (there : world.calls path = some call) {id : Nat}
    (has : call.stage.file? = some id) (file : File UInt8) {stage : Stage}
    (next : stage.file? = some id)
    (filling : ∀ other left, stage = .write other left → file.written ++ left = call.data)
    (filled : ∀ other, stage = .rename other →
      file.written = call.data ∧ file.synced = true) :
    Sound targets allowed
      (({ world with fs := world.fs.setFile id file }).turn path call stage) := by
  obtain ⟨named, alone⟩ := (sound.fits path call there).own id has
  have own : (world.fs.setFile id file).files id = file := Function.update_self _ _ _
  have apart : ∀ other call', other ≠ path → world.calls other = some call' →
      call'.stage.file? ≠ some id := by
    intro other call' differ found has'
    exact differ (sound.distinct other path call' call id found there has' has)
  refine sound.move (sound.whole.setFile alone file) ?_ ?_ ?_ ?_
  · rintro _ ⟨⟩
    exact sound.target path call there
  · rintro _ ⟨⟩
    refine ⟨?_, ?_, ?_⟩
    · intro other has'
      obtain rfl := Option.some.inj (next.symm.trans has')
      exact ⟨named, alone⟩
    · intro other left written
      obtain rfl : id = other := by
        rw [show stage = .write other left from written] at next
        exact (Option.some.inj next).symm
      rw [own]
      exact filling id left written
    · intro other renames
      obtain rfl : id = other := by
        rw [show stage = .rename other from renames] at next
        exact (Option.some.inj next).symm
      rw [own]
      exact filled id renames
  · intro other call' differ found
    refine (sound.fits other call' found).frame rfl (fun _ _ _ _ member => member) ?_
    intro file' has'
    refine Function.update_of_ne ?_ _ _
    rintro rfl
    exact apart other call' differ found has'
  · rintro _ file' ⟨⟩ has'
    obtain rfl := Option.some.inj (next.symm.trans has')
    exact apart

theorem Sound.create {world : World} (sound : Sound targets allowed world) {path : Str}
    {call : Call} (there : world.calls path = some call) {id : Nat}
    (created : world.fs.createNew (tmpName path call.suffix) 0o600 = some (id, fs')) :
    Sound targets allowed (({ world with fs := fs' }).turn path call (.write id call.data)) := by
  obtain ⟨-, rfl, -, files, entries, possible⟩ := FileSystem.createNew_eq_some created
  have path_target := (sound.target path call there).1
  have same {other : Str} (target : other ∈ targets.paths) :
      fs'.possible other = world.fs.possible other := by
    rw [possible, if_neg (targets.tmpName_ne path_target target _)]
  have old {other : Str} {file : Nat} (member : some file ∈ world.fs.possible other) :
      fs'.files file = world.fs.files file := by
    rw [files]
    exact Function.update_of_ne (Nat.ne_of_lt (world.fs.inUse other file member)) _ _
  have used {other : Str} {call' : Call} {file : Nat} (found : world.calls other = some call')
      (has : call'.stage.file? = some file) : file < world.fs.next := by
    obtain ⟨named, -⟩ := (sound.fits other call' found).own file has
    refine world.fs.inUse (tmpName other call'.suffix) file ?_
    rw [named]
    exact List.mem_cons_self
  refine sound.move ?_ ?_ ?_ ?_ ?_
  · refine sound.whole.mono ?_ ?_
    · intro other target entry member
      rwa [same target] at member
    · intro other target file member
      exact old member
  · rintro _ ⟨⟩
    exact sound.target path call there
  · rintro _ ⟨⟩
    refine ⟨?_, ?_, ?_⟩
    · intro file has
      obtain rfl := Option.some.inj has
      refine ⟨by rw [entries, if_pos rfl], ?_⟩
      intro other target member
      rw [same target] at member
      exact absurd (world.fs.inUse other _ member) (Nat.lt_irrefl _)
    · rintro file left ⟨⟩
      rw [files, Function.update_self]
      rfl
    · rintro file ⟨⟩
  · intro other call' differ found
    refine (sound.fits other call' found).frame ?_ ?_ ?_
    · rw [entries, if_neg (fun clash => differ (tmpName_inj clash))]
    · intro file has other target member
      rwa [same target] at member
    · intro file has
      rw [files]
      exact Function.update_of_ne (Nat.ne_of_lt (used found has)) _ _
  · rintro _ file ⟨⟩ has other call' differ found has'
    obtain rfl := Option.some.inj has
    exact absurd (used found has') (Nat.lt_irrefl _)

theorem Sound.rename {world : World} (sound : Sound targets allowed world) {path : Str}
    {call : Call} (there : world.calls path = some call) {file : Nat}
    (stage : call.stage = .rename file)
    (renamed : world.fs.rename (tmpName path call.suffix) path = some fs') :
    Sound targets allowed (({ world with fs := fs' }).finish path) := by
  obtain ⟨id, named, files, -, entries, possible⟩ := FileSystem.rename_eq_some renamed
  have fits := sound.fits path call there
  have has : call.stage.file? = some file := by rw [stage]; rfl
  obtain rfl : file = id := Option.some.inj ((fits.own file has).1.symm.trans named)
  obtain ⟨content, synced⟩ := fits.filled file stage
  obtain ⟨path_target, complete⟩ := sound.target path call there
  have later {other : Str} (target : other ∈ targets.paths) : fs'.possible other =
      if other = path then some file :: world.fs.possible other
      else world.fs.possible other :=
    possible other (targets.tmpName_ne path_target target _)
  refine sound.move ?_ ?_ ?_ ?_ ?_
  · intro other target entry member
    have old : entry ∈ world.fs.possible other → allowed other (fs'.contentOf entry) ∧
        ∀ file, entry = some file → (fs'.files file).synced = true := by
      intro before
      rw [FileSystem.contentOf, files]
      exact sound.whole other target entry before
    rw [later target] at member
    split at member
    · next here =>
        subst here
        rcases List.mem_cons.mp member with rfl | before
        · rw [FileSystem.contentOf, files, Option.map_some, content]
          refine ⟨complete, ?_⟩
          rintro _ ⟨⟩
          exact synced
        · exact old before
    · exact old member
  · rintro _ ⟨⟩
  · rintro _ ⟨⟩
  · intro other call' differ found
    have apart : call'.stage.file? ≠ some file := fun has' =>
      differ (sound.distinct other path call' call file found there has' has)
    refine (sound.fits other call' found).frame ?_ ?_ ?_
    · rw [entries, if_neg (fun clash => differ (tmpName_inj clash)),
        if_neg (fun clash => targets.tmpName_ne (sound.target other call' found).1 path_target _
          clash.symm)]
    · intro file' has' other target member
      rw [later target] at member
      split at member
      · rcases List.mem_cons.mp member with same | before
        · obtain rfl := Option.some.inj same
          exact absurd has' apart
        · exact before
      · exact member
    · intro file' _
      rw [files]
  · rintro _ _ ⟨⟩

theorem Sound.remove {world : World} (sound : Sound targets allowed world) {path : Str}
    {call : Call} (there : world.calls path = some call) :
    Sound targets allowed
      (({ world with fs := world.fs.remove (tmpName path call.suffix) }).finish path) := by
  have path_target := (sound.target path call there).1
  have same {other : Str} (target : other ∈ targets.paths) :
      (world.fs.remove (tmpName path call.suffix)).possible other = world.fs.possible other := by
    rw [FileSystem.possible_remove, if_neg (targets.tmpName_ne path_target target _)]
  refine sound.move ?_ ?_ ?_ ?_ ?_
  · refine sound.whole.mono ?_ (fun _ _ _ _ => rfl)
    intro other target entry member
    rwa [same target] at member
  · rintro _ ⟨⟩
  · rintro _ ⟨⟩
  · intro other call' differ found
    refine (sound.fits other call' found).frame ?_ ?_ (fun _ _ => rfl)
    · rw [FileSystem.entries_remove, if_neg (fun clash => differ (tmpName_inj clash))]
    · intro file has other target member
      rwa [same target] at member
  · rintro _ _ ⟨⟩

/-- A call of the operating system for one call. -/
theorem Sound.go {world : World} (sound : Sound targets allowed world) {path : Str}
    {call : Call} (there : world.calls path = some call) (answer : Except Str Nat) :
    Sound targets allowed (world.go path call answer).1 := by
  have fits := sound.fits path call there
  rcases stage : call.stage with _ | ⟨file, left⟩ | file | e <;> rcases answer with e' | n
  · simpa only [World.go, stage] using sound.fail there e'
  · simp only [World.go, stage]
    split
    · next file fs' created => exact sound.create there created
    · exact sound.fail there _
  · simpa only [World.go, stage] using sound.fail there e'
  · have has : call.stage.file? = some file := by rw [stage]; rfl
    have content := fits.filling file left stage
    cases left with
    | nil =>
        simp only [World.go, stage]
        refine sound.fill there has _ rfl ?_ ?_
        · rintro _ _ ⟨⟩
        · intro _ _
          exact ⟨by simpa using content, rfl⟩
    | cons byte left =>
        simp only [World.go, stage]
        refine sound.fill there has _ rfl ?_ ?_
        · rintro _ _ ⟨⟩
          rw [List.append_assoc, List.take_append_drop]
          exact content
        · rintro _ ⟨⟩
  · simpa only [World.go, stage] using sound.fail there e'
  · simp only [World.go, stage]
    split
    · next fs' renamed => exact sound.rename there stage renamed
    · exact sound.fail there _
  · simp only [World.go, stage]
    refine sound.move sound.whole ?_ ?_ ?_ ?_
    · rintro _ ⟨⟩
    · rintro _ ⟨⟩
    · intro other call' _ found
      exact sound.fits other call' found
    · rintro _ _ ⟨⟩
  · simpa only [World.go, stage] using sound.remove there

/-- Without calls, only the files matter. -/
theorem Sound.of_whole (whole : Whole targets allowed fs) :
    Sound targets allowed ⟨fs, fun _ => none⟩ where
  whole := whole
  target _ _ found := by cases found
  fits _ _ found := by cases found
  distinct _ _ _ _ _ found := by cases found

/-- After a loss of power every path has one of the files that it could have. -/
theorem Whole.losePower (whole : Whole targets allowed fs) (pick : Str → Nat)
    (torn : Nat → Bytes) : Whole targets allowed (fs.losePower pick torn) := by
  refine whole.mono ?_ ?_
  · intro path _ entry member
    rw [FileSystem.possible_losePower, List.mem_singleton] at member
    subst member
    exact fs.entries_losePower pick torn path
  · intro path target file member
    exact if_pos ((whole path target (some file) member).2 file rfl)

/-- The calls that begin, begin with allowed data for a target. -/
def Allows (targets : Targets) (allowed : Str → Option Bytes → Prop) : Input → Prop
  | .start path data _ => path ∈ targets.paths ∧ allowed path (some data)
  | _ => True

theorem Sound.next {world : World} (sound : Sound targets allowed world) {input : Input}
    (allows : Allows targets allowed input) :
    Sound targets allowed (World.machine.next world input) := by
  cases input with
  | start path data suffix =>
      cases busy : world.calls path with
      | some call => simpa [Machine.next, World.machine, World.step, busy] using sound
      | none =>
          simp only [Machine.next, World.machine, World.step, busy]
          refine sound.move sound.whole ?_ ?_ ?_ ?_
          · rintro _ ⟨⟩
            exact allows
          · rintro _ ⟨⟩
            exact .of_none rfl
          · intro other call' _ found
            exact sound.fits other call' found
          · rintro _ _ ⟨⟩ has
            cases has
  | go path answer =>
      cases there : world.calls path with
      | none => simpa [Machine.next, World.machine, World.step, there] using sound
      | some call =>
          simp only [Machine.next, World.machine, World.step, there]
          exact sound.go there answer
  | kill => exact .of_whole sound.whole
  | losePower pick torn => exact .of_whole (sound.whole.losePower pick torn)

end Invariant

section Private

/-- Files from a number on are for the owner alone. -/
def Private (first : Nat) (world : World) : Prop :=
  ∀ file, first ≤ file → file < world.fs.next → (world.fs.files file).mode = 0o600

variable {first : Nat} {world : World}

/-- A file keeps its permissions when its content changes. -/
theorem Private.setFile (before : Private first world) (id : Nat) (file : File UInt8)
    (same : file.mode = (world.fs.files id).mode) (calls : Str → Option Call) :
    Private first ⟨world.fs.setFile id file, calls⟩ := by
  intro other created used
  have old := before other created used
  change (Function.update world.fs.files id file other).mode = 0o600
  by_cases here : other = id
  · subst here
    rw [Function.update_self, same, old]
  · rw [Function.update_of_ne here, old]

theorem Private.go (before : Private first world) (path : Str) (call : Call)
    (answer : Except Str Nat) : Private first (world.go path call answer).1 := by
  rcases stage : call.stage with _ | ⟨file, left⟩ | file | e <;> rcases answer with e' | n
  · simp only [World.go, stage]
    exact before
  · simp only [World.go, stage]
    split
    · next id fs' made =>
        obtain ⟨-, rfl, next, files, -⟩ := FileSystem.createNew_eq_some made
        intro other created used
        change (fs'.files other).mode = 0o600
        rw [files]
        by_cases new : other = world.fs.next
        · subst new
          rw [Function.update_self]
        · rw [Function.update_of_ne new]
          change other < fs'.next at used
          exact before other created (by omega)
    · exact before
  · simp only [World.go, stage]
    exact before
  · cases left with
    | nil =>
        simp only [World.go, stage]
        exact before.setFile file { world.fs.files file with synced := true } rfl _
    | cons byte left =>
        let data := (world.fs.files file).written ++ (byte :: left).take (n + 1)
        simp only [World.go, stage]
        exact before.setFile file
          { world.fs.files file with written := data, synced := false } rfl _
  · simp only [World.go, stage]
    exact before
  · simp only [World.go, stage]
    split
    · next fs' renamed =>
        obtain ⟨_, _, files, next, -⟩ := FileSystem.rename_eq_some renamed
        intro other created used
        change (fs'.files other).mode = 0o600
        rw [files]
        exact before other created (next ▸ used)
    · exact before
  · simp only [World.go, stage]
    exact before
  · simp only [World.go, stage]
    exact before

theorem Private.next (before : Private first world) (input : Input) :
    Private first (World.machine.next world input) := by
  cases input with
  | start path data suffix =>
      cases busy : world.calls path with
      | some call => simpa [Machine.next, World.machine, World.step, busy] using before
      | none =>
          simp only [Machine.next, World.machine, World.step, busy]
          exact before
  | go path answer =>
      cases there : world.calls path with
      | none => simpa [Machine.next, World.machine, World.step, there] using before
      | some call =>
          simp only [Machine.next, World.machine, World.step, there]
          exact before.go path call answer
  | kill => exact before
  | losePower pick torn =>
      intro file created used
      change (if (world.fs.files file).synced then world.fs.files file
        else { world.fs.files file with written := torn file, synced := true }).mode = 0o600
      split <;> exact before file created used

end Private

/-- Whatever holds of the files at the start, and of the whole of each data that is written,
holds of the files at every moment: after failures of any calls of the operating system,
kills of the process in the middle of a call, and losses of power that forget or garble
what is not on the device. -/
theorem files_whole (targets : Targets) (allowed : Str → Option Bytes → Prop)
    (fs : FileSystem Str UInt8) (inputs : List Input)
    (first : ∀ path ∈ targets.paths, allowed path (fs.read path))
    (settled : ∀ path ∈ targets.paths, fs.older path = [] ∧
      ∀ file, fs.entries path = some file → (fs.files file).synced = true)
    (writes : ∀ path data suffix, .start path data suffix ∈ inputs →
      path ∈ targets.paths ∧ allowed path (some data)) :
    let world := World.machine.run ⟨fs, fun _ => none⟩ inputs
    ∀ path ∈ targets.paths, allowed path (world.fs.read path) := by
  intro world path target
  have start : Sound targets allowed ⟨fs, fun _ => none⟩ := by
    refine .of_whole ?_
    intro path target entry member
    obtain ⟨older, synced⟩ := settled path target
    rw [FileSystem.possible, older, List.mem_singleton] at member
    subst member
    exact ⟨first path target, synced⟩
  have along : World.machine.Along (fun _ input => Allows targets allowed input)
      ⟨fs, fun _ => none⟩ inputs := by
    rintro before input after rfl
    cases input with
    | start path data suffix => exact writes path data suffix (by simp)
    | _ => trivial
  have sound : Sound targets allowed world :=
    World.machine.run_invariant_along (Sound targets allowed)
      (fun _ _ allows sound => sound.next allows) start along
  exact (sound.whole path target _ (world.fs.mem_possible_entries path)).1

/-- A state file with one octet in it. -/
def oneOctet : FileSystem Str UInt8 where
  entries name := if name = "auth.json".toList then some 0 else none
  older _ := []
  files _ := ⟨[1], true, 0o600⟩
  next := 1
  inUse name id member := by
    rcases List.mem_singleton.mp member with same
    split at same
    · obtain rfl := Option.some.inj same
      decide
    · cases same

def stateFile : Targets where
  paths := ["auth.json".toList]
  apart path member suffix clash := by
    obtain rfl := List.mem_singleton.mp member
    have same := congrArg (rsplitOnce '.') (List.mem_singleton.mp clash)
    rw [rsplitOnce_tmpName] at same
    have path : "auth.json".toList = "auth".toList := (Prod.mk.inj (Option.some.inj same)).1
    exact absurd path (by decide)

theorem oneOctet_settled : ∀ path ∈ stateFile.paths, oneOctet.older path = [] ∧
    ∀ file, oneOctet.entries path = some file → (oneOctet.files file).synced = true :=
  fun _ _ => ⟨rfl, fun _ _ => rfl⟩

/-- The power fails in the middle of a first call, the device is full in a second, and the
power fails again after a third. -/
theorem files_whole_torn :
    let name := "auth.json".toList
    let created : Input := .go name (.ok 0)
    let one : Input := .go name (.ok 0)
    let world := World.machine.run ⟨oneOctet, fun _ => none⟩
      [.start name [2, 3] 7, created, one, .losePower (fun _ => 1) (fun _ => [9]),
        .start name [2, 3] 8, created, one, .go name (.error "No space left".toList), created,
        .start name [2, 3] 9, created, one, one, one, one, .losePower (fun _ => 0) (fun _ => [9])]
    world.fs.read name = some [1] ∨ world.fs.read name = some [2, 3] := by
  refine files_whole stateFile (fun _ content => content = some [1] ∨ content = some [2, 3])
    oneOctet _ ?_ oneOctet_settled ?_ _ List.mem_cons_self
  · intro path member
    obtain rfl := List.mem_singleton.mp member
    exact .inl rfl
  · intro path data suffix member
    simp only [List.mem_cons, Input.start.injEq, reduceCtorEq, List.not_mem_nil, or_false,
      false_or] at member
    rcases member with ⟨rfl, rfl, rfl⟩ | ⟨rfl, rfl, rfl⟩ | ⟨rfl, rfl, rfl⟩ <;>
      exact ⟨List.mem_cons_self, .inr rfl⟩

/-- The files that calls create are for the owner alone, from the first octet on. -/
theorem files_private (fs : FileSystem Str UInt8) (inputs : List Input) :
    let world := World.machine.run ⟨fs, fun _ => none⟩ inputs
    ∀ file, fs.next ≤ file → file < world.fs.next → (world.fs.files file).mode = 0o600 := by
  have start : Private fs.next ⟨fs, fun _ => none⟩ := by
    intro file created used
    exact absurd used (Nat.not_lt_of_le created)
  exact World.machine.run_invariant (Private fs.next)
    (fun _ input before => before.next input) start inputs

/-! ## Calls are atomic -/

section Atomic

variable {targets : Targets} {allowed : Str → Option Bytes → Prop}

/-- The file that a call is filling is not what a path has. -/
theorem read_setFile {world : World} (sound : Sound targets allowed world) {path other : Str}
    {call : Call} (there : world.calls path = some call) {id : Nat}
    (has : call.stage.file? = some id) (file : File UInt8) (target : other ∈ targets.paths) :
    (world.fs.setFile id file).read other = world.fs.read other := by
  have alone := ((sound.fits path call there).own id has).2 other target
  change ((world.fs.entries other).map fun id' =>
    (Function.update world.fs.files id file id').written) = _
  cases entry : world.fs.entries other with
  | none => simp [FileSystem.read, FileSystem.contentOf, entry]
  | some id' =>
      have differ : id' ≠ id := by
        rintro rfl
        exact alone (entry ▸ world.fs.mem_possible_entries other)
      simp [FileSystem.read, FileSystem.contentOf, entry, Function.update_of_ne differ]

theorem read_createNew {world : World} (sound : Sound targets allowed world) {path other : Str}
    {call : Call} (there : world.calls path = some call) {id : Nat}
    {fs' : FileSystem Str UInt8}
    (created : world.fs.createNew (tmpName path call.suffix) 0o600 = some (id, fs'))
    (target : other ∈ targets.paths) : fs'.read other = world.fs.read other := by
  obtain ⟨-, rfl, -, files, entries, -⟩ := FileSystem.createNew_eq_some created
  have path_target := (sound.target path call there).1
  rw [FileSystem.read, FileSystem.read, entries,
    if_neg (targets.tmpName_ne path_target target _), FileSystem.contentOf, FileSystem.contentOf,
    files]
  refine Option.map_congr fun id' named => ?_
  have used := world.fs.inUse other id' (named ▸ List.mem_cons_self)
  rw [Function.update_of_ne (Nat.ne_of_lt used)]

/-- The one step that a reader sees: all of the data is there at once. -/
theorem read_rename {world : World} (sound : Sound targets allowed world) {path other : Str}
    {call : Call} (there : world.calls path = some call) {file : Nat}
    (stage : call.stage = .rename file) {fs' : FileSystem Str UInt8}
    (renamed : world.fs.rename (tmpName path call.suffix) path = some fs')
    (target : other ∈ targets.paths) :
    fs'.read other = if other = path then some call.data else world.fs.read other := by
  obtain ⟨id, named, files, -, entries, -⟩ := FileSystem.rename_eq_some renamed
  have fits := sound.fits path call there
  have has : call.stage.file? = some file := by rw [stage]; rfl
  obtain rfl : file = id := Option.some.inj ((fits.own file has).1.symm.trans named)
  have path_target := (sound.target path call there).1
  rw [FileSystem.read, entries, if_neg (targets.tmpName_ne path_target target _),
    FileSystem.contentOf, files]
  split
  · rw [Option.map_some, (fits.filled file stage).1]
  · rfl

theorem read_remove {world : World} (sound : Sound targets allowed world) {path other : Str}
    {call : Call} (there : world.calls path = some call) (target : other ∈ targets.paths) :
    (world.fs.remove (tmpName path call.suffix)).read other = world.fs.read other := by
  have path_target := (sound.target path call there).1
  rw [FileSystem.read, FileSystem.entries_remove,
    if_neg (targets.tmpName_ne path_target target _)]
  rfl

/-- What the operating system answered to a call that has returned, for the atomic model. -/
def Output.env (env : Env) (output : Output) : Env :=
  { env with
    writeError :=
      match output.result with
      | .ok () => none
      | .error e => some e }

/-- The atomic model of the call that has returned. -/
def Output.apply (env : Env) (disk : Disk) (output : Output) : Disk :=
  (writePrivateFile disk (output.env env) output.path output.data).1

theorem Output.apply_ok (env : Env) (disk : Disk) (path : Str) (data : Bytes) :
    Output.apply env disk ⟨path, data, .ok ()⟩ = Function.update disk path (some data) := rfl

/-- Readers of the targets find what a disk has. -/
def Agrees (targets : Targets) (world : World) (disk : Disk) : Prop :=
  ∀ path ∈ targets.paths, world.fs.read path = disk path

theorem Agrees.go {world : World} (sound : Sound targets allowed world) {path : Str}
    {call : Call} (there : world.calls path = some call) (answer : Except Str Nat) (env : Env)
    {disk : Disk} (agrees : Agrees targets world disk) :
    Agrees targets (world.go path call answer).1
      ((world.go path call answer).2.foldl (Output.apply env) disk) := by
  intro other target
  have same := agrees other target
  rcases stage : call.stage with _ | ⟨file, left⟩ | file | e <;> rcases answer with e' | n
  · simp only [World.go, stage]
    exact same
  · simp only [World.go, stage]
    split
    · next file fs' created => exact (read_createNew sound there created target).trans same
    · exact same
  · simp only [World.go, stage]
    exact same
  · have has : call.stage.file? = some file := by rw [stage]; rfl
    cases left with
    | nil =>
        simp only [World.go, stage]
        exact (read_setFile sound there has _ target).trans same
    | cons byte left =>
        simp only [World.go, stage]
        exact (read_setFile sound there has _ target).trans same
  · simp only [World.go, stage]
    exact same
  · simp only [World.go, stage]
    split
    · next fs' renamed =>
        rw [List.foldl_cons, List.foldl_nil, Output.apply_ok]
        refine (read_rename sound there stage renamed target).trans ?_
        rw [Function.update_apply, same]
    · exact same
  · simp only [World.go, stage]
    exact same
  · simp only [World.go, stage]
    exact (read_remove sound there target).trans same

/-- Calls begin with data for a target, and the power stays on. -/
def Powered (targets : Targets) : Input → Prop
  | .start path _ _ => path ∈ targets.paths
  | .losePower _ _ => False
  | _ => True

theorem Powered.allows {input : Input} (powered : Powered targets input) :
    Allows targets (fun _ _ => True) input := by
  cases input with
  | start path data suffix => exact ⟨powered, trivial⟩
  | _ => trivial

theorem Agrees.next {world : World} (sound : Sound targets (fun _ _ => True) world)
    (env : Env) {disk : Disk} {input : Input} (powered : Powered targets input)
    (agrees : Agrees targets world disk) :
    Agrees targets (World.machine.next world input)
      ((World.machine.outputs world input).foldl (Output.apply env) disk) := by
  cases input with
  | start path data suffix =>
      cases busy : world.calls path with
      | some call =>
          simpa [Machine.next, Machine.outputs, World.machine, World.step, busy] using agrees
      | none =>
          simp only [Machine.next, Machine.outputs, World.machine, World.step, busy]
          exact agrees
  | go path answer =>
      cases there : world.calls path with
      | none =>
          simpa [Machine.next, Machine.outputs, World.machine, World.step, there] using agrees
      | some call =>
          simp only [Machine.next, Machine.outputs, World.machine, World.step, there]
          exact agrees.go sound there answer env
  | kill => exact agrees
  | losePower pick torn => exact absurd powered id

end Atomic

/-- As long as the power stays on, every reader finds what the calls that have returned left
behind when each of them is one atomic replacement: whatever the system answers to the calls
in progress, in whatever order they go on, and wherever the process is killed.  A call returns
with its `rename`, the last thing it does to the files. -/
theorem writes_refine_atomic (targets : Targets) (env : Env) (fs : FileSystem Str UInt8)
    (inputs : List Input)
    (settled : ∀ path ∈ targets.paths, fs.older path = [] ∧
      ∀ file, fs.entries path = some file → (fs.files file).synced = true)
    (powered : ∀ input ∈ inputs, Powered targets input) :
    let start : World := ⟨fs, fun _ => none⟩
    let disk := (World.machine.trace start inputs).foldl (Output.apply env) fs.read
    ∀ path ∈ targets.paths, (World.machine.run start inputs).fs.read path = disk path := by
  intro start disk
  have whole : Whole targets (fun _ _ => True) fs := by
    intro path target entry member
    obtain ⟨older, synced⟩ := settled path target
    rw [FileSystem.possible, older, List.mem_singleton] at member
    subst member
    exact ⟨trivial, synced⟩
  have along : World.machine.Along (fun _ input => Powered targets input) start inputs := by
    rintro before input after rfl
    exact powered input (by simp)
  have first : Sound targets (fun _ _ => True) start ∧ Agrees targets start fs.read :=
    ⟨.of_whole whole, fun _ _ => rfl⟩
  have last := World.machine.run_replayed (Output.apply env)
    (fun world disk => Sound targets (fun _ _ => True) world ∧ Agrees targets world disk)
    (fun world disk input powered both =>
      ⟨both.1.next powered.allows, both.2.next both.1 env powered⟩) first along
  exact last.2

/-- One call is killed before it renames, and the next one returns. -/
theorem writes_refine_atomic_killed :
    let name := "auth.json".toList
    let env : Env := ⟨[], none, .error [], none⟩
    let start : World := ⟨oneOctet, fun _ => none⟩
    let on : Input := .go name (.ok 0)
    let inputs : List Input := [.start name [2, 3] 7, on, on, on, on, .kill,
      .start name [4] 8, on, on, on, on]
    let disk := (World.machine.trace start inputs).foldl (Output.apply env) oneOctet.read
    disk name = some [4] ∧ (World.machine.run start inputs).fs.read name = disk name := by
  intro name env start on inputs disk
  refine ⟨by decide, ?_⟩
  refine writes_refine_atomic stateFile env oneOctet inputs oneOctet_settled ?_ name
    List.mem_cons_self
  intro input member
  simp only [inputs, List.mem_cons, List.not_mem_nil, or_false] at member
  rcases member with rfl | rfl | rfl | rfl | rfl | rfl | rfl | rfl | rfl | rfl | rfl <;>
    first | trivial | exact List.mem_cons_self

end Proxemby.PrivateFile
