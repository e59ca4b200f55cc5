import Mathlib.Logic.Function.Basic

/-!
# Files that survive crashes

A file system with names and files.  What is written to a file may be lost with the power
until it is synced, and a name may then go back to any file that it has named before; a
process that is killed loses nothing of either.  One operation changes at most two names
or one file.
-/

/-- The content of a file, whether all of it is on the device, and its permissions. -/
structure File (β : Type*) where
  written : List β
  synced : Bool
  mode : Nat

/-- Names and the numbers of their files; `older` are those that a loss of power can bring
back.  Files are numbered in the order of their creation. -/
structure FileSystem (ν β : Type*) where
  entries : ν → Option Nat
  older : ν → List (Option Nat)
  files : Nat → File β
  next : Nat
  inUse : ∀ name id, some id ∈ entries name :: older name → id < next

namespace FileSystem

variable {ν β : Type*} (fs : FileSystem ν β)

/-- What a name can name once the power has been lost. -/
def possible (name : ν) : List (Option Nat) := fs.entries name :: fs.older name

/-- The content behind an entry. -/
def contentOf (entry : Option Nat) : Option (List β) := entry.map fun id => (fs.files id).written

/-- What a reader finds. -/
def read (name : ν) : Option (List β) := fs.contentOf (fs.entries name)

/-- The power is lost: every name picks one of its entries, and a file that is not synced has
any content. -/
def losePower (pick : ν → Nat) (torn : Nat → List β) : FileSystem ν β :=
  { fs with
    entries := fun name => ((fs.possible name)[pick name]?).getD (fs.entries name)
    older := fun _ => []
    files := fun id =>
      if (fs.files id).synced then fs.files id
      else { fs.files id with written := torn id, synced := true }
    inUse := by
      intro name id member
      rw [List.mem_singleton] at member
      cases found : (fs.possible name)[pick name]? with
      | none =>
          rw [found] at member
          exact fs.inUse name id (member ▸ List.mem_cons_self)
      | some entry =>
          rw [found] at member
          exact fs.inUse name id (member ▸ List.mem_of_getElem? found) }

theorem mem_possible_entries (name : ν) : fs.entries name ∈ fs.possible name :=
  List.mem_cons_self

/-- What a name has after a loss of power is one of its entries. -/
theorem entries_losePower (pick : ν → Nat) (torn : Nat → List β) (name : ν) :
    (fs.losePower pick torn).entries name ∈ fs.possible name := by
  change ((fs.possible name)[pick name]?).getD (fs.entries name) ∈ _
  cases found : (fs.possible name)[pick name]? with
  | none => exact fs.mem_possible_entries name
  | some entry => exact List.mem_of_getElem? found

theorem possible_losePower (pick : ν → Nat) (torn : Nat → List β) (name : ν) :
    (fs.losePower pick torn).possible name = [(fs.losePower pick torn).entries name] := rfl

variable [DecidableEq ν]

/-- Let a name have another entry. -/
def setEntry (name : ν) (entry : Option Nat) (used : ∀ id, entry = some id → id < fs.next) :
    FileSystem ν β :=
  { fs with
    entries := Function.update fs.entries name entry
    older := Function.update fs.older name (fs.possible name)
    inUse := by
      intro other id member
      by_cases same : other = name
      · subst same
        rw [Function.update_self, Function.update_self, List.mem_cons] at member
        rcases member with new | old
        · exact used id new.symm
        · exact fs.inUse other id old
      · rw [Function.update_of_ne same, Function.update_of_ne same] at member
        exact fs.inUse other id member }

/-- Let a file have another content. -/
def setFile (id : Nat) (file : File β) : FileSystem ν β :=
  { fs with files := Function.update fs.files id file }

/-- Take the next number for a file. -/
def allocate (file : File β) : FileSystem ν β :=
  { fs with
    files := Function.update fs.files fs.next file
    next := fs.next + 1
    inUse := fun name id member => Nat.lt_succ_of_lt (fs.inUse name id member) }

/-- `open` with `create_new`: it fails when the name is taken. -/
def createNew (name : ν) (mode : Nat) : Option (Nat × FileSystem ν β) :=
  match fs.entries name with
  | some _ => none
  | none =>
      some (fs.next, (fs.allocate ⟨[], false, mode⟩).setEntry name (some fs.next)
        (fun id same => by
          obtain rfl := Option.some.inj same
          exact Nat.lt_succ_self _))

/-- Append to a file. -/
def append (id : Nat) (data : List β) : FileSystem ν β :=
  fs.setFile id { fs.files id with written := (fs.files id).written ++ data, synced := false }

def sync (id : Nat) : FileSystem ν β := fs.setFile id { fs.files id with synced := true }

def remove (name : ν) : FileSystem ν β := fs.setEntry name none (fun _ same => by cases same)

/-- Give the file of a name another name, in place of the file that has it. -/
def rename (source target : ν) : Option (FileSystem ν β) :=
  match entry : fs.entries source with
  | none => none
  | some id =>
      some ((fs.setEntry target (some id) (fun other same => by
        obtain rfl := Option.some.inj same
        exact fs.inUse source _ (entry ▸ List.mem_cons_self))).remove source)

/-! ## What an operation changes -/

section Changes

variable {fs} {name other : ν} {entry : Option Nat}

theorem entries_setEntry {used : ∀ id, entry = some id → id < fs.next} :
    (fs.setEntry name entry used).entries other =
      if other = name then entry else fs.entries other :=
  Function.update_apply _ _ _ _

/-- A change of an entry leaves the one before it possible. -/
theorem possible_setEntry {used : ∀ id, entry = some id → id < fs.next} :
    (fs.setEntry name entry used).possible other =
      if other = name then entry :: fs.possible other else fs.possible other := by
  by_cases same : other = name
  · subst same
    simp [possible, setEntry]
  · simp [possible, setEntry, same]

/-- A new file has a number that no name has had. -/
theorem createNew_eq_some {mode id : Nat} {after : FileSystem ν β}
    (created : fs.createNew name mode = some (id, after)) :
    fs.entries name = none ∧ id = fs.next ∧ after.next = fs.next + 1 ∧
      after.files = Function.update fs.files id ⟨[], false, mode⟩ ∧
      (∀ other, after.entries other = if other = name then some id else fs.entries other) ∧
      ∀ other, after.possible other =
        if other = name then some id :: fs.possible other else fs.possible other := by
  rw [createNew] at created
  cases taken : fs.entries name with
  | some other =>
      rw [taken] at created
      cases created
  | none =>
      rw [taken] at created
      obtain ⟨rfl, rfl⟩ := Prod.mk.inj (Option.some.inj created)
      exact ⟨rfl, rfl, rfl, rfl, fun _ => entries_setEntry, fun _ => possible_setEntry⟩

theorem entries_remove :
    (fs.remove name).entries other = if other = name then none else fs.entries other :=
  entries_setEntry

theorem possible_remove : (fs.remove name).possible other =
    if other = name then none :: fs.possible other else fs.possible other :=
  possible_setEntry

/-- A file that gets another name goes on under that name alone. -/
theorem rename_eq_some {source target : ν} {after : FileSystem ν β}
    (renamed : fs.rename source target = some after) :
    ∃ id, fs.entries source = some id ∧ after.files = fs.files ∧ after.next = fs.next ∧
      (∀ other, after.entries other =
        if other = source then none else if other = target then some id else fs.entries other) ∧
      ∀ other, other ≠ source → after.possible other =
        if other = target then some id :: fs.possible other else fs.possible other := by
  rw [rename] at renamed
  split at renamed
  · cases renamed
  · next id entry =>
      obtain rfl := Option.some.inj renamed
      refine ⟨id, entry, rfl, rfl, ?_, ?_⟩
      · intro other
        rw [entries_remove, entries_setEntry]
      · intro other differ
        rw [possible_remove, if_neg differ, possible_setEntry]

end Changes

end FileSystem
