import FlatSchema.Catalog.Error

namespace FlatSchema

inductive Entry where
  | file (contents : ByteArray)
  | directory

/-- Files are equal if they hold the same bytes. -/
instance : DecidableEq Entry
  | .file a, .file b =>
    if h : a.data = b.data then isTrue (congrArg Entry.file (ByteArray.ext h))
    else isFalse (fun he => h (congrArg ByteArray.data (Entry.file.inj he)))
  | .file _, .directory => isFalse nofun
  | .directory, .file _ => isFalse nofun
  | .directory, .directory => isTrue rfl

/-- A tree of files as a map from paths to entries. Every entry lies at the top or in a directory,
so a path below a file leads nowhere. -/
structure Warehouse where
  entries : SortedMap Path Entry
  housed : ∀ path entry, entries.get? path = some entry →
    path ≠ [] ∧ (path.dropLast = [] ∨ entries.get? path.dropLast = some .directory)
deriving DecidableEq

namespace Warehouse

def empty : Warehouse := ⟨.empty, by simp⟩

def get? (w : Warehouse) (path : Path) : Option Entry := w.entries.get? path

/-- The length in bytes that no name may exceed. -/
def maxNameLength : Nat := 255

/-- Whether a path can lead to a new entry, or to a file in place of another. -/
def Accepts (w : Warehouse) (path : Path) : Prop :=
  path ≠ [] ∧ (path.dropLast = [] ∨ w.get? path.dropLast = some .directory) ∧
    w.get? path ≠ some .directory ∧ ∀ name ∈ path.getLast?, name.utf8ByteSize ≤ maxNameLength

instance (w : Warehouse) (path : Path) : Decidable (w.Accepts path) :=
  inferInstanceAs (Decidable (_ ∧ _ ∧ _ ∧ _))

def put? (w : Warehouse) (path : Path) (entry : Entry) : Option Warehouse :=
  if h : w.Accepts path then
    some {
      entries := w.entries.insert path entry
      housed := by
        obtain ⟨hne, hparent, hdir, _⟩ := h
        have hself : path.dropLast ≠ path := fun he => by
          have hl := congrArg List.length he
          have hp := List.length_pos_iff.mpr hne
          simp only [List.length_dropLast] at hl
          omega
        intro other e he
        rw [SortedMap.get?_insert] at he
        split at he
        · rename_i heq
          subst heq
          refine ⟨hne, hparent.imp id (fun hp => ?_)⟩
          rw [SortedMap.get?_insert, if_neg hself]
          exact hp
        · obtain ⟨hone, hoparent⟩ := w.housed other e he
          refine ⟨hone, hoparent.imp id (fun hp => ?_)⟩
          rw [SortedMap.get?_insert]
          split
          · rename_i heq
            exact absurd (heq ▸ hp) hdir
          · exact hp }
  else none

def remove (w : Warehouse) (path : Path) : Warehouse where
  entries := w.entries.filter (fun other _ => !path.isPrefixOf other)
  housed := by
    intro other e he
    rw [SortedMap.get?_filter, Option.filter_eq_some_iff] at he
    obtain ⟨hone, hoparent⟩ := w.housed other e he.1
    refine ⟨hone, hoparent.imp id (fun hp => ?_)⟩
    rw [SortedMap.get?_filter, Option.filter_eq_some_iff]
    refine ⟨hp, ?_⟩
    have hout := he.2
    simp only [Bool.not_eq_true', Bool.eq_false_iff, ne_eq, List.isPrefixOf_iff_prefix] at hout ⊢
    exact fun hpre => hout (hpre.trans (List.dropLast_prefix other))

/-- Makes the directories on the way from a path that is there. Tells whether all of them are there
in the end; those before a fault stay. -/
def makeDirectories (w : Warehouse) (start : Path) : Path → Bool × Warehouse
  | [] => (true, w)
  | name :: rest =>
    match w.get? (start ++ [name]) with
    | some .directory => makeDirectories w (start ++ [name]) rest
    | some (.file _) => (false, w)
    | none =>
      match w.put? (start ++ [name]) .directory with
      | some w => makeDirectories w (start ++ [name]) rest
      | none => (false, w)

/-- Takes the steps of a path that is given as text, and makes the directories that are missing on
the way, even those that two dots leave again. The last directory, if none is out of reach. -/
def makeWay (w : Warehouse) (here : Path) : List String → Option Path × Warehouse
  | [] => (some here, w)
  | step :: rest =>
    if step = ".." then if here = [] then (none, w) else makeWay w here.dropLast rest
    else
      match w.makeDirectories here [step] with
      | (true, w) => makeWay w (here ++ [step]) rest
      | (false, w) => (none, w)

/-- Makes the directory to which a path that is given as text leads. Tells whether that succeeds. No
catalog asks for this: tests put a directory into a warehouse with it. -/
def makeDirectoryAt (w : Warehouse) (text : String) : Bool × Warehouse :=
  let (reached, w) := w.makeWay [] (Path.steps text)
  (reached.isSome, w)

/-- Writes a file, and makes the directories on the way to it. Tells whether that succeeds. No
catalog asks for this: it is what others do to a warehouse. -/
def putFileAt (w : Warehouse) (text : String) (contents : ByteArray) : Bool × Warehouse :=
  let steps := Path.steps text
  match w.makeWay [] steps.dropLast, steps.getLast? with
  | (some here, w), some name =>
    if name = ".." then (false, w)
    else match w.put? (here ++ [name]) (.file contents) with
      | some w => (true, w)
      | none => (false, w)
  | (_, w), _ => (false, w)

/-- The contents of a file, if they are text. No catalog asks for this: tests look into a warehouse
with it. -/
def readText? (w : Warehouse) (path : Path) : Option String :=
  match w.get? path with
  | some (.file contents) => String.fromUTF8? contents
  | _ => none

/-- Where a path that is given as text leads, component by component: a dot stays, two dots go back,
and only a directory can be gone through. The path does not leave the tree. Only tests take such
paths. -/
def resolve? (w : Warehouse) (here : Path) : List String → Option Path
  | [] => some here
  | name :: rest =>
    if here = [] ∨ w.get? here = some .directory then
      if name = "" ∨ name = "." then resolve? w here rest
      else if name = ".." then if here = [] then none else resolve? w here.dropLast rest
      else resolve? w (here ++ [name]) rest
    else none

/-- The contents of the file to which a path that is given as text leads. Only tests use it. -/
def readTextAt? (w : Warehouse) (text : String) : Option String := do
  if startsWith "/" text then none
  let path ← w.resolve? [] (Path.components text)
  w.readText? path

/-- A path as tests list it, where a directory ends in a slash. -/
def listed : Path × Entry → String
  | (path, .file _) => path.text
  | (path, .directory) => path.text ++ "/"

/-- All paths as they are listed, in ascending order of their texts. Only tests ask for this. -/
def listing (w : Warehouse) : List String :=
  (SortedMap.ofList (w.entries.entries.map (fun e => (listed e, ())))).keys

end Warehouse

end FlatSchema
