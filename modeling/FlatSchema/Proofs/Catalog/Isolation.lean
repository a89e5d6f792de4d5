import FlatSchema.Proofs.Catalog.Durability
import FlatSchema.Proofs.Catalog.Identifier

namespace FlatSchema

namespace Path

/-- The text of a path with a name behind it. A name that begins with a slash is a path of its own
and takes the place of the other. -/
def joined (base name : String) : String :=
  if startsWith "/" name then name
  else if base = "" ∨ base.toList.getLast? = some '/' then base ++ name
  else base ++ "/" ++ name

@[simp] theorem steps_empty : steps "" = [] := by decide

/-- A slash parts the steps before it from those after it. -/
theorem steps_of_slash {text before after : String}
    (h : text.toList = before.toList ++ '/' :: after.toList) :
    steps text = steps before ++ steps after := by
  have hsplit : text.toList.splitOn '/' =
      before.toList.splitOn '/' ++ after.toList.splitOn '/' := by
    rw [h]
    exact List.splitOnP_append_cons _ _ (by simp)
  rw [steps, components, hsplit, List.map_append, List.filter_append]
  rfl

/-- A name leads one step further. -/
theorem steps_joined (base : String) {name : String} (h : startsWith "/" name = false) :
    steps (joined base name) = steps base ++ steps name := by
  rw [joined, if_neg (by simp [h])]
  by_cases hempty : base = ""
  · simp [hempty]
  · by_cases hslash : base.toList.getLast? = some '/'
    · rw [if_pos (.inr hslash)]
      obtain ⟨before, hbefore⟩ := List.getLast?_eq_some_iff.mp hslash
      have hbase : steps base = steps (String.ofList before) ++ steps "" :=
        steps_of_slash (by simp [hbefore])
      have htext : steps (base ++ name) = steps (String.ofList before) ++ steps name :=
        steps_of_slash (by simp [hbefore])
      rw [htext, hbase, steps_empty, List.append_nil]
    · rw [if_neg (by simp [hempty, hslash])]
      exact steps_of_slash (by simp)

/-- A name leads from a directory to what has that name in it. -/
def IsStep (name : String) : Prop :=
  '/' ∉ name.toList ∧ name ≠ "" ∧ name ≠ "." ∧ name ≠ ".."

theorem IsStep.steps_eq {name : String} (h : IsStep name) : steps name = [name] := by
  obtain ⟨hslash, hempty, hdot, _⟩ := h
  rw [steps, components, List.splitOn_eq_singleton hslash]
  simp [hempty, hdot]

theorem IsStep.not_startsWith {name : String} (h : IsStep name) : startsWith "/" name = false := by
  rw [startsWith, Bool.eq_false_iff]
  intro hstart
  obtain ⟨rest, hrest⟩ := List.isPrefixOf_iff_prefix.mp hstart
  apply h.1
  rw [← hrest]
  simp

theorem IsStep.steps_joined {name : String} (h : IsStep name) (base : String) :
    steps (joined base name) = steps base ++ [name] := by
  rw [Path.steps_joined base h.not_startsWith, h.steps_eq]

end Path

/-- Names that keep to the rules have no dot, so they cannot lead back. -/
theorem isStep_of_isName {text : String} (h : isName text) : Path.IsStep text := by
  obtain ⟨hempty, hallowed⟩ := isName_iff_namesPart.mp h
  have hdot := dot_notMem_of_isName h
  refine ⟨?_, hempty, ?_, ?_⟩
  · intro hslash
    exact (hallowed '/' hslash).2.1 rfl
  · rintro rfl
    exact hdot (by decide)
  · rintro rfl
    exact hdot (by decide)

namespace FileSystemCatalog

theorem isStep_databaseName {database : String} (h : isName database) :
    Path.IsStep (databaseName database) := by
  have hletter : 'd' ∈ (databaseName database).toList := by simp [databaseName]
  refine ⟨?_, ?_, ?_, ?_⟩
  · have hslash := (isStep_of_isName h).1
    simpa [databaseName] using hslash
  all_goals
    intro heq
    rw [heq] at hletter
    exact absurd hletter (by decide)

theorem isStep_of_mem_tablePath {id : Identifier} {name : String} (h : name ∈ tablePath id) :
    Path.IsStep name := by
  rcases List.mem_cons.mp h with rfl | h
  · exact isStep_databaseName id.isName_database
  · obtain rfl := List.mem_singleton.mp h
    exact isStep_of_isName id.isName_table

/-- The text of the path to a table's directory below a warehouse. -/
def tableText (warehouse : String) (id : Identifier) : String :=
  Path.joined (Path.joined warehouse (databaseName id.database)) id.table

theorem steps_tableText (warehouse : String) (id : Identifier) :
    Path.steps (tableText warehouse id) = Path.steps warehouse ++ tablePath id := by
  have hdatabase := isStep_databaseName id.isName_database
  have htable := isStep_of_isName id.isName_table
  rw [tableText, htable.steps_joined, hdatabase.steps_joined, List.append_assoc]
  rfl

/-- The flat form of a table may have been written, and directories may have been made where there
was nothing on the way to it. All else is as it was. -/
def StoresOnly (id : Identifier) (before after : Warehouse) : Prop :=
  ∀ path, after.get? path = before.get? path ∨
    (path = [databaseName id.database] ∨ path = tablePath id) ∧ before.get? path = none ∧
      after.get? path = some .directory ∨
    path = schemaPath id ∧ before.get? path ≠ some .directory ∧
      ∃ contents, after.get? path = some (.file contents)

/-- All that is not in the directory of a table is as it was. -/
def ClearsOnly (id : Identifier) (before after : Warehouse) : Prop :=
  ∀ path, ¬tablePath id <+: path → after.get? path = before.get? path

variable (c : FileSystemCatalog) (id : Identifier)

theorem writeStored_storesOnly (stored : StoredTable) :
    StoresOnly id c.warehouse (c.writeStored id stored).2.warehouse := by
  intro path
  rcases c.get?_writeStored id stored path with hsame | ⟨hon, hmade⟩ | ⟨hpath, hfree, hfile⟩
  · exact .inl hsame
  · exact .inr (.inl ⟨onWay_tablePath.mp hon, hmade⟩)
  · exact .inr (.inr ⟨hpath, hfree, _, hfile⟩)

theorem create_storesOnly (table : CatalogTable) (ignoreIfExists : Bool) :
    StoresOnly id c.warehouse (Catalog.create c id table ignoreIfExists).2.warehouse := by
  rcases Catalog.create_cases c id table ignoreIfExists with ⟨_, hcreate⟩ | ⟨_, stored, hcreate⟩
  · rw [hcreate]
    exact fun path => .inl rfl
  · rw [hcreate]
    exact c.writeStored_storesOnly id stored

theorem removeStored_clearsOnly :
    ClearsOnly id c.warehouse (c.removeStored id).2.warehouse := by
  intro path hout
  rcases c.get?_removeStored id path with hsame | ⟨hinside, _⟩
  · exact hsame
  · exact absurd hinside hout

theorem drop_clearsOnly (ignoreIfMissing : Bool) :
    ClearsOnly id c.warehouse (Catalog.drop c id ignoreIfMissing).2.warehouse := by
  rw [Catalog.drop_snd]
  exact c.removeStored_clearsOnly id

end FileSystemCatalog

namespace Catalog

open Backend

variable {σ : Type} [Backend σ]

/-- The table that an operation is on. A listing is on none, and neither is opening again. -/
def Operation.target? : Operation → Option Identifier
  | create id _ _ | get id | drop id _ | «exists» id | readStored id | writeStored id _
  | removeStored id => some id
  | list _ | reopen => none

namespace KeepsApart

variable {Sound : σ → Prop} {id : Identifier}

/-- An operation on another table leaves what is read of a table as it is. -/
theorem read_step_other (laws : KeepsApart Sound) (s : σ) {op : Operation}
    (hop : op.target? ≠ some id) : readStored (step s op).2 id = readStored s id := by
  have hother : ∀ {other}, op.target? = some other → id ≠ other := by
    rintro other htarget rfl
    exact hop htarget
  cases op with
  | create other table ignoreIfExists =>
    rcases create_cases s other table ignoreIfExists with ⟨answer, hcreate⟩ | ⟨_, stored, hcreate⟩
    · simp only [step, hcreate]
    · simp only [step, hcreate]
      exact laws.read_written_other s other stored id (hother rfl)
  | drop other ignoreIfMissing =>
    change readStored (drop s other ignoreIfMissing).2 id = _
    rw [drop_snd]
    exact laws.read_removed_other s other id (hother rfl)
  | writeStored other stored => exact laws.read_written_other s other stored id (hother rfl)
  | removeStored other => exact laws.read_removed_other s other id (hother rfl)
  | reopen => exact laws.read_reopened s id
  | get other | «exists» other | list database | readStored other => rfl

/-- So do all operations on other tables together. -/
theorem read_run_other (laws : KeepsApart Sound) (s : σ) {ops : List Operation}
    (hops : ∀ op ∈ ops, op.target? ≠ some id) :
    readStored (run s ops).2 id = readStored s id := by
  induction ops generalizing s with
  | nil => rfl
  | cons op ops ih =>
    obtain ⟨hop, hops⟩ := List.forall_mem_cons.mp hops
    exact (ih (step s op).2 hops).trans (laws.read_step_other s hop)

end KeepsApart

theorem get_congr {s s' : σ} {id : Identifier} (h : readStored s' id = readStored s id) :
    get s' id = get s id := by
  rw [get, get, h]

theorem exists?_congr {s s' : σ} {id : Identifier} (h : readStored s' id = readStored s id) :
    exists? s' id = exists? s id := by
  rw [exists?, exists?, h]

end Catalog

namespace FileSystemCatalog

open Catalog

/-- A table has a directory of its own two steps below the warehouse. What is written for the table
or removed with it is in there, but for the directories on the way, and nobody sees it who asks for
another table. -/
theorem tables_isolated (c : FileSystemCatalog) (a : Identifier) :
    (∀ warehouse, Path.steps (tableText warehouse a) =
      Path.steps warehouse ++ [a.database ++ ".db", a.table]) ∧
    (∀ name ∈ [a.database ++ ".db", a.table], Path.IsStep name) ∧
    (∀ stored, StoresOnly a c.warehouse (c.writeStored a stored).2.warehouse) ∧
    (∀ table ignoreIfExists,
      StoresOnly a c.warehouse (create c a table ignoreIfExists).2.warehouse) ∧
    ClearsOnly a c.warehouse (c.removeStored a).2.warehouse ∧
    (∀ ignoreIfMissing, ClearsOnly a c.warehouse (drop c a ignoreIfMissing).2.warehouse) ∧
    ∀ b, b ≠ a → ¬tablePath a <+: tablePath b ∧ ¬tablePath b <+: tablePath a ∧
      ∀ ops : List Operation, (∀ op ∈ ops, op.target? = some a) →
        (run c ops).2.readStored b = c.readStored b ∧ get (run c ops).2 b = get c b ∧
          exists? (run c ops).2 b = exists? c b := by
  refine ⟨?_, ?_, c.writeStored_storesOnly a, c.create_storesOnly a, c.removeStored_clearsOnly a,
    c.drop_clearsOnly a, ?_⟩
  · intro warehouse
    exact steps_tableText warehouse a
  · intro name hname
    exact isStep_of_mem_tablePath hname
  intro b hne
  refine ⟨?_, ?_, ?_⟩
  · rw [tablePath_prefix_tablePath]
    exact hne
  · rw [tablePath_prefix_tablePath]
    exact hne.symm
  · intro ops hops
    have hothers : ∀ op ∈ ops, op.target? ≠ some b := by
      intro op hop htarget
      rw [hops op hop, Option.some.injEq] at htarget
      exact hne htarget.symm
    have hread : Backend.readStored (run c ops).2 b = Backend.readStored c b :=
      keepsApart.read_run_other c hothers
    exact ⟨hread, get_congr hread, exists?_congr hread⟩

/-- Others have left a note where orders are to be, and a file for customers that cannot be read. -/
def noted : FileSystemCatalog :=
  ⟨((Warehouse.empty.putFileAt "shop.db/orders/notes.txt" "keep".toUTF8).2.putFileAt
    "shop.db/customers/schema.json" "gone".toUTF8).2⟩

/-- Orders come and go, and once more than they can. -/
def ordersVisits : List Operation :=
  [.create ordersId CatalogTable.ordersTable false, .get ordersId, .drop ordersId false,
    .drop ordersId false]

theorem tables_isolated_customers : customersId ≠ ordersId ∧
    (∀ op ∈ ordersVisits, op.target? = some ordersId) ∧
    exists? noted customersId ≠ .ok false ∧
    exists? (run noted ordersVisits).2 customersId ≠ .ok false := by
  have hne : customersId ≠ ordersId := by decide
  have hops : ∀ op ∈ ordersVisits, op.target? = some ordersId := by
    simp [ordersVisits, Operation.target?]
  have hothers := (tables_isolated noted ordersId).2.2.2.2.2.2 customersId hne
  have hexists := (hothers.2.2 ordersVisits hops).2.2
  have hthere : exists? noted customersId ≠ .ok false := by decide +kernel
  exact ⟨hne, hops, hthere, hexists ▸ hthere⟩

end FileSystemCatalog

end FlatSchema
