import FlatSchema.Proofs.Form.Parts
import FlatSchema.Proofs.Form.Table
import FlatSchema.Proofs.Restoration

namespace FlatSchema

open Json

/-- The first name that repeats another has only distinct names before it. -/
theorem firstRepeat_eq_some_iff {seen names : List String} {name : String} :
    firstRepeat seen names = some name ↔ ∃ before after, names = before ++ name :: after ∧
      before.Nodup ∧ (∀ other ∈ before, other ∉ seen) ∧ (name ∈ before ∨ name ∈ seen) := by
  -- A name that is not seen yet moves from the list to those seen, or to the names before.
  induction names generalizing seen with
  | nil => simp [firstRepeat]
  | cons first rest ih =>
    rw [firstRepeat]
    by_cases hfirst : first ∈ seen
    · rw [if_pos hfirst, Option.some.injEq]
      constructor
      · intro h
        obtain rfl := h
        exact ⟨[], rest, rfl, .nil, by simp, .inr hfirst⟩
      · rintro ⟨before, after, hnames, -, hunseen, -⟩
        cases before with
        | nil => exact (List.cons_eq_cons.mp hnames).1
        | cons other before =>
          obtain ⟨rfl, -⟩ := List.cons_eq_cons.mp hnames
          exact absurd hfirst (hunseen first List.mem_cons_self)
    · rw [if_neg hfirst, ih]
      constructor
      · rintro ⟨before, after, rfl, hdistinct, hunseen, hagain⟩
        refine ⟨first :: before, after, rfl, List.nodup_cons.mpr ⟨?_, hdistinct⟩, ?_, ?_⟩
        · exact fun hm => hunseen first hm List.mem_cons_self
        · rw [List.forall_mem_cons]
          exact ⟨hfirst, fun other ho hm => hunseen other ho (List.mem_cons_of_mem first hm)⟩
        · rw [List.mem_cons] at hagain ⊢
          tauto
      · rintro ⟨before, after, hnames, hdistinct, hunseen, hagain⟩
        cases before with
        | nil =>
          obtain ⟨rfl, -⟩ := List.cons_eq_cons.mp hnames
          simp [hfirst] at hagain
        | cons other before =>
          obtain ⟨rfl, rfl⟩ := List.cons_eq_cons.mp hnames
          obtain ⟨hnew, hdistinct⟩ := List.nodup_cons.mp hdistinct
          refine ⟨before, after, rfl, hdistinct, ?_, ?_⟩
          · intro other ho hm
            rcases List.mem_cons.mp hm with rfl | hm
            · exact hnew ho
            · exact hunseen other (List.mem_cons_of_mem _ ho) hm
          · rw [List.mem_cons] at hagain ⊢
            tauto

namespace SchemaDraft

/-- Parts of a schema that go together. -/
structure Sound (d : SchemaDraft) : Prop where
  distinct : (columnNames d.columns).Nodup
  keyed : ∀ key ∈ d.primaryKey, key ∈ physicalNames d.columns
  watched : ∀ w ∈ d.watermark, w.rowtime ∈ columnNames d.columns

/-- The fault of parts that do not go together. Those of the names come before those of the primary
key, and these before that of the watermark. -/
inductive Fault (d : SchemaDraft) : SchemaError → Prop where
  /-- A name that has come earlier, and is the first that has. -/
  | repeated {before after : List String} {name : String}
      (names : columnNames d.columns = before ++ name :: after) (distinct : before.Nodup)
      (again : name ∈ before) : Fault d (.duplicateColumn name)
  /-- A primary key that is not a physical column, and is the first that is not. -/
  | strayKey {before after : List String} {key : String}
      (distinct : (columnNames d.columns).Nodup) (keys : d.primaryKey = before ++ key :: after)
      (keyed : ∀ other ∈ before, other ∈ physicalNames d.columns)
      (stray : key ∉ physicalNames d.columns) : Fault d (.unknownColumn .primaryKey key)
  /-- A watermark on what is not a column. -/
  | strayRowtime {w : Watermark} (distinct : (columnNames d.columns).Nodup)
      (keyed : ∀ key ∈ d.primaryKey, key ∈ physicalNames d.columns)
      (here : d.watermark = some w) (stray : w.rowtime ∉ columnNames d.columns) :
      Fault d (.unknownColumn .watermark w.rowtime)

variable {d : SchemaDraft}

theorem firstRepeat_eq_none_iff {names : List String} :
    firstRepeat [] names = none ↔ names.Nodup :=
  ⟨fun h => (firstRepeat_eq_none h).1, fun h => firstRepeat_of_nodup h (by simp)⟩

theorem strayKey_eq_none_iff :
    d.strayKey = none ↔ ∀ key ∈ d.primaryKey, key ∈ physicalNames d.columns := by
  simp [strayKey]

theorem strayKey_eq_some_iff {key : String} :
    d.strayKey = some key ↔ key ∉ physicalNames d.columns ∧ ∃ before after,
      d.primaryKey = before ++ key :: after ∧
        ∀ other ∈ before, other ∈ physicalNames d.columns := by
  simp [strayKey, List.find?_eq_some_iff_append]

theorem strayRowtime_eq_some_iff {name : String} :
    d.strayRowtime = some name ↔ name ∉ columnNames d.columns ∧
      ∃ w, d.watermark = some w ∧ w.rowtime = name := by
  simp [strayRowtime, Option.filter_eq_some_iff, and_comm]

/-- Building fails at the first of its three checks that finds something. -/
theorem build_eq_error_iff_found {e : SchemaError} : d.build = .error e ↔
    (∃ name, firstRepeat [] (columnNames d.columns) = some name ∧ e = .duplicateColumn name) ∨
    firstRepeat [] (columnNames d.columns) = none ∧
      ((∃ key, d.strayKey = some key ∧ e = .unknownColumn .primaryKey key) ∨
        d.strayKey = none ∧
          ∃ name, d.strayRowtime = some name ∧ e = .unknownColumn .watermark name) := by
  unfold build
  split
  · rename_i name hname
    simp [hname, eq_comm]
  · rename_i hdistinct
    split
    · rename_i key hkey
      simp [hdistinct, hkey, eq_comm]
    · rename_i hkeyed
      split
      · rename_i name hname
        simp [hdistinct, hkeyed, hname, eq_comm]
      · rename_i hwatched
        simp [hdistinct, hkeyed, hwatched]

/-- Building fails with the fault of its parts. -/
theorem build_eq_error_iff {e : SchemaError} : d.build = .error e ↔ d.Fault e := by
  rw [build_eq_error_iff_found]
  constructor
  · rintro (⟨name, hname, rfl⟩ | ⟨hdistinct, ⟨key, hkey, rfl⟩ | ⟨hkeyed, name, hname, rfl⟩⟩)
    · obtain ⟨before, after, hnames, hdistinct, -, hagain⟩ := firstRepeat_eq_some_iff.mp hname
      exact .repeated hnames hdistinct (hagain.resolve_right (by simp))
    · obtain ⟨hstray, before, after, hkeys, hkeyed⟩ := strayKey_eq_some_iff.mp hkey
      exact .strayKey (firstRepeat_eq_none_iff.mp hdistinct) hkeys hkeyed hstray
    · obtain ⟨hstray, w, here, rfl⟩ := strayRowtime_eq_some_iff.mp hname
      exact .strayRowtime (firstRepeat_eq_none_iff.mp hdistinct)
        (strayKey_eq_none_iff.mp hkeyed) here hstray
  · intro h
    cases h with
    | repeated names distinct again =>
      exact .inl ⟨_, firstRepeat_eq_some_iff.mpr ⟨_, _, names, distinct, by simp, .inl again⟩, rfl⟩
    | strayKey distinct keys keyed stray =>
      exact .inr ⟨firstRepeat_eq_none_iff.mpr distinct,
        .inl ⟨_, strayKey_eq_some_iff.mpr ⟨stray, _, _, keys, keyed⟩, rfl⟩⟩
    | strayRowtime distinct keyed here stray =>
      exact .inr ⟨firstRepeat_eq_none_iff.mpr distinct,
        .inr ⟨strayKey_eq_none_iff.mpr keyed, _,
          strayRowtime_eq_some_iff.mpr ⟨stray, _, here, rfl⟩, rfl⟩⟩

end SchemaDraft

theorem TableSchema.sound_draft (s : TableSchema) : s.draft.Sound :=
  ⟨s.nodup_names, s.primaryKey_physical, s.rowtime_known⟩

namespace SchemaDraft

variable {d : SchemaDraft} {s : TableSchema}

/-- Building succeeds just with sound parts, and gives the schema of these parts. -/
theorem build_eq_ok_iff_sound : d.build = .ok s ↔ d.Sound ∧ s.draft = d := by
  rw [build_eq_ok_iff]
  constructor
  · intro h
    obtain rfl := h
    exact ⟨s.sound_draft, rfl⟩
  · exact And.right

theorem exists_build_iff : (∃ s, d.build = .ok s) ↔ d.Sound := by
  constructor
  · intro h
    obtain ⟨s, hs⟩ := h
    exact (build_eq_ok_iff_sound.mp hs).1
  · intro h
    exact ⟨⟨d.columns, d.watermark, d.primaryKey, h.distinct, h.keyed, h.watched⟩,
      build_eq_ok_iff.mpr rfl⟩

end SchemaDraft

/-- A schema is read from a document if its parts are, and these are sound. -/
theorem TableSchema.read_eq_ok_iff {depth : Nat} {t : Tree} {s : TableSchema} :
    TableSchema.read depth t = .ok s ↔
      ∃ d, (TableSchema.shape depth).read t = .ok d ∧ d.Sound ∧ s.draft = d := by
  simp only [TableSchema.read, except_bind_eq_ok_iff, except_mapError_eq_ok_iff,
    SchemaDraft.build_eq_ok_iff_sound]

/-- The schema of a table has been read from a part of the table's document. -/
theorem CatalogTable.exists_part_of_read {t : Tree} {table : CatalogTable}
    (h : CatalogTable.read t = .ok table) :
    ∃ part, TableSchema.read 1 part = .ok table.schema := by
  obtain ⟨part, -, hpart⟩ := exists_schema_of_read h
  exact ⟨part, hpart⟩

/-- Parts of a schema make a schema just if they are sound, and the schema then has these parts; of
others the first fault is told. Schemas that are read alone or with their tables, and those of
tables that are restored, are made of sound parts too. -/
theorem schemas_checked :
    (∀ d : SchemaDraft, ((∃ s, d.build = .ok s) ↔ d.Sound) ∧
      (∀ s, d.build = .ok s → s.columns = d.columns ∧ s.watermark = d.watermark ∧
        s.primaryKey = d.primaryKey) ∧
      ∀ e, d.build = .error e ↔ d.Fault e) ∧
    (∀ text s, readDocument (TableSchema.read 0) text = .ok s ↔
      ∃ d, readDocument (TableSchema.shape 0).read text = .ok d ∧ d.Sound ∧ s.draft = d) ∧
    (∀ text t, readDocument CatalogTable.read text = .ok t →
      ∃ part d, (TableSchema.shape 1).read part = .ok d ∧ d.Sound ∧ t.schema.draft = d) ∧
    ∀ (stored : StoredTable) t, stored.restore = .ok t →
      ∃ columns watermark, stored.columns = .ok columns ∧ stored.watermark = .ok watermark ∧
        SchemaDraft.Sound ⟨columns, watermark, stored.primaryKeys⟩ ∧
        t.schema.draft = ⟨columns, watermark, stored.primaryKeys⟩ := by
  refine ⟨fun d => ⟨SchemaDraft.exists_build_iff, ?_, fun e => SchemaDraft.build_eq_error_iff⟩,
    ?_, ?_, ?_⟩
  · intro s h
    obtain rfl := SchemaDraft.draft_of_build h
    exact ⟨rfl, rfl, rfl⟩
  · intro text s
    simp only [readDocument_eq_ok_iff, TableSchema.read_eq_ok_iff]
    constructor
    · rintro ⟨t, ht, d, hd, hsound⟩
      exact ⟨d, ⟨t, ht, hd⟩, hsound⟩
    · rintro ⟨d, ⟨t, ht, hd⟩, hsound⟩
      exact ⟨t, ht, d, hd, hsound⟩
  · intro text table h
    obtain ⟨t, -, ht⟩ := readDocument_eq_ok_iff.mp h
    obtain ⟨part, hpart⟩ := CatalogTable.exists_part_of_read ht
    exact ⟨part, TableSchema.read_eq_ok_iff.mp hpart⟩
  · intro stored t h
    obtain ⟨hcolumns, hwatermark, hkeys, -⟩ := StoredTable.restore_eq_ok_iff.mp h
    have hdraft : t.schema.draft =
        ⟨t.schema.columns, t.schema.watermark, stored.primaryKeys⟩ := by
      rw [← hkeys]
      rfl
    exact ⟨_, _, hcolumns, hwatermark, hdraft ▸ t.schema.sound_draft, hdraft⟩

/-- Readings with a watermark on a column that they do not have. -/
def untimedReadings : SchemaDraft where
  columns := [.physical ⟨"id", ⟨.bigInt, false⟩⟩,
    .nonPhysical (.computed ⟨"day", ⟨.date, true⟩, "CAST(ts AS DATE)"⟩),
    .physical ⟨"ts", ⟨.timestamp 3, true⟩⟩]
  watermark := some ⟨"time", "time", ⟨.timestamp 3, true⟩⟩
  primaryKey := ["id"]

/-- A computed column in their primary key as well, and after it one that they do not have. -/
def strayReadings : SchemaDraft := { untimedReadings with primaryKey := ["id", "day", "place"] }

/-- Two of their columns once more as well, in another order. -/
def repeatedReadings : SchemaDraft :=
  { strayReadings with columns := strayReadings.columns ++
      [.physical ⟨"ts", ⟨.date, true⟩⟩, .physical ⟨"id", ⟨.int, true⟩⟩] }

theorem schemas_checked_orders :
    (CatalogTable.ordersSchema.draft.Sound ∧
      ∃ s, CatalogTable.ordersSchema.draft.build = .ok s ∧
        s.columns = CatalogTable.ordersSchema.columns) ∧
    repeatedReadings.build = .error (.duplicateColumn "ts") ∧
    strayReadings.build = .error (.unknownColumn .primaryKey "day") ∧
    untimedReadings.build = .error (.unknownColumn .watermark "time") ∧
    (∃ text, readDocument (TableSchema.read 0) text = .ok CatalogTable.ordersSchema ∧
      ∃ d, readDocument (TableSchema.shape 0).read text = .ok d ∧ d.Sound) ∧
    (∃ text, readDocument CatalogTable.read text = .ok CatalogTable.ordersTable ∧
      ∃ part d, (TableSchema.shape 1).read part = .ok d ∧ d.Sound) ∧
    ∃ (stored : StoredTable) (t : CatalogTable), stored.restore = .ok t ∧
      ∃ columns, stored.columns = .ok columns ∧ t.schema.columns = columns := by
  obtain ⟨hbuild, hread, hreadTable, hrestore⟩ := schemas_checked
  have hsound := CatalogTable.ordersSchema.sound_draft
  have hcanonical : CatalogTable.ordersSchema.Canonical := ⟨by decide, by decide⟩
  obtain ⟨s, hs⟩ := (hbuild CatalogTable.ordersSchema.draft).1.mpr hsound
  have hcolumns := ((hbuild CatalogTable.ordersSchema.draft).2.1 s hs).1
  have hrepeated : repeatedReadings.Fault (.duplicateColumn "ts") :=
    @SchemaDraft.Fault.repeated _ ["id", "day", "ts"] ["id"] _ rfl (by decide) (by decide)
  have hstray : strayReadings.Fault (.unknownColumn .primaryKey "day") :=
    @SchemaDraft.Fault.strayKey _ ["id"] ["place"] _ (by decide) rfl (by decide) (by decide)
  have huntimed : untimedReadings.Fault (.unknownColumn .watermark "time") :=
    @SchemaDraft.Fault.strayRowtime untimedReadings ⟨"time", "time", ⟨.timestamp 3, true⟩⟩
      (by decide) (by decide) rfl (by decide)
  have hschemaText :=
    (@TableSchema.lawful 0 (by decide)).readDocument_render hcanonical .compact
  have htableText := CatalogTable.lawful.readDocument_render
    (v := CatalogTable.ordersTable) hcanonical .pretty
  obtain ⟨d, hd, hdsound, -⟩ := (hread _ _).mp hschemaText
  obtain ⟨part, d', hd', hdsound', -⟩ := hreadTable _ _ htableText
  obtain ⟨stored, -, hrestored⟩ := CatalogTable.exists_toStored (t := CatalogTable.ordersTable)
    ⟨by decide, by decide⟩
  obtain ⟨columns, watermark, hstored, -, -, hdraft⟩ := hrestore stored _ hrestored
  exact ⟨⟨hsound, s, hs, hcolumns⟩, ((hbuild _).2.2 _).mpr hrepeated,
    ((hbuild _).2.2 _).mpr hstray, ((hbuild _).2.2 _).mpr huntimed,
    ⟨_, hschemaText, d, hd, hdsound⟩, ⟨_, htableText, part, d', hd', hdsound'⟩,
    stored, _, hrestored, columns, hstored, congrArg SchemaDraft.columns hdraft⟩

end FlatSchema
