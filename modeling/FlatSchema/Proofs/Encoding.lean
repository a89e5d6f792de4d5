import FlatSchema.Proofs.Records

namespace FlatSchema

/-- Columns with different names whose names have indices, different names different ones. -/
structure Indexed (indexOf : String → Option Nat) (columns : List NonPhysicalColumn) : Prop where
  names : (columns.map NonPhysicalColumn.name).Nodup
  assigned : ∀ c ∈ columns, ∃ i, indexOf c.name = some i
  apart : ∀ c ∈ columns, ∀ d ∈ columns, indexOf c.name = indexOf d.name → c.name = d.name

instance (indexOf : String → Option Nat) (columns : List NonPhysicalColumn) :
    Decidable (Indexed indexOf columns) :=
  decidable_of_iff ((columns.map NonPhysicalColumn.name).Nodup ∧
      (∀ c ∈ columns, (indexOf c.name).isSome) ∧
      ∀ c ∈ columns, ∀ d ∈ columns, indexOf c.name = indexOf d.name → c.name = d.name)
    ⟨fun h => ⟨h.1, fun c hc => Option.isSome_iff_exists.mp (h.2.1 c hc), h.2.2⟩,
      fun h => ⟨h.names, fun c hc => Option.isSome_iff_exists.mpr (h.assigned c hc), h.apart⟩⟩

namespace Options

/-- Options that hold nothing where the columns with an index or a watermark have their entries. -/
structure Spares (base : Options) (indexOf : String → Option Nat)
    (columns : List NonPhysicalColumn) : Prop where
  column : ∀ c ∈ columns, ∀ i, indexOf c.name = some i → ∀ f, base.get? (columnKey i f) = none
  watermark : ∀ f, base.get? (watermarkKey f) = none

/-- Options that hold the entries of all parts and no others. -/
def Unites (options : Options) (parts : List Options) : Prop :=
  ∀ key value, options.get? key = some value ↔ ∃ part ∈ parts, part.get? key = some value

theorem get?_union_eq_some_iff {first second : Options}
    (h : ∀ key value, second.get? key = some value → first.get? key = none) {key value : String} :
    (first.union second).get? key = some value ↔
      first.get? key = some value ∨ second.get? key = some value := by
  rw [SortedMap.get?_union, Option.or_eq_some_iff]
  constructor
  · rintro (hsecond | ⟨_, hfirst⟩)
    · exact .inr hsecond
    · exact .inl hfirst
  · rintro (hfirst | hsecond)
    · right
      refine ⟨?_, hfirst⟩
      rw [Option.eq_none_iff_forall_ne_some]
      intro other hother
      rw [h key other hother] at hfirst
      cases hfirst
    · exact .inl hsecond

end Options

namespace Indexed

variable {indexOf : String → Option Nat} {columns : List NonPhysicalColumn}

/-- The index at which a column is encoded. -/
def place (indexOf : String → Option Nat) (c : NonPhysicalColumn) : Nat :=
  (indexOf c.name).getD 0

theorem indexOf_eq (h : Indexed indexOf columns) {c : NonPhysicalColumn} (hc : c ∈ columns) :
    indexOf c.name = some (place indexOf c) := by
  obtain ⟨i, hi⟩ := h.assigned c hc
  rw [place, hi]
  rfl

theorem nodup_places (h : Indexed indexOf columns) :
    (columns.map (place indexOf)).Nodup := by
  apply List.Nodup.map_on
  · intro c hc d hd he
    have hindex : indexOf c.name = indexOf d.name := by
      rw [h.indexOf_eq hc, h.indexOf_eq hd, he]
    exact List.inj_on_of_nodup_map h.names hc hd (h.apart c hc d hd hindex)
  · exact List.Nodup.of_map _ h.names

/-- What the columns are encoded to. -/
def records (indexOf : String → Option Nat) (columns : List NonPhysicalColumn) : Options :=
  .ofList (placedEntries (place indexOf) columns)

theorem encodeColumns_eq (h : Indexed indexOf columns) :
    encodeColumns indexOf columns = .ok (records indexOf columns) := by
  apply encodeColumns_eq_ok
  intro c hc
  exact h.indexOf_eq hc

variable {base : Options} {w : Watermark}

theorem get?_base (h : Indexed indexOf columns) (hbase : base.Spares indexOf columns)
    {c : NonPhysicalColumn} (hc : c ∈ columns) (f : ColumnField) :
    base.get? (columnKey (place indexOf c) f) = none :=
  hbase.column c hc _ (h.indexOf_eq hc) f

/-- No two of the parts have an entry with the same key. -/
theorem unites_union (h : Indexed indexOf columns) (hbase : base.Spares indexOf columns) :
    Options.Unites ((base.union (records indexOf columns)).union (encodeWatermark w))
      [base, records indexOf columns, encodeWatermark w] := by
  have hrecords : ∀ key value, (records indexOf columns).get? key = some value →
      base.get? key = none := by
    intro key value hget
    rcases SortedMap.mem_of_get?_insertMany hget with hm | hm
    · obtain ⟨c, hc, f, rfl, _⟩ := mem_placedEntries.mp hm
      exact h.get?_base hbase hc f
    · cases hm
  have hwatermark : ∀ key value, (encodeWatermark w).get? key = some value →
      (base.union (records indexOf columns)).get? key = none := by
    intro key value hget
    obtain ⟨f, rfl⟩ := watermarkKey_of_encodeWatermark hget
    rw [SortedMap.get?_union, hbase.watermark f, records, get?_placed_watermarkKey]
    rfl
  intro key value
  rw [Options.get?_union_eq_some_iff hwatermark, Options.get?_union_eq_some_iff hrecords]
  simp [or_assoc]

variable {options : Options}

/-- At the index of a column only its own record has entries. -/
theorem get?_columnKey (h : Indexed indexOf columns) (hbase : base.Spares indexOf columns)
    (hunites : options.Unites [base, records indexOf columns, encodeWatermark w])
    {c : NonPhysicalColumn} (hc : c ∈ columns) (f : ColumnField) :
    options.get? (columnKey (place indexOf c) f) = c.value? f := by
  apply Option.ext
  intro value
  rw [hunites, ← get?_placed h.nodup_places hc f]
  simp [h.get?_base hbase hc, get?_encodeWatermark_columnKey, records]

/-- Columns and a watermark that are encoded into one map with other entries are all decoded
again, in whatever order the parts of the map were put together. -/
theorem decode_united (h : Indexed indexOf columns) (hcolumns : ∀ c ∈ columns, c.Canonical)
    (hw : w.Canonical) (hbase : base.Spares indexOf columns) :
    ∃ records, encodeColumns indexOf columns = .ok records ∧
      Options.Unites ((base.union records).union (encodeWatermark w))
        [base, records, encodeWatermark w] ∧
      ∀ options : Options, options.Unites [base, records, encodeWatermark w] →
        (∀ c ∈ columns, ∀ i, indexOf c.name = some i → decodeColumn options i = .ok c) ∧
        decodeWatermark options = .ok w := by
  refine ⟨records indexOf columns, h.encodeColumns_eq, h.unites_union hbase, ?_⟩
  intro options hunites
  constructor
  · intro c hc i hi
    have hplace : i = place indexOf c := by
      rw [place, hi]
      rfl
    rw [hplace]
    exact decodeColumn_of_entries (h.get?_columnKey hbase hunites hc) (hcolumns c hc)
  · apply decodeWatermark_of_entries _ hw
    intro f
    rw [hunites]
    exact ⟨encodeWatermark w, by simp, get?_encodeWatermark w f⟩

def total : ComputedColumn := ⟨"total", ⟨.decimal 10 2, true⟩, "price * amount"⟩

/-- A column that is read from the metadata key of its own name, and not virtual. -/
def topic : MetadataColumn := .withAlias "topic" ⟨.string, false⟩ "topic" false

def soldColumns : List NonPhysicalColumn := [.computed total, .metadata topic]

def soldWatermark : Watermark := ⟨"ts", "ts - INTERVAL '5' SECOND", ⟨.timestamp 3, true⟩⟩

/-- The columns stand at places that are far from each other and not in their order. -/
def soldIndices (name : String) : Option Nat :=
  if name = "total" then some 12 else if name = "topic" then some 1 else none

/-- Entries of other tools, some of which look like those of the columns or the watermark. -/
def foreignEntries : Options :=
  .ofList [("bucket", "4"), ("schema.01.name", "topic"), ("schema.2.expr", "1"),
    ("schema.1.virtual.x", "true"), ("schema.watermark.1.rowtime", "ts")]

theorem decode_united_sold : Indexed soldIndices soldColumns ∧
    (∀ c ∈ soldColumns, c.Canonical) ∧ soldWatermark.Canonical ∧
    foreignEntries.Spares soldIndices soldColumns ∧
    ∃ records, encodeColumns soldIndices soldColumns = .ok records ∧
      ∃ options : Options, options.Unites [foreignEntries, records, encodeWatermark soldWatermark] ∧
        decodeColumn options 12 = .ok (.computed total) ∧
        decodeColumn options 1 = .ok (.metadata topic) ∧
        decodeWatermark options = .ok soldWatermark := by
  have hindexed : Indexed soldIndices soldColumns := by
    constructor
    · decide
    · simp only [soldColumns, List.forall_mem_cons, List.not_mem_nil, false_implies,
        implies_true, and_true]
      exact ⟨⟨12, rfl⟩, ⟨1, rfl⟩⟩
    · decide
  have hcanonical : ∀ c ∈ soldColumns, c.Canonical := by decide
  have hspares : foreignEntries.Spares soldIndices soldColumns := by
    constructor
    · simp only [soldColumns, List.forall_mem_cons, List.not_mem_nil, false_implies,
        implies_true, and_true]
      constructor
      all_goals
        intro i hi f
        cases hi
        cases f <;> decide +kernel
    · intro f
      cases f <;> decide +kernel
  have hw : soldWatermark.Canonical := by decide
  obtain ⟨records, hencode, hunites, hdecode⟩ := decode_united hindexed hcanonical hw hspares
  obtain ⟨hcolumns, hwatermark⟩ := hdecode _ hunites
  exact ⟨hindexed, hcanonical, hw, hspares, records, hencode, _, hunites,
    hcolumns (.computed total) (by simp [soldColumns]) 12 rfl,
    hcolumns (.metadata topic) (by simp [soldColumns]) 1 rfl, hwatermark⟩

/-- The names of encoded columns are what is counted of their records. -/
theorem mem_nameKeys_iff (h : Indexed indexOf columns) {physical : List String}
    (hphysical : ∀ c ∈ columns, c.name ∉ physical) {key : String} :
    key ∈ columns.map (fun c => columnKey (place indexOf c) .name) ↔
      ∃ name, (records indexOf columns).get? key = some name ∧
        isRecordName physical key name := by
  simp only [List.mem_map, isRecordName_iff]
  constructor
  · rintro ⟨c, hc, rfl⟩
    exact ⟨c.name, get?_placed h.nodup_places hc .name, isColumnNameKey_columnKey _,
      hphysical c hc⟩
  · rintro ⟨name, hname, hkey, -⟩
    rcases SortedMap.mem_of_get?_insertMany hname with hm | hm
    · obtain ⟨c, hc, f, rfl, -⟩ := mem_placedEntries.mp hm
      cases field_eq_of_isColumnNameKey hkey
      exact ⟨c, hc, rfl⟩
    · cases hm

/-- As many names are counted as columns were encoded, whatever stands beside their records that
does not look like the name of a column or repeats the name of a physical one. -/
theorem count_united (h : Indexed indexOf columns) {physical : List String}
    (hphysical : ∀ c ∈ columns, c.name ∉ physical) :
    ∃ records, encodeColumns indexOf columns = .ok records ∧
      ∀ extra : Options, (∀ key value, extra.get? key = some value →
          records.get? key = none ∧ (¬NamesColumn key ∨ value ∈ physical)) →
        Options.Unites (records.union extra) [records, extra] ∧
        ∀ options : Options, options.Unites [records, extra] →
          countNonPhysical options physical = columns.length := by
  refine ⟨records indexOf columns, h.encodeColumns_eq, ?_⟩
  intro extra hextra
  constructor
  · intro key value
    rw [Options.get?_union_eq_some_iff (fun key value hget => (hextra key value hget).1)]
    simp
  · intro options hunites
    have hfound : ∀ key, key ∈ columns.map (fun c => columnKey (place indexOf c) .name) ↔
        ∃ name, options.get? key = some name ∧ isRecordName physical key name := by
      intro key
      rw [h.mem_nameKeys_iff hphysical]
      constructor
      · rintro ⟨name, hname, hcounted⟩
        exact ⟨name, (hunites key name).mpr ⟨_, by simp, hname⟩, hcounted⟩
      · rintro ⟨name, hname, hcounted⟩
        obtain ⟨part, hpart, hname⟩ := (hunites key name).mp hname
        rcases List.mem_pair.mp hpart with rfl | rfl
        · exact ⟨name, hname, hcounted⟩
        · obtain ⟨hkey, hother⟩ := isRecordName_iff.mp hcounted
          rw [isColumnNameKey_iff_namesColumn] at hkey
          rcases (hextra key name hname).2 with hshape | hrepeats
          · exact absurd hkey hshape
          · exact absurd hrepeats hother
    rw [countNonPhysical_eq_length (nodup_nameKeys h.nodup_places) hfound, List.length_map]

/-- Entries of older writers, of a watermark and of other tools, and keys that nearly look like
that of a name. -/
def oldEntries : Options :=
  .ofList [("schema.0.name", "id"), ("schema.012.name", "id"), ("schema.1.expr", "0"),
    ("schema.1.name.x", "topic"), ("schema..name", "total"), ("schema.watermark.0.rowtime", "ts"),
    ("bucket", "total")]

theorem count_united_sold : Indexed soldIndices soldColumns ∧
    (∀ c ∈ soldColumns, c.name ∉ ["id"]) ∧
    ∃ records, encodeColumns soldIndices soldColumns = .ok records ∧
      (∀ key value, oldEntries.get? key = some value →
        records.get? key = none ∧ (¬NamesColumn key ∨ value ∈ ["id"])) ∧
      countNonPhysical (records.union oldEntries) ["id"] = 2 := by
  have hindexed : Indexed soldIndices soldColumns := by decide
  have hphysical : ∀ c ∈ soldColumns, c.name ∉ ["id"] := by decide
  obtain ⟨options, hencode, hcount⟩ := count_united hindexed hphysical
  have hold : ∀ key value, oldEntries.get? key = some value →
      options.get? key = none ∧ (¬NamesColumn key ∨ value ∈ ["id"]) := by
    have hentries : ∀ e ∈ oldEntries.entries, (records soldIndices soldColumns).get? e.1 = none ∧
        (¬NamesColumn e.1 ∨ e.2 ∈ ["id"]) := by decide +kernel
    obtain rfl := Except.ok.inj (hencode.symm.trans hindexed.encodeColumns_eq)
    intro key value hget
    exact hentries (key, value) (SortedMap.get?_eq_some_iff.mp hget)
  obtain ⟨hunites, hcounted⟩ := hcount oldEntries hold
  exact ⟨hindexed, hphysical, options, hencode, hold, hcounted _ hunites⟩

end Indexed

end FlatSchema
