import FlatSchema.Proofs.Form.Parts
import FlatSchema.Proofs.Restoration

namespace FlatSchema

open Json

namespace SchemaDraft

theorem columns_declare (d : SchemaDraft) (declaration : Declaration) :
    (d.declare declaration).columns = d.columns ++ declaration.column?.toList := by
  cases declaration <;> simp [declare, Declaration.column?]

theorem columns_foldl_declare (declarations : List Declaration) (d : SchemaDraft) :
    (declarations.foldl declare d).columns =
      d.columns ++ declarations.filterMap Declaration.column? := by
  induction declarations generalizing d with
  | nil => simp
  | cons declaration rest ih =>
    rw [List.foldl_cons, ih, columns_declare, List.append_assoc]
    cases h : declaration.column? <;> simp [h]

/-- The columns of a draft are those that have been declared, in their order. -/
theorem columns_ofDeclarations (declarations : List Declaration) :
    (ofDeclarations declarations).columns = declarations.filterMap Declaration.column? :=
  columns_foldl_declare declarations _

end SchemaDraft

namespace MetadataColumn

/-- What is told of a metadata column before anything is left out. -/
structure Parts where
  name : String
  dataType : TypeDescriptor
  key : Option String
  isVirtual : Bool
deriving DecidableEq

/-- The column has the parts that are told, but no alias if the key is the name. -/
structure MadeOf (c : MetadataColumn) (p : Parts) : Prop where
  name : c.name = p.name
  dataType : c.dataType = p.dataType
  key : c.explicitAlias = if p.key = some p.name then none else p.key
  isVirtual : c.isVirtual = p.isVirtual

theorem MadeOf.explicitAlias_ne {c : MetadataColumn} {p : Parts} (h : c.MadeOf p) :
    c.explicitAlias ≠ some c.name := by
  rw [h.key, h.name]
  split
  · simp
  · assumption

theorem madeOf_plain (name : String) (dataType : TypeDescriptor) (isVirtual : Bool) :
    (plain name dataType isVirtual).MadeOf ⟨name, dataType, none, isVirtual⟩ :=
  ⟨rfl, rfl, rfl, rfl⟩

theorem madeOf_withAlias (name : String) (dataType : TypeDescriptor) (key : String)
    (isVirtual : Bool) :
    (withAlias name dataType key isVirtual).MadeOf ⟨name, dataType, some key, isVirtual⟩ := by
  by_cases h : key = name
  · rw [withAlias, dif_pos h]
    exact ⟨rfl, rfl, by simp [plain, h], rfl⟩
  · rw [withAlias, dif_neg h]
    exact ⟨rfl, rfl, by simp [h], rfl⟩

/-- The parts that a column has kept. -/
def parts (c : MetadataColumn) : Parts := ⟨c.name, c.dataType, c.explicitAlias, c.isVirtual⟩

theorem madeOf_parts (c : MetadataColumn) : c.MadeOf c.parts :=
  ⟨rfl, rfl, (if_neg c.explicitAlias_ne_name).symm, rfl⟩

/-- Columns are equal if they read the same key under the same name, with the same type and flag. -/
theorem eq_iff {c d : MetadataColumn} : c = d ↔ c.name = d.name ∧ c.dataType = d.dataType ∧
    c.metadataKey = d.metadataKey ∧ c.isVirtual = d.isVirtual := by
  constructor
  · intro h
    obtain rfl := h
    exact ⟨rfl, rfl, rfl, rfl⟩
  · intro h
    obtain ⟨hname, htype, hkey, hvirtual⟩ := h
    calc c = withAlias c.name c.dataType c.metadataKey c.isVirtual := (withAlias_metadataKey c).symm
      _ = withAlias d.name d.dataType d.metadataKey d.isVirtual := by
        rw [hname, htype, hkey, hvirtual]
      _ = d := withAlias_metadataKey d

namespace Parts

/-- A declaration of a schema tells the parts. A column that is handed over whole tells its own. -/
inductive InDeclaration : Declaration → Parts → Prop where
  | metadata (name : String) (dataType : TypeDescriptor) (isVirtual : Bool) :
    InDeclaration (.metadata name dataType isVirtual) ⟨name, dataType, none, isVirtual⟩
  | metadataWithAlias (name : String) (dataType : TypeDescriptor) (key : String)
      (isVirtual : Bool) :
    InDeclaration (.metadataWithAlias name dataType key isVirtual)
      ⟨name, dataType, some key, isVirtual⟩
  | column (c : MetadataColumn) : InDeclaration (.column (.nonPhysical (.metadata c))) c.parts

/-- A document tells the parts, in the members of an object or in the items of an array from a
place on. -/
structure InDocument (t : Tree) (first : Nat) (p : Parts) : Prop where
  name : ∃ part, t.part? "name" first = some part ∧ readText part = .ok p.name
  dataType : ∃ part, t.part? "data_type" (first + 1) = some part ∧
    TypeDescriptor.read part = .ok p.dataType
  key : readPart (readOptional readText) none (t.part? "metadata_key" (first + 2)) = .ok p.key
  isVirtual : readPart readBool false (t.part? "is_virtual" (first + 3)) = .ok p.isVirtual

/-- The document of a schema tells the parts in the item for a column. -/
def InSchema (t : Tree) (i : Nat) (p : Parts) : Prop :=
  ∃ items closed item, t.part? "columns" 0 = some (.array items closed) ∧
    items[i]? = some item ∧ p.InDocument item 1

/-- The document of a table tells the parts in its schema. -/
def InTable (t : Tree) (i : Nat) (p : Parts) : Prop :=
  ∃ schema, t.part? "schema" 0 = some schema ∧ p.InSchema schema i

/-- The record at an index tells the parts. -/
structure InRecord (options : Options) (i : Nat) (p : Parts) : Prop where
  name : options.get? (columnKey i .name) = some p.name
  dataType : ∃ text, options.get? (columnKey i .dataType) = some text ∧
    TypeDescriptor.ofText? text = some p.dataType
  expression : options.get? (columnKey i .expression) = none
  key : options.get? (columnKey i .metadata) = p.key
  isVirtual : (options.get? (columnKey i .isVirtual)).any readFlag = p.isVirtual

end Parts

/-- The ways to a metadata column, each with the parts that may have been told. -/
inductive Obtained : (Parts → Prop) → MetadataColumn → Prop where
  | plain (name : String) (dataType : TypeDescriptor) (isVirtual : Bool) :
    Obtained (· = ⟨name, dataType, none, isVirtual⟩) (.plain name dataType isVirtual)
  | withAlias (name : String) (dataType : TypeDescriptor) (key : String) (isVirtual : Bool) :
    Obtained (· = ⟨name, dataType, some key, isVirtual⟩) (.withAlias name dataType key isVirtual)
  | nonPhysicalPlain {name : String} {dataType : TypeDescriptor} {isVirtual : Bool}
      {c : MetadataColumn} (h : NonPhysicalColumn.plain name dataType isVirtual = .metadata c) :
    Obtained (· = ⟨name, dataType, none, isVirtual⟩) c
  | nonPhysicalWithAlias {name : String} {dataType : TypeDescriptor} {key : String}
      {isVirtual : Bool} {c : MetadataColumn}
      (h : NonPhysicalColumn.withAlias name dataType key isVirtual = .metadata c) :
    Obtained (· = ⟨name, dataType, some key, isVirtual⟩) c
  | declared {declarations : List Declaration} {c : MetadataColumn}
      (h : .nonPhysical (.metadata c) ∈ (SchemaDraft.ofDeclarations declarations).columns) :
    Obtained (fun p => ∃ declaration ∈ declarations, p.InDeclaration declaration) c
  | read {t : Tree} {c : MetadataColumn} (h : MetadataColumn.read t = .ok c) :
    Obtained (Parts.InDocument t 0) c
  | readNonPhysical {numbered : Bool} {depth : Nat} {t : Tree} {c : MetadataColumn}
      (h : NonPhysicalColumn.read numbered depth t = .ok (.metadata c)) :
    Obtained (Parts.InDocument t 1) c
  | readColumn {depth : Nat} {t : Tree} {c : MetadataColumn}
      (h : Column.read depth t = .ok (.nonPhysical (.metadata c))) :
    Obtained (Parts.InDocument t 1) c
  | readSchema {depth : Nat} {t : Tree} {s : TableSchema} {i : Nat} {c : MetadataColumn}
      (h : TableSchema.read depth t = .ok s)
      (hc : s.columns[i]? = some (.nonPhysical (.metadata c))) : Obtained (Parts.InSchema t i) c
  | readTable {t : Tree} {table : CatalogTable} {i : Nat} {c : MetadataColumn}
      (h : CatalogTable.read t = .ok table)
      (hc : table.schema.columns[i]? = some (.nonPhysical (.metadata c))) :
    Obtained (Parts.InTable t i) c
  | decoded {options : Options} {i : Nat} {c : MetadataColumn}
      (h : decodeColumn options i = .ok (.metadata c)) : Obtained (Parts.InRecord options i) c
  | restored {s : StoredTable} {table : CatalogTable} {i : Nat} {c : MetadataColumn}
      (h : s.restore = .ok table)
      (hc : table.schema.columns[i]? = some (.nonPhysical (.metadata c))) :
    Obtained (Parts.InRecord s.options i) c

theorem madeOf_of_declaration {declaration : Declaration} {c : MetadataColumn}
    (h : declaration.column? = some (.nonPhysical (.metadata c))) :
    ∃ p : Parts, p.InDeclaration declaration ∧ c.MadeOf p := by
  cases declaration with
  | column column =>
    cases h
    exact ⟨c.parts, .column c, madeOf_parts c⟩
  | metadata name dataType isVirtual =>
    cases h
    exact ⟨_, .metadata name dataType isVirtual, madeOf_plain name dataType isVirtual⟩
  | metadataWithAlias name dataType key isVirtual =>
    cases h
    exact ⟨_, .metadataWithAlias name dataType key isVirtual,
      madeOf_withAlias name dataType key isVirtual⟩
  | _ => cases h

/-- A metadata column is read from the parts that its document tells. -/
theorem madeOf_of_read {t : Tree} {c : MetadataColumn} (h : MetadataColumn.read t = .ok c) :
    ∃ p : Parts, p.InDocument t 0 ∧ c.MadeOf p := by
  obtain ⟨d, hd, hfinish⟩ := Shape.exists_draft h
  have hname := component_name.eq_of_draft hd
  have htype := component_dataType.eq_of_draft hd
  have hkey := component_key.eq_of_draft hd
  have hvirtual := component_isVirtual.eq_of_draft hd
  -- Without a name and a type the draft would not have been finished.
  simp only [shape, Option.bind_eq_bind, Option.bind_eq_some_iff] at hfinish
  obtain ⟨name, hsomeName, dataType, hsomeType, hfinish⟩ := hfinish
  rw [hsomeName] at hname
  rw [hsomeType] at htype
  have hp : Parts.InDocument t 0 ⟨name, dataType, d.key, d.isVirtual⟩ :=
    ⟨readPart_eq_ok_some_iff.mp hname, readPart_eq_ok_some_iff.mp htype, hkey, hvirtual⟩
  refine ⟨_, hp, ?_⟩
  cases hk : d.key with
  | some key =>
    rw [hk] at hfinish
    cases hfinish
    exact madeOf_withAlias name dataType key d.isVirtual
  | none =>
    rw [hk] at hfinish
    cases hfinish
    exact madeOf_plain name dataType d.isVirtual

/-- What is said beside the kind is told by the whole document. -/
theorem Parts.InDocument.of_split? {numbered : Bool} {t rest : Tree} {p : Parts}
    {kind : NonPhysicalColumn.Kind}
    (hsplit : NonPhysicalColumn.split? numbered t = some (kind, rest)) (hp : p.InDocument rest 0) :
    p.InDocument t 1 := by
  have hpart {name : String} (hname : name ≠ "kind") :=
    NonPhysicalColumn.part?_of_split? hname hsplit
  obtain ⟨hname, htype, hkey, hvirtual⟩ := hp
  rw [hpart (by decide)] at hname htype hkey hvirtual
  exact ⟨hname, htype, hkey, hvirtual⟩

theorem madeOf_of_readNonPhysical {numbered : Bool} {depth : Nat} {t : Tree} {c : MetadataColumn}
    (h : NonPhysicalColumn.read numbered depth t = .ok (.metadata c)) :
    ∃ p : Parts, p.InDocument t 1 ∧ c.MadeOf p := by
  obtain ⟨rest, hsplit, hrest⟩ := NonPhysicalColumn.exists_split?_of_read h
  obtain ⟨p, hp, hc⟩ := madeOf_of_read hrest
  exact ⟨p, hp.of_split? hsplit, hc⟩

theorem madeOf_of_readSchema {depth : Nat} {t : Tree} {s : TableSchema} {i : Nat}
    {c : MetadataColumn} (h : TableSchema.read depth t = .ok s)
    (hc : s.columns[i]? = some (.nonPhysical (.metadata c))) :
    ∃ p : Parts, p.InSchema t i ∧ c.MadeOf p := by
  obtain ⟨items, closed, hpart, hitems⟩ := TableSchema.exists_items_of_read h
  obtain ⟨item, hitem, hread⟩ := hitems i _ hc
  obtain ⟨p, hp, hmade⟩ := madeOf_of_readNonPhysical (Column.nonPhysical_of_read hread)
  exact ⟨p, ⟨items, closed, item, hpart, hitem, hp⟩, hmade⟩

theorem madeOf_of_decodeColumn {options : Options} {i : Nat} {c : MetadataColumn}
    (h : decodeColumn options i = .ok (.metadata c)) :
    ∃ p : Parts, p.InRecord options i ∧ c.MadeOf p := by
  obtain ⟨hname, htype, hexpression, hkey, hvirtual⟩ := decodeColumn_eq_ok_iff.mp h
  -- A record tells a key in any case, so the column is made with one even if it keeps none.
  have hc := madeOf_withAlias c.name c.dataType c.metadataKey c.isVirtual
  rw [withAlias_metadataKey] at hc
  exact ⟨_, ⟨hname, htype, hexpression, hkey, hvirtual⟩, hc⟩

/-- However a column is obtained, it is made of parts that were told. -/
theorem Obtained.exists_parts {told : Parts → Prop} {c : MetadataColumn} (h : Obtained told c) :
    ∃ p, told p ∧ c.MadeOf p := by
  cases h with
  | plain name dataType isVirtual => exact ⟨_, rfl, madeOf_plain name dataType isVirtual⟩
  | withAlias name dataType key isVirtual =>
    exact ⟨_, rfl, madeOf_withAlias name dataType key isVirtual⟩
  | nonPhysicalPlain h =>
    cases h
    exact ⟨_, rfl, madeOf_plain _ _ _⟩
  | nonPhysicalWithAlias h =>
    cases h
    exact ⟨_, rfl, madeOf_withAlias _ _ _ _⟩
  | declared h =>
    rw [SchemaDraft.columns_ofDeclarations, List.mem_filterMap] at h
    obtain ⟨declaration, hmem, hcolumn⟩ := h
    obtain ⟨p, hp, hmade⟩ := madeOf_of_declaration hcolumn
    exact ⟨p, ⟨declaration, hmem, hp⟩, hmade⟩
  | read h => exact madeOf_of_read h
  | readNonPhysical h => exact madeOf_of_readNonPhysical h
  | readColumn h => exact madeOf_of_readNonPhysical (Column.nonPhysical_of_read h)
  | readSchema h hc => exact madeOf_of_readSchema h hc
  | readTable h hc =>
    obtain ⟨part, hpart, hschema⟩ := CatalogTable.exists_schema_of_read h
    obtain ⟨p, hp, hmade⟩ := madeOf_of_readSchema hschema hc
    exact ⟨p, ⟨part, hpart, hp⟩, hmade⟩
  | decoded h => exact madeOf_of_decodeColumn h
  | restored h hc =>
    have hcolumns := (StoredTable.restore_eq_ok_iff.mp h).1
    exact madeOf_of_decodeColumn (StoredTable.decodeColumn_of_column hcolumns hc)

/-- However a column is obtained, its alias is not its name, whatever key it was told. So columns
are equal just if they have the same name and type, read the same key and are both virtual or both
not. -/
theorem obtained_normalized :
    (∀ told c, Obtained told c → c.explicitAlias ≠ some c.name ∧ ∃ p, told p ∧ c.MadeOf p) ∧
    ∀ c d : MetadataColumn, c = d ↔ c.name = d.name ∧ c.dataType = d.dataType ∧
      c.metadataKey = d.metadataKey ∧ c.isVirtual = d.isVirtual := by
  refine ⟨?_, fun c d => eq_iff⟩
  intro told c h
  obtain ⟨p, hp, hc⟩ := h.exists_parts
  exact ⟨hc.explicitAlias_ne, p, hp, hc⟩

def offsetColumn : MetadataColumn := plain "offset" ⟨.bigInt, false⟩ true

/-- A document of the column that names its key as well, and before its name. -/
def offsetMembers : Tree :=
  .object [(some "metadata_key", .text (some "offset")), (some "kind", .text (some "metadata")),
    (some "is_virtual", .bool true), (some "name", .text (some "offset")),
    (some "data_type", .text (some "bigint not null"))] true

/-- A document that names the key in its place, without a kind. -/
def offsetItems : Tree :=
  .array [.text (some "offset"), .text (some "BIGINT NOT NULL"), .text (some "offset"),
    .bool true] true

/-- A record of the column in spellings that are never written here. -/
def offsetRecord : Options :=
  .ofList [("schema.3.name", "offset"), ("schema.3.data-type", "BigInt not null"),
    ("schema.3.metadata", "offset"), ("schema.3.virtual", "TRUE")]

theorem obtained_normalized_offset :
    (Obtained (Parts.InDocument offsetMembers 1) offsetColumn ∧
      offsetColumn.explicitAlias ≠ some "offset" ∧
      ∃ p : Parts, p.InDocument offsetMembers 1 ∧ p.key = some "offset" ∧ offsetColumn.MadeOf p) ∧
    (Obtained (Parts.InDocument offsetItems 0) offsetColumn ∧
      ∃ p : Parts, p.InDocument offsetItems 0 ∧ offsetColumn.MadeOf p) ∧
    (Obtained (Parts.InRecord offsetRecord 3) offsetColumn ∧
      ∃ p : Parts, p.InRecord offsetRecord 3 ∧ p.key = some "offset" ∧ offsetColumn.MadeOf p) ∧
    withAlias "offset" ⟨.bigInt, false⟩ "offset" true = offsetColumn := by
  obtain ⟨hnormal, hequal⟩ := obtained_normalized
  have hmembers : Obtained (Parts.InDocument offsetMembers 1) offsetColumn :=
    @Obtained.readNonPhysical false 0 _ _ (by decide +kernel)
  have hitems : Obtained (Parts.InDocument offsetItems 0) offsetColumn := .read (by decide +kernel)
  have hrecord : Obtained (Parts.InRecord offsetRecord 3) offsetColumn :=
    .decoded (by decide +kernel)
  obtain ⟨hne, p, hp, hmade⟩ := hnormal _ _ hmembers
  obtain ⟨-, q, hq, hmade'⟩ := hnormal _ _ hrecord
  exact ⟨⟨hmembers, hne, p, hp, (Except.ok.inj hp.key).symm, hmade⟩,
    ⟨hitems, (hnormal _ _ hitems).2⟩,
    ⟨hrecord, q, hq, hq.key.symm, hmade'⟩,
    (hequal _ _).mpr ⟨rfl, rfl, rfl, rfl⟩⟩

end MetadataColumn

end FlatSchema
