import FlatSchema.Proofs.CommandLine.RoundTrip
import FlatSchema.Proofs.Json.LastMembers

namespace FlatSchema

open Json

namespace Json.Tree

theorem allWhole_iff {depth : Nat} {ts : List Tree} :
    allWhole depth ts ↔ ∀ t ∈ ts, t.isWhole depth := by
  induction ts with
  | nil => simp [allWhole]
  | cons t ts ih => simp [allWhole, ih]

theorem membersWhole_iff {depth : Nat} {ms : List (Option String × Tree)} :
    membersWhole depth ms ↔ ∀ m ∈ ms, m.1.isSome ∧ m.2.isWhole depth := by
  induction ms with
  | nil => simp [membersWhole]
  | cons m ms ih => simp [membersWhole, ih, and_assoc]

end Json.Tree

/-- A document is whole wherever one more container fits, if its items are whole in it. -/
theorem Json.isWhole_array {depth : Nat} {xs : List Json} (hdepth : depth < Tree.maxDepth)
    (h : ∀ x ∈ xs, x.tree.isWhole (depth + 1)) : (Json.array xs).tree.isWhole depth := by
  have hitems : Tree.allWhole (depth + 1) (xs.map tree) :=
    Tree.allWhole_iff.mpr (List.forall_mem_map.mpr h)
  simp [tree, Tree.isWhole, hdepth, hitems]

theorem Json.isWhole_object {depth : Nat} {ms : List (String × Json)}
    (hdepth : depth < Tree.maxDepth) (h : ∀ m ∈ ms, m.2.tree.isWhole (depth + 1)) :
    (Json.object ms).tree.isWhole depth := by
  have hmembers : Tree.membersWhole (depth + 1) (ms.map (fun m => (some m.1, m.2.tree))) :=
    Tree.membersWhole_iff.mpr (List.forall_mem_map.mpr (fun m hm => ⟨rfl, h m hm⟩))
  simp [tree, Tree.isWhole, hdepth, hmembers]

theorem TypeDescriptor.read_steady : Steady read := by
  intro t v h
  obtain ⟨text, htext, h⟩ := except_bind_eq_ok_iff.mp h
  exact except_bind_eq_ok_iff.mpr ⟨text, readText_steady t text htext, h⟩

theorem PhysicalColumn.read_steady : Steady read := by
  apply Shape.steady
  simp only [shape, List.forall_mem_cons, List.not_mem_nil, false_implies, implies_true, and_true]
  exact ⟨field_steady readText_steady, field_steady TypeDescriptor.read_steady⟩

namespace StoredTable

theorem read_steady : Steady read := by
  apply Shape.steady
  simp only [shape, List.forall_mem_cons, List.not_mem_nil, false_implies, implies_true, and_true]
  exact ⟨field_steady (readList_steady PhysicalColumn.read_steady),
    field_steady (readList_steady readText_steady), field_steady (readMap_steady readText_steady),
    field_steady (readOptional_steady readText_steady)⟩

/-- A flat form that is written can be read as a whole. -/
theorem isWhole_toJson (s : StoredTable) : s.toJson.tree.isWhole 0 := by
  have hfields : ∀ x ∈ s.fields.map PhysicalColumn.toJson, x.tree.isWhole 2 :=
    List.forall_mem_map.mpr (fun c _ => PhysicalColumn.isWhole_toJson (by decide) c)
  have hkeys : ∀ x ∈ s.primaryKeys.map Json.text, x.tree.isWhole 2 :=
    List.forall_mem_map.mpr (fun _ _ => rfl)
  have hoptions : s.options.toJson.tree.isWhole 1 :=
    isWhole_object (by decide) (List.forall_mem_map.mpr (fun _ _ => rfl))
  have hcomment : ∀ m ∈ optionalMember "comment" Json.text s.comment, m.2.tree.isWhole 1 :=
    List.forall_mem_map.mpr (fun _ _ => rfl)
  apply isWhole_object (by decide)
  rw [List.forall_mem_append, List.forall_mem_cons, List.forall_mem_cons, List.forall_mem_cons]
  exact ⟨⟨isWhole_array (by decide) hfields, isWhole_array (by decide) hkeys, hoptions,
    List.forall_mem_nil _⟩, hcomment⟩

end StoredTable

namespace CommandLine

theorem readWhole_eq_ok_iff {t whole : Tree} :
    readWhole t = .ok whole ↔ t.isWhole 0 ∧ t.lastMembers = whole := by
  unfold readWhole
  split <;> simp_all

/-- Where a flat form is read, it is counted in its options. -/
theorem countIn?_lastMembers {t : Tree} {s : StoredTable} (h : StoredTable.read t = .ok s)
    (physical : List String) : countIn? physical t.lastMembers =
      some (countNonPhysical s.options (physical ++ s.fieldNames)) := by
  rw [countIn?, StoredTable.read_steady t s h]

namespace Invocation

/-- Counting answers with the number that is found in a whole value. -/
theorem answer_count_eq_ok_iff {i : Invocation} {contents : Option String} {output : String}
    {physical : List String} (h : i.command = .count physical) :
    i.answer contents = .ok output ↔ ∃ text tree n, contents = some text ∧
      readDocument readWhole text = .ok tree ∧ countIn? physical tree = some n ∧
      toString n = output := by
  cases contents with
  | none => simp [answer]
  | some text =>
    simp only [answer, h, except_bind_eq_ok_iff, parse_eq_ok_iff, Option.some.injEq]
    constructor
    · intro h
      obtain ⟨tree, htree, hcount⟩ := h
      cases hn : countIn? physical tree with
      | none => simp [hn] at hcount
      | some n =>
        rw [hn] at hcount
        exact ⟨text, tree, n, rfl, htree, hn, Except.ok.inj hcount⟩
    · intro h
      obtain ⟨_, tree, n, rfl, htree, hn, houtput⟩ := h
      refine ⟨tree, htree, ?_⟩
      rw [hn]
      exact congrArg Except.ok houtput

end Invocation

variable {files : String → Option String} {counting : List String} {k : Invocation}

/-- Counting in a file in which decoding finds a table. -/
theorem run_count_of_restore (hcounting : parse counting = .ok k) (hcount : k.command = .count [])
    {text : String} {tree : Tree} {s : StoredTable} {t : CatalogTable}
    (htext : files k.file = some text) (hread : readDocument readWhole text = .ok tree)
    (hdecode : readDocument StoredTable.read text = .ok s) (hrestore : s.restore = .ok t) :
    run files counting =
      ⟨0, toString (nonPhysicalColumns t.schema.columns).length ++ "\n", ""⟩ := by
  obtain ⟨whole, hdocument, hwhole⟩ := readDocument_eq_ok_iff.mp hread
  obtain ⟨decoded, hdocument', hs⟩ := readDocument_eq_ok_iff.mp hdecode
  -- Both readings start from the one tree that the text has.
  cases hdocument.symm.trans hdocument'
  obtain ⟨-, rfl⟩ := readWhole_eq_ok_iff.mp hwhole
  have hn := countIn?_lastMembers hs []
  rw [List.nil_append, StoredTable.countNonPhysical_of_columns
    (StoredTable.restore_eq_ok_iff.mp hrestore).1] at hn
  exact run_of_answer hcounting ((Invocation.answer_count_eq_ok_iff hcount).mpr
    ⟨text, _, _, htext, hread, hn, rfl⟩)

/-- Where decoding and counting a file both succeed, counting prints how many non-physical columns
the table has that decoding prints. In a file with what encoding a table printed, counting always
succeeds and prints how many the table has. -/
theorem count_nonPhysical (hcounting : parse counting = .ok k) (hcount : k.command = .count []) :
    (∀ decoding i, parse decoding = .ok i → i.command = .decode → i.file = k.file →
      (run files decoding).exitCode = 0 → (run files counting).exitCode = 0 →
      ∃ t : CatalogTable, (run files decoding).stdout = t.toJson.render i.style ++ "\n" ∧
        readDocument CatalogTable.read (run files decoding).stdout = .ok t ∧
        (run files counting).stdout =
          toString (nonPhysicalColumns t.schema.columns).length ++ "\n") ∧
    ∀ files' encoding i text t, parse encoding = .ok i → i.command = .encode →
      files' i.file = some text → readDocument CatalogTable.read text = .ok t →
      files k.file = some (run files' encoding).stdout →
      run files counting =
        ⟨0, toString (nonPhysicalColumns t.schema.columns).length ++ "\n", ""⟩ := by
  constructor
  · intro decoding i hdecoding hdecode hfile hdecoded hcounted
    obtain ⟨output, hanswer, hprinted⟩ := exists_answer_of_exitCode hdecoding hdecoded
    obtain ⟨text, s, t, htext, hs, hrestore, rfl⟩ :=
      (Invocation.answer_decode_eq_ok_iff hdecode).mp hanswer
    obtain ⟨_, hanswer', -⟩ := exists_answer_of_exitCode hcounting hcounted
    obtain ⟨text', tree, n, htext', hread, -⟩ :=
      (Invocation.answer_count_eq_ok_iff hcount).mp hanswer'
    rw [hfile] at htext
    cases htext.symm.trans htext'
    have hcanonical : t.Canonical := StoredTable.canonical_of_restore
      (StoredTable.lawful.canonical_of_readDocument hs) hrestore
    refine ⟨t, hprinted, ?_, ?_⟩
    · rw [hprinted, readDocument_line]
      exact CatalogTable.lawful.read_tree t hcanonical
    · rw [run_count_of_restore hcounting hcount htext hread hs hrestore]
  · intro files' encoding i text t hencoding hencode htext ht hfile
    obtain ⟨s, -, hprinted, hdecode, hrestore⟩ := exists_stored_of_encode hencoding hencode htext ht
    have hread : readDocument readWhole (run files' encoding).stdout =
        .ok s.toJson.tree.lastMembers := by
      rw [hprinted, readDocument_line]
      exact readWhole_eq_ok_iff.mpr ⟨s.isWhole_toJson, rfl⟩
    have hcounted := run_count_of_restore hcounting hcount hfile hread hdecode hrestore
    exact hcounted

/-- A flat form in which an option is given twice, and so is a member that nothing reads. -/
def repetitive : Json :=
  .object [("fields", .array [.array [.text "id", .text "bigint not null"]]), ("note", .bool true),
    ("note", .array []),
    ("options", .object [("schema.1.name", .text "id"), ("schema.1.data-type", .text "int"),
      ("schema.1.expr", .text "id + 1"), ("schema.1.name", .text "n")])]

def repetitiveFiles (name : String) : Option String :=
  if name = "stored.json" then some (repetitive.render .compact) else none

def repetitiveStored : StoredTable where
  fields := [⟨"id", ⟨.bigInt, false⟩⟩]
  primaryKeys := []
  options := .ofList [("schema.1.data-type", "int"), ("schema.1.expr", "id + 1"),
    ("schema.1.name", "n")]
  comment := none

theorem read_repetitive :
    readDocument StoredTable.read (repetitive.render .compact) = .ok repetitiveStored := by
  rw [readDocument_render]
  decide +kernel

theorem restore_repetitive :
    repetitiveStored.restore = .ok ⟨handwrittenSchema, .empty, none⟩ :=
  StoredTable.restore_eq_ok_iff.mpr
    ⟨by decide +kernel, by decide +kernel, rfl, by decide +kernel, rfl⟩

theorem readWhole_repetitive :
    readDocument readWhole (repetitive.render .compact) = .ok repetitive.tree.lastMembers := by
  rw [readDocument_render]
  exact readWhole_eq_ok_iff.mpr ⟨by decide +kernel, rfl⟩

theorem count_nonPhysical_repetitive :
    (run repetitiveFiles (argumentsFor true "decode" "stored.json")).exitCode = 0 ∧
      (run repetitiveFiles (argumentsFor false "count" "stored.json")).exitCode = 0 ∧
      (∃ t : CatalogTable,
        readDocument CatalogTable.read
          (run repetitiveFiles (argumentsFor true "decode" "stored.json")).stdout = .ok t ∧
        (run repetitiveFiles (argumentsFor false "count" "stored.json")).stdout =
          toString (nonPhysicalColumns t.schema.columns).length ++ "\n") ∧
      run encodedFiles (argumentsFor false "count" "flat.json") = ⟨0, "1\n", ""⟩ := by
  have hdecode : parse (argumentsFor true "decode" "stored.json") = .ok ⟨true, .decode, _⟩ :=
    parse_argumentsFor (by decide) true (by decide)
  have hcount : parse (argumentsFor false "count" "stored.json") = .ok ⟨false, .count [], _⟩ :=
    parse_argumentsFor (by decide) false (by decide)
  have hencode : parse (argumentsFor true "encode" "table.json") = .ok ⟨true, .encode, _⟩ :=
    parse_argumentsFor (by decide) true (by decide)
  have hcountFlat : parse (argumentsFor false "count" "flat.json") = .ok ⟨false, .count [], _⟩ :=
    parse_argumentsFor (by decide) false (by decide)
  have hfile : repetitiveFiles "stored.json" = some (repetitive.render .compact) := if_pos rfl
  have hkept : encodedFiles "flat.json" = some _ := if_pos rfl
  have hdecoded :
      (run repetitiveFiles (argumentsFor true "decode" "stored.json")).exitCode = 0 := by
    rw [run_of_answer hdecode ((Invocation.answer_decode_eq_ok_iff rfl).mpr
      ⟨_, _, _, hfile, read_repetitive, restore_repetitive, rfl⟩)]
  have hcounted :
      (run repetitiveFiles (argumentsFor false "count" "stored.json")).exitCode = 0 := by
    rw [run_count_of_restore hcount rfl hfile readWhole_repetitive read_repetitive
      restore_repetitive]
  obtain ⟨hagree, -⟩ := @count_nonPhysical repetitiveFiles _ _ hcount rfl
  obtain ⟨-, hflat⟩ := @count_nonPhysical encodedFiles _ _ hcountFlat rfl
  obtain ⟨t, -, ht, hn⟩ := hagree _ _ hdecode rfl rfl hdecoded hcounted
  have hone := hflat handwrittenFiles _ _ _ _ hencode rfl (if_pos rfl) read_handwritten hkept
  exact ⟨hdecoded, hcounted, ⟨t, ht, hn⟩, hone⟩

end CommandLine

end FlatSchema
