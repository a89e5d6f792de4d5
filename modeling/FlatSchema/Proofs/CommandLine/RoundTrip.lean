import FlatSchema.CommandLine.Outcome
import FlatSchema.Proofs.Form.Flattening

namespace FlatSchema.CommandLine

open Json

namespace Invocation

variable {i : Invocation} {contents : Option String} {output : String}

theorem parse_eq_ok_iff {α : Type} {read : Reader α} {text : String} {v : α} :
    i.parse read text = .ok v ↔ readDocument read text = .ok v :=
  except_mapError_eq_ok_iff

/-- Encoding answers with the document of a flat form. -/
theorem answer_encode_eq_ok_iff (h : i.command = .encode) :
    i.answer contents = .ok output ↔ ∃ text t stored, contents = some text ∧
      readDocument CatalogTable.read text = .ok t ∧ t.toStored = .ok stored ∧
      stored.toJson.render i.style = output := by
  cases contents with
  | none => simp [answer]
  | some text =>
    simp [answer, h, except_bind_eq_ok_iff, parse_eq_ok_iff, except_mapError_eq_ok_iff]

/-- Decoding answers with the document of a restored table. -/
theorem answer_decode_eq_ok_iff (h : i.command = .decode) :
    i.answer contents = .ok output ↔ ∃ text stored t, contents = some text ∧
      readDocument StoredTable.read text = .ok stored ∧ stored.restore = .ok t ∧
      t.toJson.render i.style = output := by
  cases contents with
  | none => simp [answer]
  | some text =>
    simp [answer, h, except_bind_eq_ok_iff, parse_eq_ok_iff, except_mapError_eq_ok_iff]

end Invocation

/-- The arguments for a command on a file, whatever the name of the file begins with. -/
def argumentsFor (pretty : Bool) (word file : String) : List String :=
  (if pretty then ["--pretty"] else []) ++ [word, "--", file]

/-- Each command can be given for every file. -/
theorem parse_argumentsFor {word : String} {command : Command}
    (h : (word, command) ∈ [("encode", Command.encode), ("decode", .decode), ("count", .count [])])
    (pretty : Bool) {file : String} (hfile : file ≠ "") :
    parse (argumentsFor pretty word file) = .ok ⟨pretty, command, file⟩ := by
  have hread : ∀ physical, Draft.read physical {} ["--", file] = .ok { file := file } := by
    intro physical
    simp [Draft.read, Draft.values, Draft.withFile, hfile, bind, Except.bind]
  simp only [List.mem_cons, Prod.mk.injEq, List.not_mem_nil, or_false] at h
  have hfrom : parseFrom pretty [word, "--", file] = .ok ⟨pretty, command, file⟩ := by
    rcases h with ⟨rfl, rfl⟩ | ⟨rfl, rfl⟩ | ⟨rfl, rfl⟩ <;>
      cases pretty <;> simp [parseFrom, hread, Draft.invocation, startsWith, except_bind_ok]
  cases pretty with
  | false => exact hfrom
  | true => simpa [parse, argumentsFor, parseFrom] using hfrom

variable {files : String → Option String} {args : List String} {i : Invocation}

theorem run_of_answer {output : String} (hargs : parse args = .ok i)
    (h : i.answer (files i.file) = .ok output) : run files args = ⟨0, output ++ "\n", ""⟩ := by
  rw [run, hargs]
  exact congrArg outcomeOf h

/-- A command that exits with zero has printed its answer. -/
theorem exists_answer_of_exitCode (hargs : parse args = .ok i)
    (h : (run files args).exitCode = 0) :
    ∃ output, i.answer (files i.file) = .ok output ∧ (run files args).stdout = output ++ "\n" := by
  cases hanswer : i.answer (files i.file) with
  | ok output =>
    rw [run_of_answer hargs hanswer]
    exact ⟨output, rfl, rfl⟩
  | error failure =>
    have hrun : run files args = outcomeOf (.error failure) := by
      rw [run, hargs]
      exact congrArg outcomeOf hanswer
    rw [hrun] at h
    cases h

/-- Whatever text a table was read from, encoding prints its flat form, from which both the flat
form and the table are read back. -/
theorem exists_stored_of_encode {text : String} {t : CatalogTable} (hargs : parse args = .ok i)
    (hencode : i.command = .encode) (htext : files i.file = some text)
    (ht : readDocument CatalogTable.read text = .ok t) :
    ∃ stored, t.toStored = .ok stored ∧
      run files args = ⟨0, stored.toJson.render i.style ++ "\n", ""⟩ ∧
      readDocument StoredTable.read (run files args).stdout = .ok stored ∧
      stored.restore = .ok { t with options := t.options.user } := by
  have hcanonical : t.Canonical := CatalogTable.lawful.canonical_of_readDocument ht
  obtain ⟨stored, hstored, hs, hrestore⟩ := CatalogTable.Canonical.flattens hcanonical
  have hrun : run files args = ⟨0, stored.toJson.render i.style ++ "\n", ""⟩ :=
    run_of_answer hargs ((Invocation.answer_encode_eq_ok_iff hencode).mpr
      ⟨text, t, stored, htext, ht, hstored, rfl⟩)
  refine ⟨stored, hstored, hrun, ?_, hrestore⟩
  rw [hrun, readDocument_line]
  exact StoredTable.lawful.read_tree stored hs

/-- A table that was encoded is decoded again, whatever text it was read from, but for the user
options that the schema's keys are reserved from. -/
theorem decode_of_encode {text : String} {t : CatalogTable} (hargs : parse args = .ok i)
    (hencode : i.command = .encode) (htext : files i.file = some text)
    (ht : readDocument CatalogTable.read text = .ok t) :
    (∃ stored, t.toStored = .ok stored ∧
      run files args = ⟨0, stored.toJson.render i.style ++ "\n", ""⟩) ∧
    ∀ files' args' j, parse args' = .ok j → j.command = .decode →
      files' j.file = some (run files args).stdout →
      run files' args' =
        ⟨0, { t with options := t.options.user }.toJson.render j.style ++ "\n", ""⟩ := by
  obtain ⟨stored, hstored, hrun, hread, hrestore⟩ := exists_stored_of_encode hargs hencode htext ht
  refine ⟨⟨stored, hstored, hrun⟩, ?_⟩
  intro files' args' j hargs' hdecode hfile
  exact run_of_answer hargs' ((Invocation.answer_decode_eq_ok_iff hdecode).mpr
    ⟨_, stored, _, hfile, hread, hrestore, rfl⟩)

/-- A table as a user may write it, in arrays and with types in lower case, and with an option that
looks like the schema's own. -/
def handwritten : String :=
  "[[[[\"id\", \"bigint not null\"], [\"computed\", \"n\", \"int\", \"id + 1\"]]],\n" ++
    " \x7b\"bucket\": \"4\", \"schema.0.name\": \"id\"\x7d]\n"

def handwrittenSchema : TableSchema where
  columns := [.physical ⟨"id", ⟨.bigInt, false⟩⟩,
    .nonPhysical (.computed ⟨"n", ⟨.int, true⟩, "id + 1"⟩)]
  watermark := none
  primaryKey := []
  nodup_names := by decide
  primaryKey_physical := by decide
  rowtime_known := by decide

def handwrittenTable : CatalogTable where
  schema := handwrittenSchema
  options := .ofList [("bucket", "4"), ("schema.0.name", "id")]
  comment := none

theorem read_handwritten : readDocument CatalogTable.read handwritten = .ok handwrittenTable := by
  decide +kernel

/-- What is in the files at first. -/
def handwrittenFiles (name : String) : Option String :=
  if name = "table.json" then some handwritten else none

/-- What is in the files once the output of encoding has been kept. -/
def encodedFiles (name : String) : Option String :=
  if name = "flat.json" then
    some (run handwrittenFiles (argumentsFor true "encode" "table.json")).stdout
  else none

theorem decode_of_encode_handwritten :
    handwrittenFiles "table.json" = some handwritten ∧
      readDocument CatalogTable.read handwritten = .ok handwrittenTable ∧
      run encodedFiles (argumentsFor false "decode" "flat.json") =
        ⟨0, { handwrittenTable with options := .ofList [("bucket", "4")] }.toJson.render .compact ++
          "\n", ""⟩ := by
  have hencode : parse (argumentsFor true "encode" "table.json") = .ok ⟨true, .encode, _⟩ :=
    parse_argumentsFor (by decide) true (by decide)
  have hdecode : parse (argumentsFor false "decode" "flat.json") = .ok ⟨false, .decode, _⟩ :=
    parse_argumentsFor (by decide) false (by decide)
  have hfile : handwrittenFiles "table.json" = some handwritten := if_pos rfl
  have hkept : encodedFiles "flat.json" = some _ := if_pos rfl
  have huser : handwrittenTable.options.user = .ofList [("bucket", "4")] := by decide +kernel
  obtain ⟨-, hrun⟩ := decode_of_encode hencode rfl hfile read_handwritten
  have hdecoded := hrun encodedFiles _ _ hdecode rfl hkept
  rw [huser] at hdecoded
  exact ⟨hfile, read_handwritten, hdecoded⟩

end FlatSchema.CommandLine
