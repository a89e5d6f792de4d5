import FlatSchema.Proofs.Json.Parsing
import FlatSchema.Proofs.Outcomes

namespace FlatSchema.Json

variable {α σ : Type}

/-- The reader inverts the writer on the canonical values, and reads only such values. -/
structure Lawful (toJson : α → Json) (read : Reader α) (Canonical : α → Prop) : Prop where
  read_tree : ∀ v, Canonical v → read (toJson v).tree = .ok v
  canonical_of_read : ∀ t v, read t = .ok v → Canonical v

/-- A text read and written again. -/
def rewrite (toJson : α → Json) (read : Reader α) (style : Style) (text : String) :
    Except ReadError String :=
  (readDocument read text).map (fun v => (toJson v).render style)

/-- The text of a canonical value reads back as the value in either style, every text that reads at
all reads as a canonical value, and what is written for that value stays as it is from then on. -/
structure RoundTrips (toJson : α → Json) (read : Reader α) (Canonical : α → Prop) : Prop where
  read_render : ∀ v, Canonical v → ∀ style, readDocument read ((toJson v).render style) = .ok v
  canonical_of_readDocument : ∀ text v, readDocument read text = .ok v → Canonical v
  read_written : ∀ text v, readDocument read text = .ok v → ∀ style,
    readDocument read ((toJson v).render style) = .ok v
  rewrite_written : ∀ text v, readDocument read text = .ok v → ∀ style,
    rewrite toJson read style ((toJson v).render style) = .ok ((toJson v).render style)

theorem ofOption_eq_ok_iff {o : Option α} {v : α} : ofOption o = .ok v ↔ o = some v := by
  cases o <;> simp [ofOption]

/-- A text is read as what its tree is read as, if nothing follows the tree. -/
theorem readDocument_eq_ok_iff {read : Reader α} {text : String} {v : α} :
    readDocument read text = .ok v ↔
      ∃ t, Document.ofText text = ⟨some t, false⟩ ∧ read t = .ok v := by
  simp only [readDocument, except_bind_eq_ok_iff, ofOption_eq_ok_iff]
  rcases Document.ofText text with ⟨root, trailing⟩
  cases trailing <;> simp

theorem Lawful.canonical_of_readDocument {toJson : α → Json} {read : Reader α}
    {Canonical : α → Prop} (h : Lawful toJson read Canonical) {text : String} {v : α}
    (hv : readDocument read text = .ok v) : Canonical v := by
  obtain ⟨t, -, ht⟩ := readDocument_eq_ok_iff.mp hv
  exact h.canonical_of_read t v ht

theorem Lawful.readDocument_render {toJson : α → Json} {read : Reader α} {Canonical : α → Prop}
    (h : Lawful toJson read Canonical) {v : α} (hv : Canonical v) (style : Style) :
    readDocument read ((toJson v).render style) = .ok v := by
  rw [Json.readDocument_render, h.read_tree v hv]

/-- Laws about trees are laws about texts. -/
theorem Lawful.roundTrips {toJson : α → Json} {read : Reader α} {Canonical : α → Prop}
    (h : Lawful toJson read Canonical) : RoundTrips toJson read Canonical where
  read_render _ hv style := h.readDocument_render hv style
  canonical_of_readDocument _ _ hv := h.canonical_of_readDocument hv
  read_written _ _ hv style := h.readDocument_render (h.canonical_of_readDocument hv) style
  rewrite_written _ _ hv style := by
    rw [rewrite, h.readDocument_render (h.canonical_of_readDocument hv)]
    rfl

@[simp] theorem readText_tree (s : String) : readText (Json.text s).tree = .ok s := rfl

@[simp] theorem readBool_tree (b : Bool) : readBool (Json.bool b).tree = .ok b := rfl

/-- No document is null. -/
@[simp] theorem readOptional_tree (read : Reader α) (j : Json) :
    readOptional read j.tree = (read j.tree).map some := by
  cases j <;> rfl

theorem readList_tree {toJson : α → Json} {read : Reader α} {xs : List α}
    (h : ∀ x ∈ xs, read (toJson x).tree = .ok x) :
    readList read (Json.array (xs.map toJson)).tree = .ok xs := by
  have hxs := except_mapM_map (g := fun x => (toJson x).tree) h
  rw [tree, trees_eq_map, List.map_map]
  exact congrArg (· >>= fun values => .ok values) hxs

theorem readList_texts (xs : List String) : readList readText (Json.texts xs).tree = .ok xs :=
  readList_tree (fun x _ => readText_tree x)

/-- A list is read from the items of an array, one value from each. -/
theorem exists_items_of_readList {read : Reader α} {t : Tree} {xs : List α}
    (h : readList read t = .ok xs) : ∃ items closed, t = .array items closed ∧
      ∀ (i : Nat) x, xs[i]? = some x → ∃ item, items[i]? = some item ∧ read item = .ok x := by
  unfold readList at h
  split at h
  · rename_i items closed
    obtain ⟨ys, hys, h⟩ := except_bind_eq_ok_iff.mp h
    split at h
    · cases h
      exact ⟨items, closed, rfl, fun i x hx => exists_of_except_mapM hys hx⟩
    · cases h
  · cases h

theorem forall_of_readList {P : α → Prop} {read : Reader α} (hread : ∀ t v, read t = .ok v → P v)
    {t : Tree} {xs : List α} (h : readList read t = .ok xs) : ∀ x ∈ xs, P x := by
  obtain ⟨items, closed, -, hitems⟩ := exists_items_of_readList h
  intro x hx
  obtain ⟨i, hi⟩ := List.mem_iff_getElem?.mp hx
  obtain ⟨item, -, hitem⟩ := hitems i x hi
  exact hread item x hitem

theorem forall_of_readOptional {P : α → Prop} {read : Reader α}
    (hread : ∀ t v, read t = .ok v → P v) {t : Tree} {o : Option α}
    (h : readOptional read t = .ok o) : ∀ v ∈ o, P v := by
  unfold readOptional at h
  split at h
  · cases h
    simp
  · obtain ⟨v, hv, rfl⟩ := except_map_eq_ok_iff.mp h
    intro _ hsome
    cases hsome
    exact hread _ v hv

@[simp] theorem name_field (name : String) (read : Reader α) (set : α → σ → σ) :
    (field name read set).name = name := rfl

@[simp] theorem read_field (name : String) (read : Reader α) (set : α → σ → σ) (t : Tree) (d : σ) :
    (field name read set).read t d = (read t).map (set · d) := rfl

theorem Shape.read_object {shape : Shape σ α} {members : List (String × Json)} {d : σ} {v : α}
    (hd : readMembers shape.fields shape.unknown [] (memberTrees members) shape.start = .ok d)
    (hv : shape.finish d = some v) : shape.read (Json.object members).tree = .ok v := by
  rw [tree, Shape.read, hd, except_bind_ok, if_pos rfl, hv]
  rfl

/-- A field keeps what is known of a record's draft, whatever its value. -/
def Field.Keeps (P : σ → Prop) (f : Field σ) : Prop := ∀ t d d', P d → f.read t d = .ok d' → P d'

theorem keeps_field {P : σ → Prop} {name : String} {read : Reader α} {set : α → σ → σ}
    (h : ∀ t v, read t = .ok v → ∀ d, P d → P (set v d)) : (field name read set).Keeps P := by
  intro t d d' hd ht
  obtain ⟨v, hv, rfl⟩ := except_map_eq_ok_iff.mp ht
  exact h t v hv d hd

theorem readMembers_keeps {P : σ → Prop} {fields : List (Field σ)} (hf : ∀ f ∈ fields, f.Keeps P)
    {unknown : Unknown} {seen : List String} {members : List (Option String × Tree)} {d d' : σ}
    (hd : P d) (h : readMembers fields unknown seen members d = .ok d') : P d' := by
  fun_induction readMembers fields unknown seen members d with
  | case1 =>
    cases h
    exact hd
  | case2 => cases h
  | case3 => cases h
  | case4 seen key value rest draft f hfind hseen ih =>
    obtain ⟨next, hnext, h⟩ := except_bind_eq_ok_iff.mp h
    exact ih next (hf f (List.mem_of_find?_eq_some hfind) _ _ _ hd hnext) h
  | case5 seen key value rest draft hfind hignored ih => exact ih hd h
  | case6 => cases h

/-- Where unknown members are refused, every member is a field. -/
theorem exists_field_of_readMembers {fields : List (Field σ)} {unknown : Unknown}
    (hunknown : unknown = .refuse) {seen : List String} {members : List (Option String × Tree)}
    {d d' : σ} (h : readMembers fields unknown seen members d = .ok d') :
    ∀ m ∈ members, ∃ f ∈ fields, m.1 = some f.name := by
  fun_induction readMembers fields unknown seen members d with
  | case1 => simp
  | case2 => cases h
  | case3 => cases h
  | case4 seen key value rest draft f hfind hseen ih =>
    obtain ⟨next, -, h⟩ := except_bind_eq_ok_iff.mp h
    have hname : f.name = key := by simpa using List.find?_some hfind
    refine List.forall_mem_cons.mpr ⟨⟨f, List.mem_of_find?_eq_some hfind, ?_⟩, ih next h⟩
    rw [hname]
  | case5 seen key value rest draft hfind hignored ih =>
    rw [hunknown] at hignored
    cases hignored.1
  | case6 => cases h

/-- Only the fields up to the last place that is filled have a say. -/
theorem readPlaces_keeps_of_take {P : σ → Prop} {fields : List (Field σ)} {values : List Tree}
    (hf : ∀ f ∈ fields.take values.length, f.Keeps P) {d d' : σ} (hd : P d)
    (h : readPlaces fields values d = .ok d') : P d' := by
  fun_induction readPlaces fields values d with
  | case1 =>
    cases h
    exact hd
  | case2 => cases h
  | case3 f fields value rest draft ih =>
    obtain ⟨hfirst, hfields⟩ := List.forall_mem_cons.mp hf
    obtain ⟨next, hnext, h⟩ := except_bind_eq_ok_iff.mp h
    exact ih next hfields (hfirst _ _ _ hd hnext) h

theorem readPlaces_keeps {P : σ → Prop} {fields : List (Field σ)} (hf : ∀ f ∈ fields, f.Keeps P)
    {values : List Tree} {d d' : σ} (hd : P d) (h : readPlaces fields values d = .ok d') :
    P d' :=
  readPlaces_keeps_of_take (fun f hmem => hf f (List.mem_of_mem_take hmem)) hd h

theorem length_le_of_readPlaces {fields : List (Field σ)} {values : List Tree} {d d' : σ}
    (h : readPlaces fields values d = .ok d') : values.length ≤ fields.length := by
  fun_induction readPlaces fields values d with
  | case1 => exact Nat.zero_le _
  | case2 => cases h
  | case3 f fields value rest draft ih =>
    obtain ⟨next, -, h⟩ := except_bind_eq_ok_iff.mp h
    exact Nat.succ_le_succ (ih next h)

/-- A record is finished only in a container that is closed. -/
theorem Shape.finished_iff {shape : Shape σ α} {closed : Bool} {d : σ} {v : α} :
    (if closed then ofOption (shape.finish d) else .error .malformed) = .ok v ↔
      closed ∧ shape.finish d = some v := by
  cases closed <;> simp [ofOption_eq_ok_iff]

theorem Shape.read_object_eq_ok_iff {shape : Shape σ α} {members : List (Option String × Tree)}
    {closed : Bool} {v : α} : shape.read (.object members closed) = .ok v ↔
      ∃ d, readMembers shape.fields shape.unknown [] members shape.start = .ok d ∧
        closed ∧ shape.finish d = some v := by
  simp only [Shape.read, except_bind_eq_ok_iff, Shape.finished_iff]

theorem Shape.read_array_eq_ok_iff {shape : Shape σ α} {items : List Tree} {closed : Bool}
    {v : α} : shape.read (.array items closed) = .ok v ↔
      ∃ d, readPlaces shape.fields items shape.start = .ok d ∧
        closed ∧ shape.finish d = some v := by
  simp only [Shape.read, except_bind_eq_ok_iff, Shape.finished_iff]

/-- What every field keeps holds of the draft that a record is made of. -/
theorem Shape.exists_draft_of_read {P : σ → Prop} {shape : Shape σ α} (hstart : P shape.start)
    (hf : ∀ f ∈ shape.fields, f.Keeps P) {t : Tree} {v : α} (h : shape.read t = .ok v) :
    ∃ d, P d ∧ shape.finish d = some v := by
  cases t with
  | object members closed =>
    obtain ⟨d, hd, -, hfinish⟩ := Shape.read_object_eq_ok_iff.mp h
    exact ⟨d, readMembers_keeps hf hstart hd, hfinish⟩
  | array items closed =>
    obtain ⟨d, hd, -, hfinish⟩ := Shape.read_array_eq_ok_iff.mp h
    exact ⟨d, readPlaces_keeps hf hstart hd, hfinish⟩
  | _ => cases h

/-- A record that is not finished after some of its places fills more of them. -/
theorem Shape.lt_length_of_read_array {P : σ → Prop} {shape : Shape σ α} (hstart : P shape.start)
    {n : Nat} (hf : ∀ f ∈ shape.fields.take n, f.Keeps P)
    (hmissing : ∀ d, P d → shape.finish d = none) {items : List Tree} {closed : Bool} {v : α}
    (h : shape.read (.array items closed) = .ok v) : n < items.length := by
  obtain ⟨d, hd, -, hfinish⟩ := Shape.read_array_eq_ok_iff.mp h
  apply Nat.lt_of_not_le
  intro hfew
  have htake : ∀ f ∈ shape.fields.take items.length, f.Keeps P :=
    fun f hmem => hf f (List.take_subset_take_left _ hfew hmem)
  rw [hmissing d (readPlaces_keeps_of_take htake hstart hd)] at hfinish
  cases hfinish

end FlatSchema.Json
