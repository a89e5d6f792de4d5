import FlatSchema.Proofs.Json.Reading

namespace FlatSchema.Json

variable {α σ : Type}

namespace Tree

@[simp] theorem lastMembersAll_eq_map (ts : List Tree) :
    lastMembersAll ts = ts.map lastMembers := by
  induction ts with
  | nil => rfl
  | cons t ts ih => rw [lastMembersAll, ih, List.map_cons]

theorem isClosed_lastMembers (t : Tree) : t.lastMembers.isClosed = t.isClosed := by
  cases t <;> rfl

/-- A member is dropped if its key comes again. -/
theorem lastMembersOf_cons_of_any {key : Option String} {t : Tree}
    {members : List (Option String × Tree)}
    (h : (lastMembersOf members).any (fun m => m.1 == key)) :
    lastMembersOf ((key, t) :: members) = lastMembersOf members := by
  rw [lastMembersOf, if_pos h]

theorem lastMembersOf_cons_of_not_any {key : Option String} {t : Tree}
    {members : List (Option String × Tree)}
    (h : ¬ (lastMembersOf members).any (fun m => m.1 == key)) :
    lastMembersOf ((key, t) :: members) = (key, t.lastMembers) :: lastMembersOf members := by
  rw [lastMembersOf, if_neg h]

end Tree

/-- What is read does not depend on members before the last of a key. -/
def Steady (read : Reader α) : Prop := ∀ t v, read t = .ok v → read t.lastMembers = .ok v

theorem readText_steady : Steady readText := by
  intro t v h
  cases t with
  | text => exact h
  | _ => cases h

theorem readOptional_steady {read : Reader α} (hread : Steady read) :
    Steady (readOptional read) := by
  intro t o h
  cases t with
  | null => exact h
  | _ =>
    obtain ⟨v, hv, rfl⟩ := except_map_eq_ok_iff.mp h
    exact except_map_eq_ok_iff.mpr ⟨v, hread _ v hv, rfl⟩

theorem readList_steady {read : Reader α} (hread : Steady read) : Steady (readList read) := by
  intro t xs h
  cases t with
  | array items closed =>
    obtain ⟨values, hvalues, h⟩ := except_bind_eq_ok_iff.mp h
    rw [Tree.lastMembers, Tree.lastMembersAll_eq_map]
    exact except_bind_eq_ok_iff.mpr ⟨values, except_mapM_map_of_ok hread hvalues, h⟩
  | _ => cases h

/-- Reads an entry of a map. -/
def readEntry (read : Reader α) (m : Option String × Tree) : Except ReadError (String × α) := do
  let key ← ofOption m.1
  let value ← read m.2
  .ok (key, value)

theorem readMap_object (read : Reader α) (members : List (Option String × Tree)) (closed : Bool) :
    readMap read (.object members closed) = (do
      let entries ← members.mapM (readEntry read)
      if closed then .ok (.ofList entries) else .error .malformed) := rfl

theorem readEntry_eq_ok_iff {read : Reader α} {m : Option String × Tree} {e : String × α} :
    readEntry read m = .ok e ↔ m.1 = some e.1 ∧ read m.2 = .ok e.2 := by
  simp only [readEntry, except_bind_eq_ok_iff, ofOption_eq_ok_iff, Except.ok.injEq]
  constructor
  · intro h
    obtain ⟨key, hkey, value, hvalue, rfl⟩ := h
    exact ⟨hkey, hvalue⟩
  · intro h
    exact ⟨e.1, h.1, e.2, h.2, rfl⟩

/-- The keys of members are those of the entries that are read from them. -/
theorem map_fst_of_readEntries {read : Reader α} {members : List (Option String × Tree)}
    {entries : List (String × α)} (h : members.mapM (readEntry read) = .ok entries) :
    members.map Prod.fst = entries.map (fun e => some e.1) := by
  induction members generalizing entries with
  | nil =>
    cases h
    rfl
  | cons m members ih =>
    rw [List.mapM_cons] at h
    obtain ⟨e, he, h⟩ := except_bind_eq_ok_iff.mp h
    obtain ⟨rest, hrest, h⟩ := except_bind_eq_ok_iff.mp h
    cases h
    rw [List.map_cons, List.map_cons, ih hrest, (readEntry_eq_ok_iff.mp he).1]

/-- Without repeated members the entries are others, but make the same map. -/
theorem readEntries_lastMembersOf {read : Reader α} (hread : Steady read)
    {members : List (Option String × Tree)} {entries : List (String × α)}
    (h : members.mapM (readEntry read) = .ok entries) :
    ∃ kept, (Tree.lastMembersOf members).mapM (readEntry read) = .ok kept ∧
      ∀ m : SortedMap String α, m.insertMany kept = m.insertMany entries := by
  induction members generalizing entries with
  | nil =>
    cases h
    exact ⟨[], rfl, fun _ => rfl⟩
  | cons m members ih =>
    obtain ⟨key, t⟩ := m
    rw [List.mapM_cons] at h
    obtain ⟨⟨name, value⟩, he, h⟩ := except_bind_eq_ok_iff.mp h
    obtain ⟨rest, hrest, h⟩ := except_bind_eq_ok_iff.mp h
    cases h
    obtain ⟨rfl, hvalue⟩ := readEntry_eq_ok_iff.mp he
    obtain ⟨kept, hkept, hsame⟩ := ih hrest
    have hinsert : ∀ m : SortedMap String α,
        m.insertMany ((name, value) :: rest) = (m.insert name value).insertMany kept :=
      fun m => (hsame (m.insert name value)).symm
    by_cases hagain : (Tree.lastMembersOf members).any (fun m => m.1 == some name)
    · have hname : name ∈ kept.map Prod.fst := by
        obtain ⟨m, hm, hkey⟩ := List.any_eq_true.mp hagain
        have hmem := List.mem_map_of_mem (f := Prod.fst) hm
        rw [map_fst_of_readEntries hkept, beq_iff_eq.mp hkey] at hmem
        simpa using hmem
      rw [Tree.lastMembersOf_cons_of_any hagain]
      refine ⟨kept, hkept, fun m => ?_⟩
      rw [hinsert, SortedMap.insertMany_insert_of_mem hname]
    · have hentry : readEntry read (some name, t.lastMembers) = .ok (name, value) :=
        readEntry_eq_ok_iff.mpr ⟨rfl, hread t value hvalue⟩
      rw [Tree.lastMembersOf_cons_of_not_any hagain, List.mapM_cons, hentry, except_bind_ok, hkept]
      exact ⟨(name, value) :: kept, rfl, fun m => (hinsert m).symm⟩

theorem readMap_steady {read : Reader α} (hread : Steady read) : Steady (readMap read) := by
  intro t v h
  cases t with
  | object members closed =>
    rw [readMap_object] at h
    obtain ⟨entries, hentries, h⟩ := except_bind_eq_ok_iff.mp h
    obtain ⟨kept, hkept, hsame⟩ := readEntries_lastMembersOf hread hentries
    rw [Tree.lastMembers, readMap_object, hkept, except_bind_ok, ← h, SortedMap.ofList, hsame]
    rfl
  | _ => cases h

/-- What a field adds to a draft does not depend on members before the last of a key. -/
def Field.Steady (f : Field σ) : Prop :=
  ∀ t d d', f.read t d = .ok d' → f.read t.lastMembers d = .ok d'

theorem field_steady {name : String} {read : Reader α} {set : α → σ → σ} (hread : Steady read) :
    (field name read set).Steady := by
  intro t d d' h
  obtain ⟨v, hv, rfl⟩ := except_map_eq_ok_iff.mp h
  exact except_map_eq_ok_iff.mpr ⟨v, hread t v hv, rfl⟩

variable {fields : List (Field σ)} {unknown : Unknown} {seen : List String} {d d' : σ}

/-- A field that was seen does not come again. -/
theorem not_mem_of_readMembers {members : List (Option String × Tree)} {f : Field σ} {key : String}
    (hfind : fields.find? (fun f => f.name == key) = some f) (hseen : key ∈ seen)
    (h : readMembers fields unknown seen members d = .ok d') :
    ∀ m ∈ members, m.1 ≠ some key := by
  fun_induction readMembers fields unknown seen members d with
  | case1 => simp
  | case2 => cases h
  | case3 => cases h
  | case4 seen other value rest draft g hother hfresh ih =>
    obtain ⟨next, -, h⟩ := except_bind_eq_ok_iff.mp h
    refine List.forall_mem_cons.mpr ⟨?_, ih next (List.mem_cons_of_mem other hseen) h⟩
    rintro ⟨⟩
    exact hfresh hseen
  | case5 seen other value rest draft hother hignored ih =>
    refine List.forall_mem_cons.mpr ⟨?_, ih hseen h⟩
    rintro ⟨⟩
    rw [hother] at hfind
    cases hfind
  | case6 => cases h

theorem readMembers_lastMembersOf (hf : ∀ f ∈ fields, f.Steady)
    {members : List (Option String × Tree)}
    (h : readMembers fields unknown seen members d = .ok d') :
    readMembers fields unknown seen (Tree.lastMembersOf members) d = .ok d' := by
  fun_induction readMembers fields unknown seen members d with
  | case1 => exact h
  | case2 => cases h
  | case3 => cases h
  | case4 seen key value rest draft f hfind hfresh ih =>
    obtain ⟨next, hnext, h⟩ := except_bind_eq_ok_iff.mp h
    have hrest := ih next h
    -- The rest has been read with this key seen, so the member is the last of its key.
    have hlast : ¬ (Tree.lastMembersOf rest).any (fun m => m.1 == some key) := by
      intro hagain
      obtain ⟨m, hm, hkey⟩ := List.any_eq_true.mp hagain
      exact not_mem_of_readMembers hfind List.mem_cons_self hrest m hm (beq_iff_eq.mp hkey)
    have hvalue := hf f (List.mem_of_find?_eq_some hfind) value draft next hnext
    rw [Tree.lastMembersOf_cons_of_not_any hlast, readMembers]
    simp only [hfind, if_neg hfresh, hvalue, except_bind_ok]
    exact hrest
  | case5 seen key value rest draft hfind hignored ih =>
    have hrest := ih h
    by_cases hagain : (Tree.lastMembersOf rest).any (fun m => m.1 == some key)
    · rw [Tree.lastMembersOf_cons_of_any hagain]
      exact hrest
    · rw [Tree.lastMembersOf_cons_of_not_any hagain, readMembers]
      simp only [hfind, Tree.isClosed_lastMembers, if_pos hignored]
      exact hrest
  | case6 => cases h

theorem readPlaces_lastMembers (hf : ∀ f ∈ fields, f.Steady) {values : List Tree}
    (h : readPlaces fields values d = .ok d') :
    readPlaces fields (values.map Tree.lastMembers) d = .ok d' := by
  fun_induction readPlaces fields values d with
  | case1 =>
    rw [List.map_nil, readPlaces]
    exact h
  | case2 => cases h
  | case3 f fields value rest draft ih =>
    obtain ⟨hfirst, hfields⟩ := List.forall_mem_cons.mp hf
    obtain ⟨next, hnext, h⟩ := except_bind_eq_ok_iff.mp h
    rw [List.map_cons, readPlaces, hfirst value draft next hnext, except_bind_ok]
    exact ih next hfields h

theorem Shape.steady {shape : Shape σ α} (hf : ∀ f ∈ shape.fields, f.Steady) :
    Steady shape.read := by
  intro t v h
  cases t with
  | object members closed =>
    obtain ⟨d, hd, h⟩ := except_bind_eq_ok_iff.mp h
    exact except_bind_eq_ok_iff.mpr ⟨d, readMembers_lastMembersOf hf hd, h⟩
  | array items closed =>
    obtain ⟨d, hd, h⟩ := except_bind_eq_ok_iff.mp h
    rw [Tree.lastMembers, Tree.lastMembersAll_eq_map]
    exact except_bind_eq_ok_iff.mpr ⟨d, readPlaces_lastMembers hf hd, h⟩
  | _ => cases h

end FlatSchema.Json
