namespace FlatSchema

universe u v

/-- Entries in strictly ascending order of their keys. -/
structure SortedMap (κ : Type u) (ν : Type v) [Ord κ] where
  entries : List (κ × ν)
  ascending : entries.Pairwise (fun a b => compare a.1 b.1 = .lt)
deriving DecidableEq

namespace SortedMap

variable {κ : Type u} {ν : Type v} [Ord κ]

/-- The value at the first entry that bears the key. -/
def find (key : κ) : List (κ × ν) → Option ν
  | [] => none
  | (k, v) :: rest => if compare key k = .eq then some v else find key rest

/-- Replaces the entry with the key, or places a new one before the first larger key. -/
def place (key : κ) (value : ν) : List (κ × ν) → List (κ × ν)
  | [] => [(key, value)]
  | (k, v) :: rest =>
    match compare key k with
    | .lt => (key, value) :: (k, v) :: rest
    | .eq => (key, value) :: rest
    | .gt => (k, v) :: place key value rest

theorem mem_place {key : κ} {value : ν} {entries : List (κ × ν)} {e : κ × ν}
    (h : e ∈ place key value entries) : e = (key, value) ∨ e ∈ entries := by
  fun_induction place key value entries with
  | case1 => exact .inl (List.mem_singleton.mp h)
  | case2 => exact List.mem_cons.mp h
  | case3 => exact (List.mem_cons.mp h).imp id (List.mem_cons_of_mem _)
  | case4 k v rest _ ih =>
    rcases List.mem_cons.mp h with rfl | h
    · exact .inr List.mem_cons_self
    · exact (ih h).imp id (List.mem_cons_of_mem _)

theorem pairwise_place [Std.TransOrd κ] [Std.LawfulEqOrd κ] (key : κ) (value : ν)
    {entries : List (κ × ν)} (h : entries.Pairwise (fun a b => compare a.1 b.1 = .lt)) :
    (place key value entries).Pairwise (fun a b => compare a.1 b.1 = .lt) := by
  fun_induction place key value entries with
  | case1 => exact List.pairwise_singleton _ _
  | case2 k v rest hlt =>
    refine List.pairwise_cons.mpr ⟨fun e he => ?_, h⟩
    rcases List.mem_cons.mp he with rfl | he
    · exact hlt
    · exact Std.TransCmp.lt_trans hlt ((List.pairwise_cons.mp h).1 e he)
  | case3 k v rest heq =>
    obtain ⟨hall, hrest⟩ := List.pairwise_cons.mp h
    cases Std.LawfulEqCmp.eq_of_compare heq
    exact List.pairwise_cons.mpr ⟨hall, hrest⟩
  | case4 k v rest hgt ih =>
    obtain ⟨hall, hrest⟩ := List.pairwise_cons.mp h
    refine List.pairwise_cons.mpr ⟨fun e he => ?_, ih hrest⟩
    rcases mem_place he with rfl | he
    · exact Std.OrientedCmp.lt_of_gt hgt
    · exact hall e he

def empty : SortedMap κ ν := ⟨[], .nil⟩

instance : Inhabited (SortedMap κ ν) := ⟨empty⟩

def get? (m : SortedMap κ ν) (key : κ) : Option ν := find key m.entries

def keys (m : SortedMap κ ν) : List κ := m.entries.map Prod.fst

/-- Stores a value under a key, in place of any earlier one. -/
def insert [Std.TransOrd κ] [Std.LawfulEqOrd κ] (m : SortedMap κ ν) (key : κ) (value : ν) :
    SortedMap κ ν :=
  ⟨place key value m.entries, pairwise_place key value m.ascending⟩

/-- Stores the entries one after another, so the last one of a key stays. -/
def insertMany [Std.TransOrd κ] [Std.LawfulEqOrd κ] (m : SortedMap κ ν)
    (entries : List (κ × ν)) : SortedMap κ ν :=
  entries.foldl (fun m e => m.insert e.1 e.2) m

/-- The map of a list of entries in which the last one of a key stays. -/
def ofList [Std.TransOrd κ] [Std.LawfulEqOrd κ] (entries : List (κ × ν)) : SortedMap κ ν :=
  empty.insertMany entries

/-- The entries of both maps, those of the second in place of those of the first. -/
def union [Std.TransOrd κ] [Std.LawfulEqOrd κ] (m n : SortedMap κ ν) : SortedMap κ ν :=
  m.insertMany n.entries

def filter (keep : κ → ν → Bool) (m : SortedMap κ ν) : SortedMap κ ν :=
  ⟨m.entries.filter (fun e => keep e.1 e.2), m.ascending.filter _⟩

def erase (m : SortedMap κ ν) (key : κ) : SortedMap κ ν :=
  m.filter (fun k _ => compare key k != .eq)

@[simp] theorem get?_empty (key : κ) : (empty : SortedMap κ ν).get? key = none := rfl

theorem find_place [Std.LawfulEqOrd κ] [DecidableEq κ] (key : κ) (value : ν) (entries : List
    (κ × ν)) (k : κ) :
    find k (place key value entries) = if k = key then some value else find k entries := by
  fun_induction place key value entries with
  | case1 => by_cases h : k = key <;> simp [find, h]
  | case2 k' v rest hlt => by_cases h : k = key <;> simp [find, h]
  | case3 k' v rest heq =>
    cases Std.LawfulEqCmp.eq_of_compare heq
    by_cases h : k = key <;> simp [find, h]
  | case4 k' v rest hgt ih =>
    by_cases h : k = key
    · subst h
      simp [find, hgt, ih]
    · simp [find, ih, h]

@[simp] theorem get?_insert [Std.TransOrd κ] [Std.LawfulEqOrd κ] [DecidableEq κ]
    (m : SortedMap κ ν) (key : κ) (value : ν) (k : κ) :
    (m.insert key value).get? k = if k = key then some value else m.get? k :=
  find_place key value m.entries k

theorem ne_of_pairwise_cons [Std.TransOrd κ] {e : κ × ν} {rest : List (κ × ν)}
    (h : (e :: rest).Pairwise (fun a b => compare a.1 b.1 = .lt)) :
    ∀ d ∈ rest, d.1 ≠ e.1 := by
  intro d hd he
  have hlt := (List.pairwise_cons.mp h).1 d hd
  rw [he] at hlt
  simp at hlt

theorem find_eq_some_iff [Std.TransOrd κ] [Std.LawfulEqOrd κ] {entries : List (κ × ν)}
    (h : entries.Pairwise (fun a b => compare a.1 b.1 = .lt)) (key : κ) (value : ν) :
    find key entries = some value ↔ (key, value) ∈ entries := by
  induction entries with
  | nil => simp [find]
  | cons e rest ih =>
    obtain ⟨k, v⟩ := e
    have hne := ne_of_pairwise_cons h
    simp only [find]
    split
    · rename_i hc
      cases Std.LawfulEqCmp.eq_of_compare hc
      constructor
      · intro hv
        cases hv
        exact List.mem_cons_self
      · intro hm
        rcases List.mem_cons.mp hm with hm | hm
        · cases hm
          rfl
        · exact absurd rfl (hne (key, value) hm)
    · rename_i hc
      rw [ih (List.pairwise_cons.mp h).2]
      constructor
      · exact List.mem_cons_of_mem _
      · intro hm
        rcases List.mem_cons.mp hm with hm | hm
        · cases hm
          exact absurd Std.ReflCmp.compare_self hc
        · exact hm

/-- A lookup finds exactly the entries of the map. -/
theorem get?_eq_some_iff [Std.TransOrd κ] [Std.LawfulEqOrd κ] {m : SortedMap κ ν} {key : κ}
    {value : ν} :
    m.get? key = some value ↔ (key, value) ∈ m.entries :=
  find_eq_some_iff m.ascending key value

theorem mem_keys_iff [Std.TransOrd κ] [Std.LawfulEqOrd κ] {m : SortedMap κ ν} {key : κ} :
    key ∈ m.keys ↔ ∃ value, m.get? key = some value := by
  simp only [keys, List.mem_map, get?_eq_some_iff]
  constructor
  · rintro ⟨⟨k, v⟩, hm, rfl⟩
    exact ⟨v, hm⟩
  · rintro ⟨v, hm⟩
    exact ⟨(key, v), hm, rfl⟩

@[simp] theorem get?_filter [Std.TransOrd κ] [Std.LawfulEqOrd κ] (keep : κ → ν → Bool)
    (m : SortedMap κ ν) (key : κ) :
    (m.filter keep).get? key = (m.get? key).filter (keep key) := by
  apply Option.ext
  intro value
  rw [get?_eq_some_iff, Option.filter_eq_some_iff, get?_eq_some_iff]
  simp [filter, List.mem_filter]

/-- A map that is filtered by its keys alone. -/
theorem get?_filter_key [Std.TransOrd κ] [Std.LawfulEqOrd κ] (keep : κ → Bool)
    (m : SortedMap κ ν) (key : κ) :
    (m.filter (fun k _ => keep k)).get? key = if keep key then m.get? key else none := by
  rw [get?_filter]
  by_cases h : keep key <;> cases m.get? key <;> simp [Option.filter, h]

@[simp] theorem get?_erase [Std.TransOrd κ] [Std.LawfulEqOrd κ] [DecidableEq κ]
    (m : SortedMap κ ν) (key k : κ) :
    (m.erase key).get? k = if k = key then none else m.get? k := by
  simp only [erase, get?_filter]
  by_cases h : k = key
  · subst h
    cases m.get? k <;> simp [Option.filter]
  · have hc : compare key k ≠ .eq := fun hc => h (Std.LawfulEqCmp.eq_of_compare hc).symm
    cases m.get? k <;> simp [Option.filter, h, hc]

theorem entries_ext [Std.TransOrd κ] {xs ys : List (κ × ν)}
    (hx : xs.Pairwise (fun a b => compare a.1 b.1 = .lt))
    (hy : ys.Pairwise (fun a b => compare a.1 b.1 = .lt))
    (h : ∀ e, e ∈ xs ↔ e ∈ ys) : xs = ys := by
  induction xs generalizing ys with
  | nil =>
    cases ys with
    | nil => rfl
    | cons y ys => exact absurd ((h y).mpr List.mem_cons_self) (by simp)
  | cons x xs ih =>
    cases ys with
    | nil => exact absurd ((h x).mp List.mem_cons_self) (by simp)
    | cons y ys =>
      obtain ⟨hxa, hxs⟩ := List.pairwise_cons.mp hx
      obtain ⟨hya, hys⟩ := List.pairwise_cons.mp hy
      have hxy : x = y := by
        rcases List.mem_cons.mp ((h x).mp List.mem_cons_self) with he | hxin
        · exact he
        · rcases List.mem_cons.mp ((h y).mpr List.mem_cons_self) with he | hyin
          · exact he.symm
          · have h₁ := hxa y hyin
            rw [Std.OrientedCmp.gt_of_lt (hya x hxin)] at h₁
            cases h₁
      subst hxy
      have hnx : x ∉ xs := fun hm => ne_of_pairwise_cons hx x hm rfl
      have hny : x ∉ ys := fun hm => ne_of_pairwise_cons hy x hm rfl
      rw [ih hxs hys]
      intro e
      constructor
      · intro he
        rcases List.mem_cons.mp ((h e).mp (List.mem_cons_of_mem _ he)) with rfl | hm
        · exact absurd he hnx
        · exact hm
      · intro he
        rcases List.mem_cons.mp ((h e).mpr (List.mem_cons_of_mem _ he)) with rfl | hm
        · exact absurd he hny
        · exact hm

/-- Maps with the same entries are equal. -/
theorem ext_of_get?_eq_some_iff [Std.TransOrd κ] [Std.LawfulEqOrd κ] {m n : SortedMap κ ν}
    (h : ∀ key value, m.get? key = some value ↔ n.get? key = some value) : m = n := by
  obtain ⟨xs, hx⟩ := m
  obtain ⟨ys, hy⟩ := n
  have he : xs = ys := entries_ext hx hy (fun e => by
    rw [← find_eq_some_iff hx, ← find_eq_some_iff hy]
    exact h e.1 e.2)
  subst he
  rfl

/-- Maps with the same lookups are equal. -/
theorem ext_get? [Std.TransOrd κ] [Std.LawfulEqOrd κ] {m n : SortedMap κ ν}
    (h : ∀ key, m.get? key = n.get? key) : m = n :=
  ext_of_get?_eq_some_iff (fun key value => iff_of_eq (congrArg (· = some value) (h key)))

/-- What is not there is erased without a change. -/
theorem erase_of_get?_eq_none [Std.TransOrd κ] [Std.LawfulEqOrd κ] [DecidableEq κ]
    {m : SortedMap κ ν} {key : κ} (h : m.get? key = none) : m.erase key = m := by
  refine ext_get? (fun k => ?_)
  rw [get?_erase]
  split
  · rename_i he
    rw [he, h]
  · rfl

theorem insert_insert_self [Std.TransOrd κ] [Std.LawfulEqOrd κ] [DecidableEq κ]
    (m : SortedMap κ ν) (key : κ) (first second : ν) :
    (m.insert key first).insert key second = m.insert key second := by
  refine ext_get? (fun k => ?_)
  simp only [get?_insert]
  split <;> rfl

theorem insert_insert_of_ne [Std.TransOrd κ] [Std.LawfulEqOrd κ] [DecidableEq κ]
    {m : SortedMap κ ν} {key other : κ} {value value' : ν} (h : other ≠ key) :
    (m.insert key value).insert other value' = (m.insert other value').insert key value := by
  refine ext_get? (fun k => ?_)
  simp only [get?_insert]
  by_cases hother : k = other
  · rw [if_pos hother, if_neg (hother ▸ h), if_pos hother]
  · simp only [if_neg hother]

theorem nodup_keys [Std.TransOrd κ] (m : SortedMap κ ν) : m.keys.Nodup := by
  refine List.pairwise_map.mpr (m.ascending.imp ?_)
  intro a b hlt he
  rw [he] at hlt
  simp at hlt

theorem get?_insertMany_of_not_mem [Std.TransOrd κ] [Std.LawfulEqOrd κ] [DecidableEq κ]
    {entries : List (κ × ν)} {key : κ} (h : key ∉ entries.map Prod.fst) (m : SortedMap κ ν) :
    (m.insertMany entries).get? key = m.get? key := by
  induction entries generalizing m with
  | nil => rfl
  | cons e rest ih =>
    simp only [List.map_cons, List.mem_cons, not_or] at h
    exact (ih h.2 (m.insert e.1 e.2)).trans (by rw [get?_insert, if_neg h.1])

theorem get?_insertMany_of_mem [Std.TransOrd κ] [Std.LawfulEqOrd κ] [DecidableEq κ]
    {entries : List (κ × ν)} {key : κ} {value : ν} (hn : (entries.map Prod.fst).Nodup)
    (h : (key, value) ∈ entries) (m : SortedMap κ ν) :
    (m.insertMany entries).get? key = some value := by
  induction entries generalizing m with
  | nil => cases h
  | cons e rest ih =>
    obtain ⟨he, hrest⟩ := List.nodup_cons.mp hn
    rcases List.mem_cons.mp h with rfl | hm
    · exact (get?_insertMany_of_not_mem he _).trans (by rw [get?_insert, if_pos rfl])
    · exact ih hrest hm _

theorem mem_of_get?_insertMany [Std.TransOrd κ] [Std.LawfulEqOrd κ] [DecidableEq κ]
    {entries : List (κ × ν)} {m : SortedMap κ ν} {key : κ} {value : ν}
    (h : (m.insertMany entries).get? key = some value) :
    (key, value) ∈ entries ∨ m.get? key = some value := by
  induction entries generalizing m with
  | nil => exact .inr h
  | cons e rest ih =>
    rcases ih (m := m.insert e.1 e.2) h with hm | hm
    · exact .inl (List.mem_cons_of_mem _ hm)
    · rw [get?_insert] at hm
      split at hm
      · rename_i he
        cases hm
        exact .inl (he ▸ List.mem_cons_self)
      · exact .inr hm

/-- What is stored first is of no account if its key comes again. -/
theorem insertMany_insert_of_mem [Std.TransOrd κ] [Std.LawfulEqOrd κ] [DecidableEq κ]
    {entries : List (κ × ν)} {key : κ} (h : key ∈ entries.map Prod.fst) (m : SortedMap κ ν)
    (value : ν) : (m.insert key value).insertMany entries = m.insertMany entries := by
  induction entries generalizing m with
  | nil => cases h
  | cons e rest ih =>
    simp only [insertMany, List.foldl_cons] at ih ⊢
    by_cases he : e.1 = key
    · rw [he, insert_insert_self]
    · have hrest : key ∈ rest.map Prod.fst := (List.mem_cons.mp h).resolve_left (Ne.symm he)
      rw [insert_insert_of_ne he, ih hrest]

@[simp] theorem get?_union [Std.TransOrd κ] [Std.LawfulEqOrd κ] [DecidableEq κ]
    (m n : SortedMap κ ν) (key : κ) : (m.union n).get? key = (n.get? key).or (m.get? key) := by
  cases h : n.get? key with
  | none =>
    have hn : key ∉ n.keys := fun hm => by
      obtain ⟨value, hv⟩ := mem_keys_iff.mp hm
      rw [h] at hv
      cases hv
    exact get?_insertMany_of_not_mem hn m
  | some value => exact get?_insertMany_of_mem n.nodup_keys (get?_eq_some_iff.mp h) m

/-- A map is made again of its entries. -/
@[simp] theorem ofList_entries [Std.TransOrd κ] [Std.LawfulEqOrd κ] [DecidableEq κ]
    (m : SortedMap κ ν) : ofList m.entries = m :=
  ext_get? (fun key => (get?_union empty m key).trans (by simp))

end SortedMap

end FlatSchema
