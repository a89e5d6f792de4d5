import FlatSchema.Catalog.Warehouse
import Mathlib.Data.List.Infix

namespace FlatSchema

/-- A path lies on the way from one path to another below it, past its start. -/
def Path.OnWay (start goal path : Path) : Prop := start <+: path ∧ path ≠ start ∧ path <+: goal

instance (start goal path : Path) : Decidable (Path.OnWay start goal path) :=
  inferInstanceAs (Decidable (_ ∧ _ ∧ _))

namespace Path

theorem not_onWay_self (start path : Path) : ¬OnWay start start path := by
  intro h
  obtain ⟨hs, hne, hp⟩ := h
  exact hne (hp.eq_of_length (Nat.le_antisymm hp.length_le hs.length_le))

/-- A way begins with its first step. -/
theorem onWay_iff {start path rest : Path} {name : String} :
    OnWay start (start ++ name :: rest) path ↔
      path = start ++ [name] ∨ OnWay (start ++ [name]) (start ++ name :: rest) path := by
  have hstart : start <+: start ++ [name] := List.prefix_append _ _
  have hgoal : start ++ [name] <+: start ++ name :: rest := ⟨rest, by simp⟩
  constructor
  · intro h
    obtain ⟨⟨tail, rfl⟩, hne, hp⟩ := h
    obtain ⟨more, hmore⟩ := List.prefix_append_right_inj start |>.mp hp
    cases tail with
    | nil => simp at hne
    | cons first tail =>
      obtain ⟨rfl, -⟩ := List.cons_eq_cons.mp hmore
      cases tail with
      | nil => exact .inl rfl
      | cons second tail => exact .inr ⟨⟨second :: tail, by simp⟩, by simp, hp⟩
  · rintro (rfl | ⟨hs, hne, hp⟩)
    · exact ⟨hstart, by simp, hgoal⟩
    · refine ⟨hstart.trans hs, ?_, hp⟩
      intro h
      obtain rfl := h
      have hl := hs.length_le
      rw [List.length_append, List.length_singleton] at hl
      omega

end Path

namespace Warehouse

variable {w w' : Warehouse}

theorem get?_put? {path : Path} {entry : Entry} (h : w.put? path entry = some w') (other : Path) :
    w'.get? other = if other = path then some entry else w.get? other := by
  unfold put? at h
  split at h
  · cases h
    exact SortedMap.get?_insert w.entries path entry other
  · cases h

/-- A directory is not replaced. -/
theorem ne_directory_of_put? {path : Path} {entry : Entry} (h : w.put? path entry = some w') :
    w.get? path ≠ some .directory := by
  unfold put? at h
  split at h
  · rename_i haccepts
    exact haccepts.2.2.1
  · cases h

theorem exists_put? {path : Path} (h : w.Accepts path) (entry : Entry) :
    ∃ w', w.put? path entry = some w' := by
  rw [put?, dif_pos h]
  exact ⟨_, rfl⟩

theorem get?_remove (w : Warehouse) (path other : Path) :
    (w.remove path).get? other = if path <+: other then none else w.get? other := by
  have hfilter : (w.remove path).get? other = (w.get? other).filter
      (fun _ => !path.isPrefixOf other) := SortedMap.get?_filter _ _ _
  rw [hfilter]
  by_cases h : path <+: other
  · rw [if_pos h, List.isPrefixOf_iff_prefix.mpr h]
    cases w.get? other <;> rfl
  · have hout : path.isPrefixOf other = false := by
      rwa [Bool.eq_false_iff, Ne, List.isPrefixOf_iff_prefix]
    rw [if_neg h, hout]
    cases w.get? other <;> rfl

theorem not_accepts_of_put?_eq_none {path : Path} {entry : Entry}
    (h : w.put? path entry = none) : ¬w.Accepts path := by
  intro haccepts
  obtain ⟨w', hw'⟩ := exists_put? haccepts entry
  rw [h] at hw'
  cases hw'

/-- Making directories stops before the first of them, because a file is there or the tree does not
accept the directory, or goes on below it in a tree in which it is there. -/
theorem makeDirectories_cons (w : Warehouse) (start : Path) (name : String) (rest : Path) :
    w.makeDirectories start (name :: rest) = (false, w) ∧
      ((∃ contents, w.get? (start ++ [name]) = some (.file contents)) ∨
        w.get? (start ++ [name]) = none ∧ ¬w.Accepts (start ++ [name])) ∨
    ∃ v : Warehouse, w.makeDirectories start (name :: rest) =
        v.makeDirectories (start ++ [name]) rest ∧
      (∀ contents, w.get? (start ++ [name]) ≠ some (.file contents)) ∧
      ∀ other, v.get? other =
        if other = start ++ [name] then some .directory else w.get? other := by
  rw [makeDirectories]
  cases hentry : w.get? (start ++ [name]) with
  | none =>
    cases hput : w.put? (start ++ [name]) .directory with
    | none => exact .inl ⟨rfl, .inr ⟨rfl, not_accepts_of_put?_eq_none hput⟩⟩
    | some v => exact .inr ⟨v, rfl, by simp, get?_put? hput⟩
  | some entry =>
    cases entry with
    | file contents => exact .inl ⟨rfl, .inl ⟨contents, rfl⟩⟩
    | directory =>
      refine .inr ⟨w, rfl, by simp, ?_⟩
      intro other
      split
      · rename_i ho
        rw [ho, hentry]
      · rfl

/-- Whatever comes of making directories, only paths on the way can have changed, and only from
nothing into directories. -/
theorem get?_makeDirectories (w : Warehouse) (start names other : Path) :
    (w.makeDirectories start names).2.get? other = w.get? other ∨
      Path.OnWay start (start ++ names) other ∧ w.get? other = none ∧
        (w.makeDirectories start names).2.get? other = some .directory := by
  induction names generalizing w start with
  | nil => exact .inl rfl
  | cons name rest ih =>
    have hway : start ++ name :: rest = start ++ [name] ++ rest := by simp
    rcases w.makeDirectories_cons start name rest with ⟨hstop, _⟩ | ⟨v, hgo, hfree, hv⟩
    · rw [hstop]
      exact .inl rfl
    · rw [hgo]
      have hother := hv other
      rcases ih v (start ++ [name]) with hsame | ⟨hon, hnone, hmade⟩
      · by_cases ho : other = start ++ [name]
        · rw [if_pos ho] at hother
          rw [hsame, hother]
          cases hentry : w.get? other with
          | none => exact .inr ⟨Path.onWay_iff.mpr (.inl ho), rfl, rfl⟩
          | some entry =>
            cases entry with
            | file contents => exact absurd hentry (ho ▸ hfree contents)
            | directory => exact .inl rfl
        · rw [if_neg ho] at hother
          exact .inl (hsame.trans hother)
      · right
        have hne : other ≠ start ++ [name] := hon.2.1
        rw [if_neg hne] at hother
        exact ⟨Path.onWay_iff.mpr (.inr (hway ▸ hon)), hother ▸ hnone, hmade⟩

/-- If all directories could be made, the last one is there. -/
theorem get?_goal_of_makeDirectories {start names : Path}
    (hmade : w.makeDirectories start names = (true, w')) (hnames : names ≠ []) :
    w'.get? (start ++ names) = some .directory := by
  induction names generalizing w start with
  | nil => exact absurd rfl hnames
  | cons name rest ih =>
    rcases w.makeDirectories_cons start name rest with ⟨hstop, _⟩ | ⟨v, hgo, _, hv⟩
    · rw [hstop] at hmade
      cases hmade
    · rw [hgo] at hmade
      cases rest with
      | nil =>
        cases hmade
        rw [hv, if_pos rfl]
      | cons next rest =>
        rw [List.append_cons]
        exact ih hmade (by simp)

/-- If not all directories could be made, the last one was not. -/
theorem get?_goal_of_not_makeDirectories {start names : Path}
    (hfailed : w.makeDirectories start names = (false, w')) :
    w'.get? (start ++ names) = w.get? (start ++ names) := by
  induction names generalizing w start with
  | nil => cases hfailed
  | cons name rest ih =>
    rcases w.makeDirectories_cons start name rest with ⟨hstop, _⟩ | ⟨v, hgo, _, hv⟩
    · rw [hstop] at hfailed
      cases hfailed
      rfl
    · rw [hgo] at hfailed
      cases rest with
      | nil => cases hfailed
      | cons next rest =>
        rw [List.append_cons, ih hfailed, hv, if_neg (by simp)]

/-- What a directory may be made of below another. -/
theorem accepts_append {start : Path} {name : String}
    (hstart : start = [] ∨ w.get? start = some .directory)
    (hfree : w.get? (start ++ [name]) ≠ some .directory)
    (hname : name.utf8ByteSize ≤ maxNameLength) : w.Accepts (start ++ [name]) := by
  refine ⟨by simp, ?_, hfree, ?_⟩
  · rw [List.dropLast_concat]
    exact hstart
  · rw [List.getLast?_concat]
    intro _ hsome
    cases hsome
    exact hname

/-- Where no file stands, the first directory of a way is there or is made. -/
theorem exists_firstDirectory {start : Path} {name : String} (rest : Path)
    (hstart : start = [] ∨ w.get? start = some .directory)
    (hfree : ∀ contents, w.get? (start ++ [name]) ≠ some (.file contents))
    (hname : name.utf8ByteSize ≤ maxNameLength) :
    ∃ v : Warehouse, w.makeDirectories start (name :: rest) =
        v.makeDirectories (start ++ [name]) rest ∧
      ∀ other, v.get? other =
        if other = start ++ [name] then some .directory else w.get? other := by
  rcases w.makeDirectories_cons start name rest with ⟨_, hstopped⟩ | ⟨v, hgo, _, hv⟩
  · rcases hstopped with ⟨contents, hfile⟩ | ⟨hnone, hrefused⟩
    · exact absurd hfile (hfree contents)
    · exact absurd (accepts_append hstart (by simp [hnone]) hname) hrefused
  · exact ⟨v, hgo, hv⟩

/-- Where no file is in the way and no name is too long, all directories on the way are there
afterwards, and nothing else has changed. -/
theorem exists_makeDirectories {start names : Path}
    (hstart : start = [] ∨ w.get? start = some .directory)
    (hfree : ∀ path contents, Path.OnWay start (start ++ names) path →
      w.get? path ≠ some (.file contents))
    (hnames : ∀ name ∈ names, name.utf8ByteSize ≤ maxNameLength) :
    ∃ w', w.makeDirectories start names = (true, w') ∧ ∀ other, w'.get? other =
      if Path.OnWay start (start ++ names) other then some .directory else w.get? other := by
  induction names generalizing w start with
  | nil =>
    refine ⟨w, rfl, fun other => ?_⟩
    rw [if_neg]
    simpa using Path.not_onWay_self start other
  | cons name rest ih =>
    obtain ⟨hname, hrest⟩ := List.forall_mem_cons.mp hnames
    have hway : start ++ name :: rest = start ++ [name] ++ rest := by simp
    have hhere : ∀ contents, w.get? (start ++ [name]) ≠ some (.file contents) :=
      fun contents => hfree _ contents (Path.onWay_iff.mpr (.inl rfl))
    obtain ⟨v, hfirst, hv⟩ := exists_firstDirectory rest hstart hhere hname
    have hparent : v.get? (start ++ [name]) = some .directory := by rw [hv, if_pos rfl]
    have hbelow : ∀ path contents, Path.OnWay (start ++ [name]) (start ++ [name] ++ rest) path →
        v.get? path ≠ some (.file contents) := by
      intro path contents hp
      rw [hv]
      split
      · simp
      · exact hfree path contents (Path.onWay_iff.mpr (.inr (hway ▸ hp)))
    -- What is left of the way starts below a directory, which is all that the induction asks for.
    obtain ⟨w', hmade, hw'⟩ := ih (.inr hparent) hbelow hrest
    refine ⟨w', hfirst.trans hmade, fun other => ?_⟩
    rw [hw', hv, ← hway]
    simp only [Path.onWay_iff]
    by_cases ho : other = start ++ [name] <;> simp [ho]

end Warehouse

end FlatSchema
