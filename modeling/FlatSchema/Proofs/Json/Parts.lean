import FlatSchema.Proofs.Json.Reading
import Mathlib.Data.List.Nodup

namespace FlatSchema.Json

variable {α β σ : Type}

/-- The part of a document for a field: the member of its name, or the item at its place. -/
def Tree.part? (name : String) (place : Nat) : Tree → Option Tree
  | .object members _ => (members.find? (fun m => m.1 == some name)).map Prod.snd
  | .array items _ => items[place]?
  | _ => none

/-- What a part is read as, if it is there. -/
def readPart (read : Reader β) (missing : β) : Option Tree → Except ReadError β
  | some t => read t
  | none => .ok missing

/-- A part that must be there has been read if there is a value of it. -/
theorem readPart_eq_ok_some_iff {read : Reader α} {part : Option Tree} {v : α} :
    readPart (fun t => (read t).map some) none part = .ok (some v) ↔
      ∃ t, part = some t ∧ read t = .ok v := by
  cases part with
  | none => simp [readPart]
  | some t => simp [readPart, except_map_eq_ok_iff]

/-- A field sets a component of a draft to what its value is read as. -/
def Field.Sets (read : Reader β) (get : σ → β) (f : Field σ) : Prop :=
  ∀ t d d', f.read t d = .ok d' → read t = .ok (get d')

theorem sets_field {name : String} {read : Reader β} {set : β → σ → σ} {get : σ → β}
    (h : ∀ v d, get (set v d) = v) : (field name read set).Sets read get := by
  intro t d d' ht
  obtain ⟨v, hv, rfl⟩ := except_map_eq_ok_iff.mp ht
  rw [hv, h]

/-- A component that is missing until its field has been read. -/
theorem sets_field_some {name : String} {read : Reader α} {set : α → σ → σ} {get : σ → Option α}
    (h : ∀ v d, get (set v d) = some v) :
    (field name read set).Sets (fun t => (read t).map some) get := by
  intro t d d' ht
  obtain ⟨v, hv, rfl⟩ := except_map_eq_ok_iff.mp ht
  exact except_map_eq_ok_iff.mpr ⟨v, hv, (h v d).symm⟩

theorem keeps_component {name : String} {read : Reader α} {set : α → σ → σ} {get : σ → β}
    (h : ∀ v d, get (set v d) = get d) (b : β) : (field name read set).Keeps (get · = b) :=
  keeps_field fun _ v _ d hd => (h v d).trans hd

/-- Fields of other names leave a component as it is. -/
def OnlySetBy (name : String) (get : σ → β) (fields : List (Field σ)) : Prop :=
  ∀ f ∈ fields, f.name = name ∨ ∀ b, f.Keeps (get · = b)

/-- A field that has been read is not read again. -/
theorem component_eq_of_seen {fields : List (Field σ)} {unknown : Unknown} {name : String}
    {get : σ → β} (honly : OnlySetBy name get fields) {seen : List String}
    {members : List (Option String × Tree)} {d d' : σ} (hseen : name ∈ seen)
    (h : readMembers fields unknown seen members d = .ok d') : get d' = get d := by
  fun_induction readMembers fields unknown seen members d with
  | case1 =>
    cases h
    rfl
  | case2 => cases h
  | case3 => cases h
  | case4 seen key value rest draft f hfind hkey ih =>
    obtain ⟨next, hnext, h⟩ := except_bind_eq_ok_iff.mp h
    have hname : f.name = key := by simpa using List.find?_some hfind
    have hother : f.name ≠ name := by
      intro he
      rw [← hname, he] at hkey
      exact hkey hseen
    have hkept := (honly f (List.mem_of_find?_eq_some hfind)).resolve_left hother
    rw [ih next (List.mem_cons_of_mem key hseen) h]
    exact hkept _ _ _ _ rfl hnext
  | case5 seen key value rest draft hfind hignored ih => exact ih hseen h
  | case6 => cases h

/-- Wherever the member of a field stands, it is what the field's component is read from. -/
theorem component_eq_of_readMembers {fields : List (Field σ)} {unknown : Unknown} {f : Field σ}
    {read : Reader β} {get : σ → β} (hnodup : (fields.map Field.name).Nodup) (hf : f ∈ fields)
    (hsets : f.Sets read get) (honly : OnlySetBy f.name get fields) {seen : List String}
    {members : List (Option String × Tree)} {d d' : σ} (hunseen : f.name ∉ seen)
    (h : readMembers fields unknown seen members d = .ok d') :
    readPart read (get d) ((members.find? (fun m => m.1 == some f.name)).map Prod.snd) =
      .ok (get d') := by
  -- Members of other names change nothing, and after the first of this name none comes again.
  fun_induction readMembers fields unknown seen members d with
  | case1 =>
    cases h
    rfl
  | case2 => cases h
  | case3 => cases h
  | case4 seen key value rest draft g hg hkey ih =>
    obtain ⟨next, hnext, hrest⟩ := except_bind_eq_ok_iff.mp h
    have hmem : g ∈ fields := List.mem_of_find?_eq_some hg
    obtain rfl : g.name = key := by simpa using List.find?_some hg
    by_cases hhere : g.name = f.name
    · obtain rfl : g = f := List.inj_on_of_nodup_map hnodup hmem hf hhere
      have hkept : get d' = get next := component_eq_of_seen honly List.mem_cons_self hrest
      rw [List.find?_cons_of_pos (by simp), Option.map_some, readPart, hsets _ _ _ hnext, hkept]
    · have hkept : get next = get draft := (honly g hmem).resolve_left hhere _ _ _ _ rfl hnext
      have hstill : f.name ∉ g.name :: seen := by simp [Ne.symm hhere, hunseen]
      rw [List.find?_cons_of_neg (by simpa using hhere), ← hkept]
      exact ih next hstill hrest
  | case5 seen key value rest draft hnone hignored ih =>
    have hhere : key ≠ f.name := by
      intro he
      exact List.find?_eq_none.mp hnone f hf (beq_iff_eq.mpr he.symm)
    rw [List.find?_cons_of_neg (by simpa using hhere)]
    exact ih hunseen h
  | case6 => cases h

/-- The item at a field's place is what the field's component is read from. -/
theorem component_eq_of_readPlaces {fields : List (Field σ)} {f : Field σ} {read : Reader β}
    {get : σ → β} (hnodup : (fields.map Field.name).Nodup) (hsets : f.Sets read get)
    (honly : OnlySetBy f.name get fields) {place : Nat} (hplace : fields[place]? = some f)
    {items : List Tree} {d d' : σ} (h : readPlaces fields items d = .ok d') :
    readPart read (get d) items[place]? = .ok (get d') := by
  fun_induction readPlaces fields items d generalizing place with
  | case1 =>
    cases h
    rfl
  | case2 => cases h
  | case3 g fields value rest draft ih =>
    obtain ⟨next, hnext, h⟩ := except_bind_eq_ok_iff.mp h
    obtain ⟨hnew, hnodup⟩ := List.nodup_cons.mp hnodup
    obtain ⟨hfirst, honly⟩ := List.forall_mem_cons.mp honly
    cases place with
    | zero =>
      obtain rfl : g = f := Option.some.inj hplace
      have hothers : ∀ f ∈ fields, f.Keeps (get · = get next) := by
        intro f hf
        exact (honly f hf).resolve_left (fun he => hnew (he ▸ List.mem_map_of_mem hf)) _
      rw [List.getElem?_cons_zero, readPart, hsets _ _ _ hnext, readPlaces_keeps hothers rfl h]
    | succ place =>
      rw [List.getElem?_cons_succ] at hplace ⊢
      have hlater : f.name ∈ fields.map Field.name :=
        List.mem_map_of_mem (List.mem_of_getElem? hplace)
      have hkept : get next = get draft :=
        hfirst.resolve_left (fun he => hnew (he ▸ hlater)) _ _ _ _ rfl hnext
      rw [← hkept]
      exact ih next hnodup honly hplace h

/-- What is read of a record before it is finished. -/
def Shape.draft (shape : Shape σ α) : Tree → Except ReadError σ
  | .object members _ => readMembers shape.fields shape.unknown [] members shape.start
  | .array items _ => readPlaces shape.fields items shape.start
  | _ => .error .malformed

theorem Shape.exists_draft {shape : Shape σ α} {t : Tree} {v : α} (h : shape.read t = .ok v) :
    ∃ d, shape.draft t = .ok d ∧ shape.finish d = some v := by
  cases t with
  | object members closed =>
    obtain ⟨d, hd, -, hfinish⟩ := Shape.read_object_eq_ok_iff.mp h
    exact ⟨d, hd, hfinish⟩
  | array items closed =>
    obtain ⟨d, hd, -, hfinish⟩ := Shape.read_array_eq_ok_iff.mp h
    exact ⟨d, hd, hfinish⟩
  | _ => cases h

/-- A component of a record's draft that belongs to the field with a name and a place. -/
structure Shape.Component (shape : Shape σ α) (name : String) (place : Nat) (read : Reader β)
    (get : σ → β) : Prop where
  nodup : (shape.fields.map Field.name).Nodup
  here : ∃ f, shape.fields[place]? = some f ∧ f.name = name ∧ f.Sets read get
  others : OnlySetBy name get shape.fields

/-- A component is what its part of the document is read as. -/
theorem Shape.Component.eq_of_draft {shape : Shape σ α} {name : String} {place : Nat}
    {read : Reader β} {get : σ → β} (hc : shape.Component name place read get) {t : Tree} {d : σ}
    (h : shape.draft t = .ok d) :
    readPart read (get shape.start) (t.part? name place) = .ok (get d) := by
  obtain ⟨f, hplace, rfl, hsets⟩ := hc.here
  cases t with
  | object members closed =>
    have hf : f ∈ shape.fields := List.mem_of_getElem? hplace
    exact component_eq_of_readMembers hc.nodup hf hsets hc.others List.not_mem_nil h
  | array items closed => exact component_eq_of_readPlaces hc.nodup hsets hc.others hplace h
  | _ => cases h

end FlatSchema.Json
