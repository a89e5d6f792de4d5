namespace FlatSchema

variable {ε α β : Type}

theorem except_bind_ok (a : α) (f : α → Except ε β) : (Except.ok a >>= f) = f a := rfl

theorem except_bind_eq_ok_iff {x : Except ε α} {f : α → Except ε β} {b : β} :
    x >>= f = .ok b ↔ ∃ a, x = .ok a ∧ f a = .ok b := by
  cases x <;> simp [bind, Except.bind]

theorem except_map_eq_ok_iff {x : Except ε α} {f : α → β} {b : β} :
    x.map f = .ok b ↔ ∃ a, x = .ok a ∧ f a = b := by
  cases x <;> simp [Except.map]

theorem except_map_eq_error_iff {x : Except ε α} {f : α → β} {e : ε} :
    x.map f = .error e ↔ x = .error e := by
  cases x <;> simp [Except.map]

theorem except_isOk_iff {x : Except ε α} : x.isOk ↔ ∃ a, x = .ok a := by
  cases x <;> simp [Except.isOk, Except.toBool]

theorem except_mapError_eq_ok_iff {ε' : Type} {x : Except ε α} {f : ε → ε'} {a : α} :
    x.mapError f = .ok a ↔ x = .ok a := by
  cases x with
  | ok b =>
    constructor
    · intro h
      cases h
      rfl
    · intro h
      cases h
      rfl
  | error e =>
    constructor
    · intro h
      cases h
    · intro h
      cases h

theorem except_mapError_bind {ε' : Type} (x : Except ε α) (f : α → Except ε β) (g : ε → ε') :
    (x >>= f).mapError g = x.mapError g >>= fun a => (f a).mapError g := by
  cases x <;> rfl

theorem except_mapM_map {γ : Type} {f : β → Except ε γ} {g : γ → β} {xs : List γ}
    (h : ∀ x ∈ xs, f (g x) = .ok x) : (xs.map g).mapM f = .ok xs := by
  induction xs with
  | nil => rfl
  | cons x xs ih =>
    obtain ⟨hx, hxs⟩ := List.forall_mem_cons.mp h
    rw [List.map_cons, List.mapM_cons, hx, except_bind_ok, ih hxs]
    rfl

/-- A change that no step minds makes no difference to a walk. -/
theorem except_mapM_map_of_ok {f : α → Except ε β} {g : α → α}
    (hf : ∀ x y, f x = .ok y → f (g x) = .ok y) {xs : List α} {ys : List β}
    (h : xs.mapM f = .ok ys) : (xs.map g).mapM f = .ok ys := by
  induction xs generalizing ys with
  | nil => exact h
  | cons x xs ih =>
    rw [List.mapM_cons] at h
    obtain ⟨y, hy, h⟩ := except_bind_eq_ok_iff.mp h
    obtain ⟨rest, hr, h⟩ := except_bind_eq_ok_iff.mp h
    rw [List.map_cons, List.mapM_cons, hf x y hy, except_bind_ok, ih hr]
    exact h

theorem except_foldlM_eq_ok {f : β → α → Except ε β} {g : β → α → β} {xs : List α}
    (h : ∀ b, ∀ x ∈ xs, f b x = .ok (g b x)) (start : β) :
    xs.foldlM f start = .ok (xs.foldl g start) := by
  induction xs generalizing start with
  | nil => rfl
  | cons x xs ih =>
    rw [List.foldlM_cons, h start x List.mem_cons_self, except_bind_ok]
    exact ih (fun b y hy => h b y (List.mem_cons_of_mem x hy)) (g start x)

/-- What holds of every member that a step passes holds of every member of a fold that succeeds. -/
theorem forall_of_except_foldlM {P : α → Prop} {f : β → α → Except ε β}
    (hf : ∀ b x b', f b x = .ok b' → P x) {xs : List α} {start last : β}
    (h : xs.foldlM f start = .ok last) : ∀ x ∈ xs, P x := by
  induction xs generalizing start with
  | nil => simp
  | cons x xs ih =>
    rw [List.foldlM_cons] at h
    obtain ⟨next, hx, hxs⟩ := except_bind_eq_ok_iff.mp h
    exact List.forall_mem_cons.mpr ⟨hf start x next hx, ih hxs⟩

/-- The first member that no step passes is where a fold fails. -/
theorem except_foldlM_eq_error {f : β → α → Except ε β} {before after : List α} {x : α} {e : ε}
    (hbefore : ∀ b, ∀ y ∈ before, ∃ b', f b y = .ok b') (hx : ∀ b, f b x = .error e) (start : β) :
    (before ++ x :: after).foldlM f start = .error e := by
  induction before generalizing start with
  | nil =>
    rw [List.nil_append, List.foldlM_cons, hx start]
    rfl
  | cons y before ih =>
    obtain ⟨next, hy⟩ := hbefore start y List.mem_cons_self
    rw [List.cons_append, List.foldlM_cons, hy, except_bind_ok]
    exact ih (fun b z hz => hbefore b z (List.mem_cons_of_mem y hz)) next

/-- A walk gives one value for each member, in their order. -/
theorem exists_of_except_mapM {f : α → Except ε β} {xs : List α} {ys : List β}
    (h : xs.mapM f = .ok ys) {i : Nat} {y : β} (hy : ys[i]? = some y) :
    ∃ x, xs[i]? = some x ∧ f x = .ok y := by
  induction xs generalizing ys i with
  | nil =>
    cases h
    cases hy
  | cons x xs ih =>
    rw [List.mapM_cons] at h
    obtain ⟨first, hfirst, h⟩ := except_bind_eq_ok_iff.mp h
    obtain ⟨rest, hrest, h⟩ := except_bind_eq_ok_iff.mp h
    cases h
    cases i with
    | zero =>
      obtain rfl := Option.some.inj hy
      exact ⟨x, rfl, hfirst⟩
    | succ i => exact ih hrest hy

end FlatSchema
