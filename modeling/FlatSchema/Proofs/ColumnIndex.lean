import FlatSchema.Proofs.Keys
import FlatSchema.Proofs.Pattern

namespace FlatSchema

open Text

/-- Digits that a number is written with. None of them is a zero in front of others. -/
structure IndexDigits (digits : List Char) : Prop where
  nonempty : digits ≠ []
  digit : ∀ c ∈ digits, c.isDigit
  unpadded : digits.head? = some '0' → digits = ['0']

theorem exists_digitChar {c : Char} (h : c.isDigit) : ∃ d < 10, c = Nat.digitChar d := by
  obtain ⟨hlow, hhigh⟩ : 48 ≤ c.toNat ∧ c.toNat ≤ 57 := Char.isDigit_iff_toNat.mp h
  have hsmall : c.toNat - 48 < 10 := by omega
  refine ⟨c.toNat - 48, hsmall, Char.toNat_inj.mp ?_⟩
  rw [Nat.toNat_digitChar_of_lt_ten hsmall]
  omega

/-- Digits behind those of a number are read as they stand, unless that number is zero. -/
theorem toDigits_ofDigitChars_append {digits : List Char} (hdigits : ∀ c ∈ digits, c.isDigit)
    {n : Nat} (hn : 0 < n) :
    Nat.toDigits 10 (Nat.ofDigitChars 10 digits n) = Nat.toDigits 10 n ++ digits := by
  induction digits generalizing n with
  | nil => rw [Nat.ofDigitChars_nil, List.append_nil]
  | cons c rest ih =>
    obtain ⟨hc, hrest⟩ := List.forall_mem_cons.mp hdigits
    obtain ⟨d, hd, rfl⟩ := exists_digitChar hc
    have hfirst : Nat.toDigits 10 (10 * n + d) = Nat.toDigits 10 n ++ [Nat.digitChar d] := by
      rw [← Nat.toDigits_append_toDigits (by decide) hn hd, Nat.toDigits_of_lt_base hd]
    rw [Nat.ofDigitChars_cons_digitChar_of_lt_ten hd, ih hrest (by omega), hfirst,
      List.append_assoc, List.singleton_append]

/-- The number that such digits read as is written with them. -/
theorem toDigits_ofDigitChars {digits : List Char} (h : IndexDigits digits) :
    Nat.toDigits 10 (Nat.ofDigitChars 10 digits 0) = digits := by
  cases digits with
  | nil => exact absurd rfl h.nonempty
  | cons c rest =>
    obtain ⟨hc, hrest⟩ := List.forall_mem_cons.mp h.digit
    obtain ⟨d, hd, rfl⟩ := exists_digitChar hc
    rw [Nat.ofDigitChars_cons_digitChar_of_lt_ten hd, Nat.mul_zero, Nat.zero_add]
    by_cases hzero : d = 0
    · obtain rfl := hzero
      obtain ⟨-, rfl⟩ := List.cons_eq_cons.mp (h.unpadded rfl)
      rfl
    · rw [toDigits_ofDigitChars_append hrest (Nat.pos_of_ne_zero hzero),
        Nat.toDigits_of_lt_base hd, List.singleton_append]

theorem eq_singleton_of_head?_toDigits {n : Nat} (h : (Nat.toDigits 10 n).head? = some '0') :
    Nat.toDigits 10 n = ['0'] := by
  induction n using Nat.strongRecOn with
  | ind n ih =>
    by_cases hlarge : 10 ≤ n
    · rw [Nat.toDigits_of_base_le (by decide) hlarge,
        List.head?_append_of_ne_nil _ Nat.toDigits_ne_nil] at h
      have hvalue : Nat.ofDigitChars 10 (Nat.toDigits 10 (n / 10)) 0 = 0 := by
        rw [ih (n / 10) (by omega) h]
        rfl
      rw [Nat.ofDigitChars_ten_toDigits] at hvalue
      omega
    · rw [Nat.toDigits_of_lt_base (by omega)] at h ⊢
      simpa using h

theorem indexDigits_toDigits (n : Nat) : IndexDigits (Nat.toDigits 10 n) where
  nonempty := Nat.toDigits_ne_nil
  digit := fun _ hc => Nat.isDigit_of_mem_toDigits (by decide) (by decide) hc
  unpadded := eq_singleton_of_head?_toDigits

theorem toDigits_eq_iff {n : Nat} {digits : List Char} :
    Nat.toDigits 10 n = digits ↔ IndexDigits digits ∧ n = Nat.ofDigitChars 10 digits 0 := by
  constructor
  · intro h
    obtain rfl := h
    exact ⟨indexDigits_toDigits n, Nat.ofDigitChars_ten_toDigits.symm⟩
  · intro h
    obtain ⟨hdigits, rfl⟩ := h
    exact toDigits_ofDigitChars hdigits

/-- The shape of the keys of columns' names. -/
def columnNamePattern : Pattern :=
  .followed .start (.followed (.literal "schema.") (.followed (.repeated (.among '0' '9'))
    (.followed (.literal ".name") .finish)))

theorem isDigit_iff_among {c : Char} : c.isDigit ↔ '0' ≤ c ∧ c ≤ '9' := Char.isDigit_iff_toNat

/-- The pattern leaves nothing in front of a key and nothing behind it. -/
theorem found_columnNamePattern_iff {key : String} :
    columnNamePattern.Found key ↔ NamesColumn key := by
  constructor
  · intro h
    obtain ⟨before, cs, after, hkey, hmatches⟩ := h
    -- Each part of the pattern tells its share of the text, the two ends that theirs is empty.
    cases hmatches with
    | followed hstart hrest =>
      cases hstart
      cases hrest with
      | followed hschema hrest =>
        cases hschema
        cases hrest with
        | followed hdigits hrest =>
          cases hrest with
          | followed hname hfinish =>
            cases hname
            cases hfinish
            obtain ⟨hne, hrange⟩ := Pattern.matches_repeated_among_iff.mp hdigits
            exact ⟨_, hne, fun c hc => isDigit_iff_among.mpr (hrange c hc), by simpa using hkey⟩
  · intro h
    obtain ⟨digits, hne, hdigits, hkey⟩ := h
    have hrange : ∀ c ∈ digits, '0' ≤ c ∧ c ≤ '9' :=
      fun c hc => isDigit_iff_among.mp (hdigits c hc)
    have hmatches : columnNamePattern.Matches []
        ([] ++ ("schema.".toList ++ (digits ++ (".name".toList ++ [])))) [] :=
      .followed .start (.followed .literal
        (.followed (Pattern.matches_repeated_among_iff.mpr ⟨hne, hrange⟩)
          (.followed .literal .finish)))
    exact ⟨[], _, [], by simp [hkey], hmatches⟩

theorem columnKey_name_eq_iff {key : String} {digits : List Char}
    (hkey : key.toList = "schema.".toList ++ (digits ++ ".name".toList)) (i : Nat) :
    columnKey i .name = key ↔ IndexDigits digits ∧ i = Nat.ofDigitChars 10 digits 0 := by
  have hcolumn : (columnKey i .name).toList =
      "schema.".toList ++ (Nat.toDigits 10 i ++ ".name".toList) := toList_columnKey i .name
  rw [← toDigits_eq_iff, ← String.toList_inj, hcolumn, hkey, List.append_cancel_left_eq,
    List.append_cancel_right_eq]

/-- The pattern of the keys of columns' names is found in those keys alone, and just those count as
such. A key tells an index if its digits have no zero in front of others and fit into a word, and
this index is then the number that they read as and the only one. -/
theorem columnNameKeys_tell_index (key : String) :
    (isColumnNameKey key ↔ columnNamePattern.Found key) ∧
    (isColumnNameKey key ↔ NamesColumn key) ∧
    ∀ digits : List Char, digits ≠ [] → (∀ c ∈ digits, c.isDigit) →
      key.toList = "schema.".toList ++ (digits ++ ".name".toList) →
      ((∃ i : UInt64, columnKey i.toNat .name = key) ↔
        (digits.head? = some '0' → digits = ['0']) ∧
          Nat.ofDigitChars 10 digits 0 < UInt64.size) ∧
      ∀ i : UInt64, columnKey i.toNat .name = key →
        i.toNat = Nat.ofDigitChars 10 digits 0 ∧
          ∀ j : UInt64, columnKey j.toNat .name = key → j = i := by
  refine ⟨?_, isColumnNameKey_iff_namesColumn, ?_⟩
  · rw [isColumnNameKey_iff_namesColumn, found_columnNamePattern_iff]
  · intro digits hne hdigits hkey
    have htells := fun i : UInt64 => columnKey_name_eq_iff hkey i.toNat
    refine ⟨?_, ?_⟩
    · constructor
      · intro h
        obtain ⟨i, hi⟩ := h
        obtain ⟨hwritten, hvalue⟩ := (htells i).mp hi
        exact ⟨hwritten.unpadded, hvalue ▸ i.toNat_lt_size⟩
      · intro h
        obtain ⟨hunpadded, hfits⟩ := h
        refine ⟨UInt64.ofNatLT _ hfits, (htells _).mpr ⟨⟨hne, hdigits, hunpadded⟩, ?_⟩⟩
        exact UInt64.toNat_ofNatLT
    · intro i hi
      have hvalue := ((htells i).mp hi).2
      refine ⟨hvalue, ?_⟩
      intro j hj
      exact UInt64.toNat_inj.mp (((htells j).mp hj).2.trans hvalue.symm)

theorem columnNameKeys_tell_index_limits :
    (∃ i : UInt64, columnKey i.toNat .name = "schema.18446744073709551615.name") ∧
    (isColumnNameKey "schema.18446744073709551616.name" ∧
      ¬∃ i : UInt64, columnKey i.toNat .name = "schema.18446744073709551616.name") ∧
    (isColumnNameKey "schema.00.name" ∧
      ¬∃ i : UInt64, columnKey i.toNat .name = "schema.00.name") ∧
    ¬columnNamePattern.Found "schema.7.name\n" ∧ ¬columnNamePattern.Found "schema.١.name" := by
  have hlargest := ((columnNameKeys_tell_index "schema.18446744073709551615.name").2.2
    "18446744073709551615".toList (by simp) (by simp) rfl).1
  have hbeyond := ((columnNameKeys_tell_index "schema.18446744073709551616.name").2.2
    "18446744073709551616".toList (by simp) (by simp) rfl).1
  have hpadded := ((columnNameKeys_tell_index "schema.00.name").2.2 ['0', '0'] (by simp)
    (by simp) rfl).1
  refine ⟨hlargest.mpr ⟨by simp, by decide +kernel⟩, ⟨by decide +kernel, ?_⟩,
    ⟨by decide +kernel, ?_⟩, ?_, ?_⟩
  · rw [hbeyond]
    decide +kernel
  · rw [hpadded]
    simp
  · rw [← (columnNameKeys_tell_index "schema.7.name\n").1]
    decide +kernel
  · rw [← (columnNameKeys_tell_index "schema.١.name").1]
    decide +kernel

end FlatSchema
