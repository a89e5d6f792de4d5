namespace FlatSchema.Text

/-- The bytes of a text in a file or in the name of one. -/
def bytes (text : String) : List UInt8 := text.toUTF8.data.toList

theorem bytes_eq (text : String) : bytes text = text.toList.flatMap String.utf8EncodeChar := by
  rw [bytes, String.toUTF8_eq_toByteArray, ← String.utf8Encode_toList, List.utf8Encode,
    List.toList_data_toByteArray]

/-- The last digits of a number to the base 64, as bytes that follow another. -/
def trailing : Nat → Nat → List UInt8
  | 0, _ => []
  | count + 1, n => trailing count (n / 64) ++ [UInt8.ofNat (n % 64 + 128)]

/-- What is left of a number without its last digits. -/
def leading : Nat → Nat → Nat
  | 0, n => n
  | count + 1, n => leading count (n / 64)

/-- How many bytes follow the first byte of a character, and the least such first byte. -/
def shape (n : Nat) : Nat × Nat :=
  if n ≤ 0x7f then (0, 0)
  else if n ≤ 0x7ff then (1, 0xc0)
  else if n ≤ 0xffff then (2, 0xe0)
  else (3, 0xf0)

/-- The first byte of a character. -/
def first (n : Nat) : Nat := leading (shape n).1 n + (shape n).2

theorem toNat_lt (c : Char) : c.val.toNat < 0x110000 := by
  have hvalid := c.valid
  simp only [UInt32.isValidChar, Nat.isValidChar] at hvalid
  omega

theorem first_eq (n : Nat) : first n =
    if n ≤ 0x7f then n
    else if n ≤ 0x7ff then n / 64 + 0xc0
    else if n ≤ 0xffff then n / 4096 + 0xe0
    else n / 262144 + 0xf0 := by
  unfold first shape
  (repeat' split) <;> simp [leading, Nat.div_div_eq_div_mul]

theorem first_lt {n : Nat} (h : n < 0x110000) : first n < 256 := by
  rw [first_eq]
  (repeat' split) <;> omega

/-- More bytes follow a larger first byte. -/
theorem first_lt_or_shape_eq {m n : Nat} (h : m < n) : first m < first n ∨ shape m = shape n := by
  rw [first_eq, first_eq]
  unfold shape
  (repeat' split) <;> first | exact .inr rfl | omega

/-- The bytes of a character. -/
theorem encoded_eq (c : Char) : String.utf8EncodeChar c =
    UInt8.ofNat (first c.val.toNat) :: trailing (shape c.val.toNat).1 c.val.toNat := by
  have hc := toNat_lt c
  rw [first_eq]
  unfold String.utf8EncodeChar shape
  generalize c.val.toNat = n at *
  dsimp only
  by_cases hone : n ≤ 0x7f
  · simp only [if_pos hone, trailing]
  by_cases htwo : n ≤ 0x7ff
  · simp only [if_neg hone, if_pos htwo, trailing, List.nil_append]
    rw [Nat.mod_eq_of_lt (by omega : n / 64 < 32)]
  by_cases hthree : n ≤ 0xffff
  · simp only [if_neg hone, if_neg htwo, if_pos hthree, trailing, List.nil_append,
      List.cons_append]
    rw [Nat.mod_eq_of_lt (by omega : n / 4096 < 16)]
  · simp only [if_neg hone, if_neg htwo, if_neg hthree, trailing, List.nil_append,
      List.cons_append, Nat.div_div_eq_div_mul]
    rw [Nat.mod_eq_of_lt (by omega : n / 262144 < 8)]

/-- A larger number is larger in its last digit, if it is not larger before it. -/
theorem digit_lt {m n : Nat} (h : m < n) :
    m / 64 < n / 64 ∨ m / 64 = n / 64 ∧ m % 64 < n % 64 := by
  omega

theorem byte_lt {m n : Nat} (h : m < n) (hn : n < 256) : UInt8.ofNat m < UInt8.ofNat n := by
  rw [UInt8.lt_iff_toNat_lt, UInt8.toNat_ofNat', UInt8.toNat_ofNat']
  omega

/-- Numbers with as many digits compare by their digits. -/
theorem digits_lt {count least m n : Nat} (h : m < n) (hn : leading count n + least < 256)
    (xs ys : List UInt8) :
    UInt8.ofNat (leading count m + least) :: (trailing count m ++ xs) <
      UInt8.ofNat (leading count n + least) :: (trailing count n ++ ys) := by
  induction count generalizing m n xs ys with
  | zero =>
    simp only [leading] at hn ⊢
    exact List.cons_lt_cons_iff.mpr (.inl (byte_lt (by omega) hn))
  | succ count ih =>
    simp only [trailing, leading, List.append_assoc] at hn ⊢
    rcases digit_lt h with hbefore | ⟨hsame, hlast⟩
    · exact ih hbefore hn _ _
    · rw [hsame, ← List.cons_append, ← List.cons_append]
      apply List.append_left_lt
      exact List.cons_lt_cons_iff.mpr (.inl (byte_lt (by omega) (by omega)))

/-- The bytes of a larger character are larger, whatever follows them. -/
theorem encoded_lt {c d : Char} (h : c < d) (xs ys : List UInt8) :
    String.utf8EncodeChar c ++ xs < String.utf8EncodeChar d ++ ys := by
  have hlt : c.val.toNat < d.val.toNat := h
  have hbyte := first_lt (toNat_lt d)
  rw [encoded_eq, encoded_eq, List.cons_append, List.cons_append]
  rcases first_lt_or_shape_eq hlt with hfirst | hshape
  · exact List.cons_lt_cons_iff.mpr (.inl (byte_lt hfirst hbyte))
  · rw [first] at hbyte
    rw [first, first, hshape]
    exact digits_lt hlt hbyte xs ys

theorem encoded_nil_lt (c : Char) (xs : List UInt8) : [] < String.utf8EncodeChar c ++ xs := by
  rw [encoded_eq]
  exact List.nil_lt_cons _ _

theorem flatMap_lt {cs ds : List Char} (h : cs < ds) :
    cs.flatMap String.utf8EncodeChar < ds.flatMap String.utf8EncodeChar := by
  induction h with
  | nil => exact encoded_nil_lt _ _
  | rel h => exact encoded_lt h _ _
  | cons _ ih => exact List.append_left_lt ih

theorem bytes_lt_iff {a b : String} : bytes a < bytes b ↔ a < b := by
  rw [bytes_eq, bytes_eq, String.lt_iff]
  constructor
  · intro h
    apply Decidable.byContradiction
    intro hnot
    rcases List.le_iff_lt_or_eq.mp (List.not_lt.mp hnot) with hlt | heq
    · exact List.lt_asymm h (flatMap_lt hlt)
    · rw [heq] at h
      exact List.lt_irrefl _ h
  · exact flatMap_lt

/-- Texts compare as their bytes do. -/
theorem compare_eq_lt_iff_bytes {a b : String} : compare a b = .lt ↔ bytes a < bytes b := by
  rw [bytes_lt_iff]
  exact compareOfLessAndEq_eq_lt

end FlatSchema.Text
