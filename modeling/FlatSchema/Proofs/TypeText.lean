import FlatSchema.DataType.Parser
import Mathlib.Data.List.Basic
import Mathlib.Data.List.TakeDrop

namespace FlatSchema

open Text

namespace Text

theorem trimEnd_eq_self {cs : List Char} (h : ∀ c ∈ cs.getLast?, isBlank c = false) :
    trimEnd cs = cs := by
  rw [← List.head?_reverse] at h
  unfold trimEnd
  cases hr : cs.reverse with
  | nil => simpa using hr.symm
  | cons c rest =>
    have hc := h c (by simp [hr])
    rw [List.dropWhile_cons_of_neg (by simp [hc]), ← hr, List.reverse_reverse]

theorem trimEnd_append_blank {cs : List Char} {c : Char} (h : isBlank c) :
    trimEnd (cs ++ [c]) = trimEnd cs := by
  simp [trimEnd, h]

theorem trim_eq_self {cs : List Char} (hh : ∀ c ∈ cs.head?, isBlank c = false)
    (hl : ∀ c ∈ cs.getLast?, isBlank c = false) : trim cs = cs := by
  have hs : trimStart cs = cs := by
    cases cs with
    | nil => rfl
    | cons c rest => exact List.dropWhile_cons_of_neg (by simp [hh c rfl])
  rw [trim, hs, trimEnd_eq_self hl]

theorem trim_cons_blank {c : Char} {cs : List Char} (h : isBlank c) : trim (c :: cs) = trim cs := by
  simp [trim, trimStart, h]

theorem digit_range {c : Char} (h : c.isDigit) : 48 ≤ c.toNat ∧ c.toNat ≤ 57 := by
  simpa [Char.isDigit, UInt32.le_iff_toNat_le] using h

theorem isBlank_of_isDigit {c : Char} (h : c.isDigit) : isBlank c = false := by
  have hc := digit_range h
  simp only [isBlank, Bool.or_eq_false_iff, Bool.and_eq_false_iff, decide_eq_false_iff_not,
    beq_eq_false_iff_ne]
  omega

theorem toUpper_of_isDigit {c : Char} (h : c.isDigit) : c.toUpper = c := by
  have hc := digit_range h
  unfold Char.toUpper
  split
  · rename_i hl
    have hlow : 97 ≤ c.toNat := by simpa [UInt32.le_iff_toNat_le] using hl.1
    omega
  · rfl

end Text

namespace DataType

/-- Texts that the reader takes as they stand. -/
structure Normal (cs : List Char) : Prop where
  upper : ∀ c ∈ cs, c.toUpper = c
  head : ∀ c ∈ cs.head?, isBlank c = false
  last : ∀ c ∈ cs.getLast?, isBlank c = false

instance (cs : List Char) : Decidable (Normal cs) :=
  decidable_of_iff (cs.all (fun c => c.toUpper == c) ∧ cs.head?.all (fun c => !isBlank c) ∧
      cs.getLast?.all (fun c => !isBlank c)) (by
    simp only [List.all_eq_true, Option.all_eq_true, beq_iff_eq, Bool.not_eq_true']
    exact ⟨fun h => ⟨h.1, h.2.1, h.2.2⟩, fun h => ⟨h.upper, h.head, h.last⟩⟩)

theorem isDigit_toDigits {n : Nat} : ∀ c ∈ Nat.toDigits 10 n, c.isDigit :=
  fun _ hc => Nat.isDigit_of_mem_toDigits (by decide) (by decide) hc

theorem trim_toDigits (n : Nat) : trim (Nat.toDigits 10 n) = Nat.toDigits 10 n :=
  trim_eq_self (fun c hc => isBlank_of_isDigit (isDigit_toDigits c (List.mem_of_mem_head? hc)))
    (fun c hc => isBlank_of_isDigit (isDigit_toDigits c (List.mem_of_mem_getLast? hc)))

theorem argument?_toDigits {n : Nat} (h : n ≤ maxArgument) :
    argument? (Nat.toDigits 10 n) = some n := by
  have hd : ∀ c ∈ Nat.toDigits 10 n, c.isDigit := isDigit_toDigits
  have hv : Nat.ofDigitChars 10 (Nat.toDigits 10 n) 0 = n := Nat.ofDigitChars_ten_toDigits
  unfold argument?
  cases hn : Nat.toDigits 10 n with
  | nil => exact absurd hn Nat.toDigits_ne_nil
  | cons c rest =>
    rw [hn] at hd hv
    have hplus : c ≠ '+' := fun he => absurd (hd c List.mem_cons_self) (by simp [he])
    have hall : (c :: rest).all Char.isDigit := List.all_eq_true.mpr hd
    simp [hplus, hall, hv, h]

/-- What stands between the parentheses, cut at the commas. -/
def argumentParts : List Nat → List (List Char)
  | [] => []
  | n :: rest => Nat.toDigits 10 n :: rest.map (fun m => ' ' :: Nat.toDigits 10 m)

theorem toList_intercalate_arguments (arguments : List Nat) :
    (", ".intercalate (arguments.map toString)).toList =
      [','].intercalate (argumentParts arguments) := by
  rw [String.toList_intercalate]
  cases arguments with
  | nil => rfl
  | cons n rest =>
    induction rest generalizing n with
    | nil => simp [argumentParts, List.intercalate]
    | cons m rest ih =>
      simp only [List.map_cons, argumentParts, List.intercalate_cons_cons] at ih ⊢
      rw [ih m]
      cases rest <;> simp [List.intercalate_cons_cons]

theorem comma_notMem_argumentParts {arguments : List Nat} :
    ∀ part ∈ argumentParts arguments, ',' ∉ part := by
  have hd : ∀ n, ',' ∉ Nat.toDigits 10 n := fun n hm => absurd (isDigit_toDigits _ hm) (by decide)
  cases arguments with
  | nil => simp [argumentParts]
  | cons n rest => simp [argumentParts, hd]

theorem mapM_argumentParts {arguments : List Nat} (h : ∀ n ∈ arguments, n ≤ maxArgument) :
    (argumentParts arguments).mapM (fun cs => argument? (trim cs)) = some arguments := by
  have hrest : ∀ rest : List Nat, (∀ n ∈ rest, n ≤ maxArgument) →
      (rest.map (fun m => ' ' :: Nat.toDigits 10 m)).mapM (fun cs => argument? (trim cs)) =
        some rest := by
    intro rest hr
    induction rest with
    | nil => rfl
    | cons m rest ih =>
      obtain ⟨hm, hr⟩ := List.forall_mem_cons.mp hr
      simp [trim_cons_blank (c := ' ') rfl, trim_toDigits, argument?_toDigits hm, ih hr]
  cases arguments with
  | nil => rfl
  | cons n rest =>
    obtain ⟨hn, hr⟩ := List.forall_mem_cons.mp h
    simp [argumentParts, trim_toDigits, argument?_toDigits hn, hrest rest hr]

theorem toList_call (name : String) (arguments : List Nat) :
    (call name arguments).toList =
      name.toList ++ '(' :: ([','].intercalate (argumentParts arguments) ++ [')']) := by
  simp only [call, String.toList_append, toList_intercalate_arguments]
  simp

theorem nameAndArguments?_call {name : String} {arguments : List Nat} (hn : Normal name.toList)
    (hp : '(' ∉ name.toList) (hne : arguments ≠ []) (h : ∀ n ∈ arguments, n ≤ maxArgument) :
    nameAndArguments? (call name arguments).toList = some (name.toList, arguments) := by
  have hname : ∀ c ∈ name.toList, (c != '(') = true := fun c hc =>
    bne_iff_ne.mpr (fun he => hp (he ▸ hc))
  have hparts : argumentParts arguments ≠ [] := by
    cases arguments with
    | nil => exact absurd rfl hne
    | cons n rest => simp [argumentParts]
  have hend : [')'].isSuffixOf? ([','].intercalate (argumentParts arguments) ++ [')']) =
      some ([','].intercalate (argumentParts arguments)) :=
    List.isSuffixOf?_eq_some_iff_append_eq.mpr rfl
  unfold nameAndArguments?
  rw [toList_call, List.span_eq_takeWhile_dropWhile, List.takeWhile_append_of_pos hname,
    List.dropWhile_append_of_pos hname]
  simp only [List.takeWhile_cons, List.dropWhile_cons, bne_self_eq_false, Bool.false_eq_true,
    ↓reduceIte, List.append_nil]
  rw [trimEnd_eq_self (by simp; rfl), hend, trim_eq_self hn.head hn.last]
  simp only [Option.bind_eq_bind, Option.bind_some]
  rw [List.splitOn_intercalate ',' comma_notMem_argumentParts hparts, mapM_argumentParts h]
  rfl

theorem beforeWords?_eq_none {words body : List Char} {c : Char} (hc : words.getLast? = some c)
    (h : body.getLast? ≠ some c) : beforeWords? words body = none := by
  unfold beforeWords?
  cases hs : words.isSuffixOf? body with
  | none => rfl
  | some rest =>
    rw [← List.isSuffixOf?_eq_some_iff_append_eq.mp hs, List.getLast?_append, hc] at h
    exact absurd rfl h

theorem beforeWords?_append {words body : List Char} (hb : ∀ c ∈ body.getLast?, isBlank c = false) :
    beforeWords? words (body ++ ' ' :: words) = some body := by
  have hs : words.isSuffixOf? (body ++ ' ' :: words) = some (body ++ [' ']) :=
    List.isSuffixOf?_eq_some_iff_append_eq.mpr (by simp)
  have hblank : isBlank ' ' = true := rfl
  simp [beforeWords?, hs, hblank, trimEnd_append_blank, trimEnd_eq_self hb]

/-- The names that are written with arguments. -/
def parametricNames : List String := ["VARCHAR", "CHAR", "DECIMAL", "TIMESTAMP", "TIMESTAMP_LTZ"]

theorem normal_of_mem_parametricNames {name : String} (h : name ∈ parametricNames) :
    Normal name.toList ∧ '(' ∉ name.toList := by
  simp only [parametricNames, List.mem_cons, List.not_mem_nil, or_false] at h
  rcases h with rfl | rfl | rfl | rfl | rfl <;> exact ⟨by decide, by decide⟩

theorem getLast?_call (name : String) (arguments : List Nat) :
    (call name arguments).toList.getLast? = some ')' := by
  rw [toList_call, ← List.cons_append, ← List.append_assoc, List.getLast?_concat]

theorem toUpper_of_mem_argumentParts {arguments : List Nat} :
    ∀ part ∈ argumentParts arguments, ∀ c ∈ part, c.toUpper = c := by
  intro part hp c hc
  cases arguments with
  | nil => cases hp
  | cons n rest =>
    rcases List.mem_cons.mp hp with rfl | hp
    · exact toUpper_of_isDigit (isDigit_toDigits c hc)
    · obtain ⟨m, _, rfl⟩ := List.mem_map.mp hp
      rcases List.mem_cons.mp hc with rfl | hc
      · rfl
      · exact toUpper_of_isDigit (isDigit_toDigits c hc)

theorem toUpper_of_mem_intercalate {parts : List (List Char)}
    (h : ∀ part ∈ parts, ∀ c ∈ part, c.toUpper = c) :
    ∀ c ∈ [','].intercalate parts, c.toUpper = c := by
  induction parts with
  | nil => simp [List.intercalate]
  | cons part parts ih =>
    obtain ⟨hpart, hparts⟩ := List.forall_mem_cons.mp h
    cases parts with
    | nil => simpa [List.intercalate] using hpart
    | cons next parts =>
      rw [List.intercalate_cons_cons]
      intro c hc
      simp only [List.append_assoc, List.mem_append, List.mem_singleton] at hc
      rcases hc with hc | rfl | hc
      · exact hpart c hc
      · rfl
      · exact ih hparts c hc

theorem normal_call {name : String} (hn : name ∈ parametricNames) (arguments : List Nat) :
    Normal (call name arguments).toList := by
  obtain ⟨hname, hp⟩ := normal_of_mem_parametricNames hn
  refine ⟨?_, ?_, ?_⟩
  · rw [toList_call]
    intro c hc
    simp only [List.mem_append, List.mem_cons, List.not_mem_nil, or_false] at hc
    rcases hc with hc | rfl | hc | rfl
    · exact hname.upper c hc
    · rfl
    · exact toUpper_of_mem_intercalate toUpper_of_mem_argumentParts c hc
    · rfl
  · rw [toList_call, List.head?_append]
    intro c hc
    cases hh : name.toList.head? with
    | none =>
      rw [hh] at hc
      cases hc
      rfl
    | some d =>
      rw [hh] at hc
      exact hname.head c (hh.trans hc)
  · rw [getLast?_call]
    intro c hc
    cases hc
    rfl

theorem ofBody?_call {name : String} {arguments : List Nat} (hn : name ∈ parametricNames)
    (hne : arguments ≠ []) (h : ∀ n ∈ arguments, n ≤ maxArgument) :
    ofBody? (call name arguments).toList = named? name.toList arguments := by
  have hw : beforeWords? "WITH LOCAL TIME ZONE".toList (call name arguments).toList = none :=
    beforeWords?_eq_none (c := 'E') rfl (by rw [getLast?_call]; decide)
  obtain ⟨hnormal, hp⟩ := normal_of_mem_parametricNames hn
  rw [ofBody?, hw, nameAndArguments?_call hnormal hp hne h]
  rfl

theorem named?_varchar (n : Nat) :
    named? "VARCHAR".toList [n] = some (canonical (.varchar (UInt32.ofNat n))) := rfl

theorem named?_char (n : Nat) : named? "CHAR".toList [n] = some (.char (UInt32.ofNat n)) := rfl

theorem named?_decimal (p s : Nat) : named? "DECIMAL".toList [p, s] =
    (narrow? p).bind fun precision => (narrow? s).bind fun scale =>
      some (.decimal precision scale) := rfl

theorem named?_timestamp (n : Nat) :
    named? "TIMESTAMP".toList [n] = (narrow? n).map .timestamp := rfl

theorem named?_timestampLtz (n : Nat) :
    named? "TIMESTAMP_LTZ".toList [n] = (narrow? n).map .timestampLtz := rfl

theorem narrow?_toNat (n : UInt8) : narrow? n.toNat = some n := by
  have hn : n.toNat ≤ 255 := Nat.le_of_lt_succ n.toNat_lt
  simp [narrow?, hn]

theorem word_le_maxArgument (n : UInt32) : n.toNat ≤ maxArgument := Nat.le_of_lt_succ n.toNat_lt

theorem byte_le_maxArgument (n : UInt8) : n.toNat ≤ maxArgument :=
  Nat.le_trans (Nat.le_of_lt n.toNat_lt) (by decide)

/-- The reader gives the canonical form of every type, even of one that is not canonical. -/
theorem ofBody?_text (d : DataType) : ofBody? d.text.toList = some d.canonical := by
  cases d with
  | varchar length =>
    by_cases hl : length = unboundedLength
    · simp only [text, canonical, hl, ↓reduceIte]
      decide
    · simp only [text, hl, ↓reduceIte]
      rw [ofBody?_call (by decide) (by simp) (by simp [word_le_maxArgument]), named?_varchar,
        UInt32.ofNat_toNat]
  | char length =>
    rw [text, ofBody?_call (by decide) (by simp) (by simp [word_le_maxArgument]), named?_char,
      UInt32.ofNat_toNat]
    rfl
  | decimal precision scale =>
    rw [text, ofBody?_call (by decide) (by simp) (by simp [byte_le_maxArgument]), named?_decimal,
      narrow?_toNat, narrow?_toNat]
    rfl
  | timestamp precision =>
    rw [text, ofBody?_call (by decide) (by simp) (by simp [byte_le_maxArgument]),
      named?_timestamp, narrow?_toNat]
    rfl
  | timestampLtz precision =>
    rw [text, ofBody?_call (by decide) (by simp) (by simp [byte_le_maxArgument]),
      named?_timestampLtz, narrow?_toNat]
    rfl
  | _ => decide

theorem text_canonical (d : DataType) : d.canonical.text = d.text := by
  cases d with
  | varchar length => by_cases hl : length = unboundedLength <;> simp [canonical, text, hl]
  | _ => rfl

theorem normal_text (d : DataType) : Normal d.text.toList := by
  cases d with
  | varchar length =>
    by_cases hl : length = unboundedLength
    · simp only [text, hl, ↓reduceIte]
      decide
    · simp only [text, hl, ↓reduceIte]
      exact normal_call (by decide) _
  | char length => exact normal_call (by decide) _
  | decimal precision scale => exact normal_call (by decide) _
  | timestamp precision => exact normal_call (by decide) _
  | timestampLtz precision => exact normal_call (by decide) _
  | _ => decide

end DataType

namespace TypeDescriptor

open DataType

theorem normalized_eq_self {text : String} (h : Normal text.toList) :
    normalized text = text.toList := by
  rw [normalized, trim_eq_self h.head h.last]
  exact (List.map_congr_left h.upper).trans (List.map_id _)

theorem getLast?_text_ne (d : DataType) : d.text.toList.getLast? ≠ some 'L' := by
  cases d with
  | varchar length =>
    by_cases hl : length = unboundedLength
    · simp only [DataType.text, hl, ↓reduceIte]
      decide
    · simp [DataType.text, hl, getLast?_call]
  | char _ | decimal _ _ | timestamp _ | timestampLtz _ => simp [DataType.text, getLast?_call]
  | _ => decide

theorem toList_text_ne_nil (d : DataType) : d.text.toList ≠ [] := by
  cases d with
  | varchar length =>
    by_cases hl : length = unboundedLength
    · simp only [DataType.text, hl, ↓reduceIte]
      decide
    · simp [DataType.text, hl, toList_call]
  | char _ | decimal _ _ | timestamp _ | timestampLtz _ => simp [DataType.text, toList_call]
  | _ => decide

/-- Closing words do not disturb a text that the reader takes as it stands. -/
theorem normal_append {cs : List Char} (h : Normal cs) (hne : cs ≠ []) :
    Normal (cs ++ ' ' :: "NOT NULL".toList) where
  upper := by
    intro c hc
    have hw : Normal "NOT NULL".toList := by decide
    rcases List.mem_append.mp hc with hc | hc
    · exact h.upper c hc
    · rcases List.mem_cons.mp hc with rfl | hc
      · rfl
      · exact hw.upper c hc
  head := by
    rw [List.head?_append_of_ne_nil _ hne]
    exact h.head
  last := by
    rw [List.getLast?_append]
    intro c hc
    cases hc
    rfl

theorem make_canonical (d : DataType) (nullable : Bool) :
    make d.canonical nullable = make d nullable := by
  cases d with
  | varchar length => by_cases hl : length = unboundedLength <;> simp [make, canonical, hl]
  | _ => rfl

/-- Every written form reads back, as the canonical form of what was written. -/
theorem ofText?_text (t : TypeDescriptor) : ofText? t.text = some (make t.dataType t.nullable) := by
  obtain ⟨d, nullable⟩ := t
  have hd := normal_text d
  cases nullable with
  | true =>
    have hw : beforeWords? "NOT NULL".toList d.text.toList = none :=
      beforeWords?_eq_none rfl (getLast?_text_ne d)
    simp only [ofText?, text, ↓reduceIte, normalized_eq_self hd, hw, ofBody?_text, Option.map_some,
      make_canonical]
  | false =>
    have ht : (d.text ++ " NOT NULL").toList = d.text.toList ++ ' ' :: "NOT NULL".toList :=
      String.toList_append
    have hn : normalized (d.text ++ " NOT NULL") = d.text.toList ++ ' ' :: "NOT NULL".toList := by
      rw [normalized_eq_self (ht ▸ normal_append hd (toList_text_ne_nil d)), ht]
    simp only [ofText?, text, Bool.false_eq_true, ↓reduceIte, hn, beforeWords?_append hd.last,
      ofBody?_text, Option.map_some, make_canonical]

theorem make_eq_self {t : TypeDescriptor} (h : t.Canonical) : make t.dataType t.nullable = t :=
  congrArg (fun d => TypeDescriptor.mk d t.nullable) h

theorem ofText?_text_of_canonical {t : TypeDescriptor} (h : t.Canonical) :
    ofText? t.text = some t := by
  rw [ofText?_text, make_eq_self h]

theorem canonical_make (d : DataType) (nullable : Bool) : (make d nullable).Canonical :=
  congrArg dataType (make_canonical d nullable)

/-- Whatever spelling is read, the result is canonical. -/
theorem canonical_of_ofText? {text : String} {t : TypeDescriptor} (h : ofText? text = some t) :
    t.Canonical := by
  unfold ofText? at h
  split at h
  all_goals
    obtain ⟨d, _, rfl⟩ := Option.map_eq_some_iff.mp h
    exact canonical_make d _

theorem text_make (t : TypeDescriptor) : (make t.dataType t.nullable).text = t.text := by
  simp only [text, make, DataType.text_canonical]

theorem text_inj {t u : TypeDescriptor} (ht : t.Canonical) (hu : u.Canonical)
    (h : t.text = u.text) : t = u := by
  have hread := ofText?_text_of_canonical ht
  rw [h, ofText?_text_of_canonical hu] at hread
  exact (Option.some.inj hread).symm

/-- Writing folds a descriptor just as `make` does: it is read as its canonical form, which has the
same text. So canonical descriptors are known by their texts, and whatever spelling is read, the
text of what it means is read alike. -/
theorem ofText?_inverts_text :
    (∀ dataType nullable, ofText? (TypeDescriptor.mk dataType nullable).text =
        some (make dataType nullable) ∧
      (make dataType nullable).text = (TypeDescriptor.mk dataType nullable).text) ∧
    (∀ t : TypeDescriptor, t.Canonical → ofText? t.text = some t) ∧
    (∀ t u : TypeDescriptor, t.Canonical → u.Canonical → t.text = u.text → t = u) ∧
    ∀ text t, ofText? text = some t → ofText? t.text = some t := by
  refine ⟨?_, ?_, ?_, ?_⟩
  · intro dataType nullable
    exact ⟨ofText?_text ⟨dataType, nullable⟩, text_make ⟨dataType, nullable⟩⟩
  · intro t ht
    exact ofText?_text_of_canonical ht
  · intro t u ht hu h
    exact text_inj ht hu h
  · intro text t h
    exact ofText?_text_of_canonical (canonical_of_ofText? h)

theorem ofText?_inverts_text_unbounded :
    ofText? (TypeDescriptor.mk (.varchar unboundedLength) false).text = some ⟨.string, false⟩ ∧
      ofText? "varchar ( +2147483647 )\tnot null" = some ⟨.string, false⟩ ∧
      ofText? (TypeDescriptor.mk .string false).text = some ⟨.string, false⟩ := by
  have hread : ofText? "varchar ( +2147483647 )\tnot null" = some ⟨.string, false⟩ := by decide
  exact ⟨(ofText?_inverts_text.1 _ _).1, hread, ofText?_inverts_text.2.2.2 _ _ hread⟩

end TypeDescriptor

end FlatSchema
