import FlatSchema.Proofs.Records
import FlatSchema.Proofs.Trimming

namespace FlatSchema

namespace Text

/-- A text is the other one followed by closing words, with a blank or more before them. -/
def FollowedBy (words body cs : List Char) : Prop :=
  ∃ gap, gap ≠ [] ∧ Blanks gap ∧ cs = body ++ gap ++ words

end Text

open Text

namespace DataType

/-- Digits for a number of at most 32 bits. Zeros may stand in front. -/
structure Digits (cs : List Char) (n : Nat) : Prop where
  nonempty : cs ≠ []
  digit : ∀ c ∈ cs, c.isDigit
  value : Nat.ofDigitChars 10 cs 0 = n
  fits : n < UInt32.size

/-- A number with a plus sign or none. -/
inductive Numeral : List Char → Nat → Prop where
  | unsigned {cs : List Char} {n : Nat} (digits : Digits cs n) : Numeral cs n
  | signed {cs : List Char} {n : Nat} (digits : Digits cs n) : Numeral ('+' :: cs) n

/-- One number or more, with blanks around each and commas between them. -/
inductive Arguments : List Char → List Nat → Prop where
  | one {cs core : List Char} {n : Nat} (trims : TrimsTo cs core) (numeral : Numeral core n) :
      Arguments cs [n]
  | more {cs core rest : List Char} {n : Nat} {ns : List Nat} (trims : TrimsTo cs core)
      (numeral : Numeral core n) (tail : Arguments rest ns) :
      Arguments (cs ++ ',' :: rest) (n :: ns)

/-- What may come after a name: nothing, or arguments in parentheses. -/
inductive Call : List Char → List Nat → Prop where
  | bare : Call [] []
  | applied {gap cs : List Char} {ns : List Nat} (blanks : Blanks gap)
      (arguments : Arguments cs ns) : Call (gap ++ '(' :: (cs ++ [')'])) ns

/-- The types that are named without arguments. -/
def bareNames : List (String × DataType) :=
  [("BOOLEAN", .boolean), ("TINYINT", .tinyInt), ("SMALLINT", .smallInt), ("INT", .int),
    ("INTEGER", .int), ("BIGINT", .bigInt), ("FLOAT", .float), ("DOUBLE", .double),
    ("STRING", .string), ("BYTES", .bytes), ("DATE", .date), ("DECIMAL", .decimal 10 0),
    ("TIMESTAMP", .timestamp 6), ("TIMESTAMP_LTZ", .timestampLtz 6)]

/-- What a name stands for with its arguments. A precision or scale is a byte. -/
inductive Named : String → List Nat → DataType → Prop where
  | bare {name : String} {d : DataType} (known : (name, d) ∈ bareNames) : Named name [] d
  | string : Named "VARCHAR" [unboundedLength.toNat] .string
  | varchar {n : UInt32} (bounded : n ≠ unboundedLength) : Named "VARCHAR" [n.toNat] (.varchar n)
  | char (n : UInt32) : Named "CHAR" [n.toNat] (.char n)
  | bytes : Named "VARBINARY" [unboundedLength.toNat] .bytes
  | whole (p : UInt8) : Named "DECIMAL" [p.toNat] (.decimal p 0)
  | decimal (p s : UInt8) : Named "DECIMAL" [p.toNat, s.toNat] (.decimal p s)
  | timestamp (p : UInt8) : Named "TIMESTAMP" [p.toNat] (.timestamp p)
  | timestampLtz (p : UInt8) : Named "TIMESTAMP_LTZ" [p.toNat] (.timestampLtz p)

/-- A type without its nullability. A timestamp with a local time zone has a name of its own, or
that of a timestamp and closing words. -/
inductive Body : List Char → DataType → Prop where
  | plain {name : String} {cs : List Char} {ns : List Nat} {d : DataType}
      (named : Named name ns d) (call : Call cs ns) : Body (name.toList ++ cs) d
  | zoned {cs body : List Char} {ns : List Nat} {d : DataType}
      (named : Named "TIMESTAMP_LTZ" ns d) (call : Call cs ns)
      (closed : FollowedBy "WITH LOCAL TIME ZONE".toList ("TIMESTAMP".toList ++ cs) body) :
      Body body d

end DataType

namespace TypeDescriptor

open DataType

/-- A type in upper case, which is nullable unless closing words say that it is not. -/
inductive Spelling : List Char → TypeDescriptor → Prop where
  | nullable {cs : List Char} {d : DataType} (body : Body cs d) : Spelling cs ⟨d, true⟩
  | notNull {cs full : List Char} {d : DataType} (body : Body cs d)
      (closed : FollowedBy "NOT NULL".toList cs full) : Spelling full ⟨d, false⟩

/-- The text spells the descriptor, in any case and with blanks around it. -/
def Spells (text : String) (t : TypeDescriptor) : Prop :=
  ∃ core, TrimsTo text.toList core ∧ Spelling (core.map Char.toUpper) t

end TypeDescriptor

namespace Text

theorem FollowedBy.tight {words body cs : List Char} (h : FollowedBy words body cs) (ht : Tight cs)
    (hlast : ∀ c ∈ body.getLast?, isBlank c = false) : Tight body := by
  obtain ⟨gap, -, -, rfl⟩ := h
  rw [List.append_assoc] at ht
  exact ⟨ht.head_left, hlast⟩

/-- Closing words are taken off together with the blanks before them. -/
theorem beforeWords?_eq_some_iff {words cs body : List Char} :
    DataType.beforeWords? words cs = some body ↔
      FollowedBy words body cs ∧ ∀ c ∈ body.getLast?, isBlank c = false := by
  unfold DataType.beforeWords?
  constructor
  · intro h
    obtain ⟨rest, hrest, h⟩ := Option.bind_eq_some_iff.mp h
    split at h
    · rename_i hblank
      obtain ⟨gap, hgap, hlast, hbody⟩ := trimEnd_eq_iff.mp (Option.some.inj h)
      refine ⟨⟨gap, ?_, hgap, ?_⟩, hlast⟩
      · rintro rfl
        rw [List.append_nil] at hbody
        obtain ⟨c, hc, hcblank⟩ := (Option.any_eq_true _ _).mp hblank
        rw [hlast c (hbody ▸ hc)] at hcblank
        cases hcblank
      · rw [← hbody, List.isSuffixOf?_eq_some_iff_append_eq.mp hrest]
    · cases h
  · rintro ⟨⟨gap, hne, hgap, rfl⟩, hlast⟩
    have hsuffix : words.isSuffixOf? (body ++ gap ++ words) = some (body ++ gap) :=
      List.isSuffixOf?_eq_some_iff_append_eq.mpr rfl
    have hblank : (body ++ gap).getLast?.any isBlank := by
      rw [List.getLast?_append_of_ne_nil _ hne, List.getLast?_eq_some_getLast hne]
      exact hgap _ (List.getLast_mem hne)
    have htrim : trimEnd (body ++ gap) = body := trimEnd_eq_iff.mpr ⟨gap, hgap, hlast, rfl⟩
    rw [hsuffix, Option.bind_eq_bind, Option.bind_some, if_pos hblank, htrim]

end Text

namespace DataType

/-- The digits of an argument decide about it, whether a plus sign stands before them or not. -/
theorem argument?_eq_some_iff_digits {cs digits : List Char} {n : Nat}
    (h : cs = '+' :: digits ∨ cs = digits ∧ ∀ rest, cs ≠ '+' :: rest) :
    argument? cs = some n ↔ Digits digits n := by
  have hdigits : Digits digits n ↔ (digits ≠ [] ∧ ∀ c ∈ digits, c.isDigit) ∧
      Nat.ofDigitChars 10 digits 0 ≤ maxArgument ∧ Nat.ofDigitChars 10 digits 0 = n := by
    constructor
    · rintro ⟨hne, hdigit, rfl, hfits⟩
      exact ⟨⟨hne, hdigit⟩, Nat.le_of_lt_succ hfits, rfl⟩
    · rintro ⟨⟨hne, hdigit⟩, hfits, rfl⟩
      exact ⟨hne, hdigit, rfl, Nat.lt_succ_of_le hfits⟩
  rw [hdigits]
  unfold argument?
  split
  · rename_i rest
    have hrest : rest = digits := by simpa using h
    simp [hrest]
  · rename_i hsign
    have hcs : cs = digits := by
      rcases h with rfl | ⟨hcs, -⟩
      · exact absurd rfl (hsign digits)
      · exact hcs
    simp [hcs]

theorem argument?_eq_some_iff {cs : List Char} {n : Nat} :
    argument? cs = some n ↔ Numeral cs n := by
  constructor
  · intro h
    by_cases hsign : ∃ rest, cs = '+' :: rest
    · obtain ⟨digits, rfl⟩ := hsign
      exact .signed ((argument?_eq_some_iff_digits (.inl rfl)).mp h)
    · exact .unsigned ((argument?_eq_some_iff_digits (.inr ⟨rfl, not_exists.mp hsign⟩)).mp h)
  · intro h
    cases h with
    | signed digits => exact (argument?_eq_some_iff_digits (.inl rfl)).mpr digits
    | unsigned digits =>
      refine (argument?_eq_some_iff_digits (.inr ⟨rfl, ?_⟩)).mpr digits
      rintro rest rfl
      exact absurd (digits.digit '+' List.mem_cons_self) (by decide)

theorem Numeral.lt_size {cs : List Char} {n : Nat} (h : Numeral cs n) : n < UInt32.size := by
  cases h with
  | unsigned digits => exact digits.fits
  | signed digits => exact digits.fits

theorem Digits.comma_notMem {cs : List Char} {n : Nat} (h : Digits cs n) : ',' ∉ cs :=
  fun hm => absurd (h.digit ',' hm) (by decide)

/-- Neither a number nor the blanks around it hold a comma. -/
theorem Numeral.comma_notMem {cs core : List Char} {n : Nat} (h : Numeral core n)
    (ht : TrimsTo cs core) : ',' ∉ cs := by
  obtain ⟨-, before, after, hbefore, hafter, rfl⟩ := ht
  have hblanks : ∀ {gap : List Char}, Blanks gap → ',' ∉ gap :=
    fun hgap hm => absurd (hgap ',' hm) (by decide)
  have hcore : ',' ∉ core := by
    cases h with
    | unsigned digits => exact digits.comma_notMem
    | signed digits => simpa using digits.comma_notMem
  simp [hblanks hbefore, hblanks hafter, hcore]

theorem Arguments.lt_size {cs : List Char} {ns : List Nat} (h : Arguments cs ns) :
    ∀ n ∈ ns, n < UInt32.size := by
  induction h with
  | one _ numeral => simpa using numeral.lt_size
  | more _ numeral _ ih => exact List.forall_mem_cons.mpr ⟨numeral.lt_size, ih⟩

/-- The parts between the commas, joined again, are arguments. -/
theorem arguments_of_mapM {parts : List (List Char)} {ns : List Nat} (hne : parts ≠ [])
    (h : parts.mapM (fun cs => argument? (trim cs)) = some ns) :
    Arguments ([','].intercalate parts) ns := by
  induction parts generalizing ns with
  | nil => exact absurd rfl hne
  | cons cs parts ih =>
    rw [List.mapM_cons] at h
    obtain ⟨n, hn, h⟩ := Option.bind_eq_some_iff.mp h
    obtain ⟨rest, hrest, h⟩ := Option.bind_eq_some_iff.mp h
    cases h
    have htrims := trim_eq_iff.mp (rfl : trim cs = trim cs)
    have hnumeral := argument?_eq_some_iff.mp hn
    cases parts with
    | nil =>
      cases hrest
      simpa [List.intercalate] using Arguments.one htrims hnumeral
    | cons next parts =>
      rw [List.intercalate_cons_cons, List.append_assoc]
      exact .more htrims hnumeral (ih (by simp) hrest)

theorem mapM_splitOn_eq_some_iff {cs : List Char} {ns : List Nat} :
    (cs.splitOn ',').mapM (fun part => argument? (trim part)) = some ns ↔ Arguments cs ns := by
  constructor
  · intro h
    have harguments := arguments_of_mapM (List.splitOn_ne_nil ',' cs) h
    rwa [List.intercalate_splitOn] at harguments
  · intro h
    induction h with
    | one trims numeral =>
      rw [List.splitOn_eq_singleton (numeral.comma_notMem trims), List.mapM_cons,
        trim_eq_iff.mpr trims, argument?_eq_some_iff.mpr numeral]
      rfl
    | more trims numeral _ ih =>
      rw [List.splitOn_append_cons_self_of_not_mem (numeral.comma_notMem trims), List.mapM_cons,
        trim_eq_iff.mpr trims, argument?_eq_some_iff.mpr numeral, ih]
      rfl

theorem nameAndArguments?_bare {body : List Char} (h : '(' ∉ body) :
    nameAndArguments? body = some (trim body, []) := by
  have hname : ∀ c ∈ body, (c != '(') = true := fun c hc => bne_iff_ne.mpr (fun he => h (he ▸ hc))
  rw [nameAndArguments?, List.span_eq_takeWhile_dropWhile, List.takeWhile_eq_self_iff.mpr hname,
    List.dropWhile_eq_nil_iff.mpr hname]

theorem nameAndArguments?_applied {before rest : List Char} (h : '(' ∉ before) :
    nameAndArguments? (before ++ '(' :: rest) =
      ([')'].isSuffixOf? (trimEnd rest)).bind fun inner =>
        ((inner.splitOn ',').mapM (fun part => argument? (trim part))).map (trim before, ·) := by
  have hname : ∀ c ∈ before, (c != '(') = true :=
    fun c hc => bne_iff_ne.mpr (fun he => h (he ▸ hc))
  rw [nameAndArguments?, List.span_eq_takeWhile_dropWhile, List.takeWhile_append_of_pos hname,
    List.dropWhile_append_of_pos hname]
  simp only [List.takeWhile_cons, List.dropWhile_cons, bne_self_eq_false, Bool.false_eq_true,
    ↓reduceIte, List.append_nil, Option.bind_eq_bind, Option.map_eq_bind]
  rfl

/-- A text without outer blanks splits into a name and what may come after it in one way. -/
theorem nameAndArguments?_eq_some_iff {body name : List Char} {ns : List Nat} (h : Tight body) :
    nameAndArguments? body = some (name, ns) ↔
      '(' ∉ name ∧ Tight name ∧ ∃ cs, Call cs ns ∧ body = name ++ cs := by
  constructor
  · intro hsplit
    by_cases hopen : '(' ∈ body
    · obtain ⟨before, rest, rfl, hbefore⟩ := List.eq_append_cons_of_mem hopen
      have hlast := (List.append_cons before '(' rest ▸ h).last_right
      rw [nameAndArguments?_applied hbefore, trimEnd_eq_self hlast] at hsplit
      obtain ⟨inner, hinner, hsplit⟩ := Option.bind_eq_some_iff.mp hsplit
      obtain ⟨arguments, harguments, hpair⟩ := Option.map_eq_some_iff.mp hsplit
      cases hpair
      obtain ⟨htight, start, gap, hstart, hgap, hname⟩ := trim_eq_iff.mp (rfl : trim before = _)
      -- The name begins the whole text, so there are no blanks before it.
      have hnil : start = [] := by
        refine hstart.eq_nil ?_
        rw [hname, List.append_assoc, List.append_assoc] at h
        exact h.head_left
      rw [hnil, List.nil_append] at hname
      refine ⟨fun hm => hbefore (hname ▸ List.mem_append_left _ hm), htight,
        gap ++ '(' :: (inner ++ [')']), .applied hgap (mapM_splitOn_eq_some_iff.mp harguments), ?_⟩
      rw [List.isSuffixOf?_eq_some_iff_append_eq.mp hinner, ← List.append_assoc, ← hname]
    · rw [nameAndArguments?_bare hopen, h.trim_eq_self] at hsplit
      cases hsplit
      exact ⟨hopen, h, [], .bare, by simp⟩
  · rintro ⟨hopen, hname, cs, hcall, rfl⟩
    cases hcall with
    | bare => rw [List.append_nil, nameAndArguments?_bare hopen, hname.trim_eq_self]
    | @applied gap cs _ hgap harguments =>
      have hbefore : '(' ∉ name ++ gap := by
        simpa [hopen] using fun hm => absurd (hgap '(' hm) (by decide)
      have hend : trimEnd (cs ++ [')']) = cs ++ [')'] := trimEnd_eq_self (by simp; rfl)
      have hsuffix : [')'].isSuffixOf? (cs ++ [')']) = some cs :=
        List.isSuffixOf?_eq_some_iff_append_eq.mpr rfl
      rw [← List.append_assoc, nameAndArguments?_applied hbefore, hend, hsuffix, Option.bind_some,
        mapM_splitOn_eq_some_iff.mpr harguments, trim_eq_iff.mpr (hname.trimsTo_append hgap)]
      rfl

/-- The names that stand before arguments or alone. -/
def names : List String := bareNames.map Prod.fst ++ ["VARCHAR", "CHAR", "VARBINARY"]

theorem Named.mem_names {name : String} {ns : List Nat} {d : DataType} (h : Named name ns d) :
    name ∈ names := by
  cases h with
  | bare known => exact List.mem_append_left _ (List.mem_map_of_mem known)
  | _ => decide

theorem narrow?_eq_some_iff {n : Nat} {p : UInt8} : narrow? n = some p ↔ n = p.toNat := by
  constructor
  · intro h
    unfold narrow? at h
    split at h
    · cases h
      rw [UInt8.toNat_ofNat_of_lt']
      simp [UInt8.size]
      omega
    · cases h
  · rintro rfl
    exact narrow?_toNat p

/-- What is made of one precision is made of a byte. -/
theorem exists_byte_of_map_narrow? {f : UInt8 → DataType} {n : Nat} {d : DataType}
    (h : (narrow? n).map f = some d) : ∃ p : UInt8, n = p.toNat ∧ f p = d := by
  obtain ⟨p, hp, hd⟩ := Option.map_eq_some_iff.mp h
  exact ⟨p, narrow?_eq_some_iff.mp hp, hd⟩

theorem exists_word_of_lt_size {n : Nat} (h : n < UInt32.size) :
    ∃ word : UInt32, n = word.toNat ∧ UInt32.ofNat n = word :=
  ⟨UInt32.ofNat n, (UInt32.toNat_ofNat_of_lt h).symm, rfl⟩

theorem named_of_named? {name : String} {ns : List Nat} {d : DataType}
    (h : ∀ n ∈ ns, n < UInt32.size) (hd : named? name.toList ns = some d) : Named name ns d := by
  unfold named? at hd
  rw [String.ofList_toList] at hd
  split at hd
  case h_10 n =>
    obtain ⟨word, rfl, hword⟩ := exists_word_of_lt_size (h n List.mem_cons_self)
    rw [hword, canonical] at hd
    split at hd
    · rename_i hunbounded
      cases hd
      exact hunbounded ▸ .string
    · rename_i hbounded
      cases hd
      exact .varchar hbounded
  case h_11 n =>
    obtain ⟨word, rfl, hword⟩ := exists_word_of_lt_size (h n List.mem_cons_self)
    rw [hword] at hd
    cases hd
    exact .char word
  case h_13 n =>
    split at hd
    · rename_i hunbounded
      cases hd
      exact hunbounded ▸ .bytes
    · cases hd
  case h_15 n =>
    obtain ⟨p, rfl, rfl⟩ := exists_byte_of_map_narrow? hd
    exact .whole p
  case h_16 n m =>
    obtain ⟨p, hp, hd⟩ := Option.bind_eq_some_iff.mp hd
    obtain ⟨s, hs, hd⟩ := Option.bind_eq_some_iff.mp hd
    cases hd
    rw [narrow?_eq_some_iff.mp hp, narrow?_eq_some_iff.mp hs]
    exact .decimal p s
  case h_19 n =>
    obtain ⟨p, rfl, rfl⟩ := exists_byte_of_map_narrow? hd
    exact .timestamp p
  case h_21 n =>
    obtain ⟨p, rfl, rfl⟩ := exists_byte_of_map_narrow? hd
    exact .timestampLtz p
  case h_22 => cases hd
  all_goals
    cases hd
    exact .bare (by decide)

theorem named?_of_named {name : String} {ns : List Nat} {d : DataType} (h : Named name ns d) :
    named? name.toList ns = some d := by
  cases h with
  | bare known =>
    have hall : ∀ known ∈ bareNames, named? known.1.toList [] = some known.2 := by decide
    exact hall (name, d) known
  | string => decide
  | varchar hn => rw [named?_varchar, UInt32.ofNat_toNat, canonical, if_neg hn]
  | char n => rw [named?_char, UInt32.ofNat_toNat]
  | bytes => decide
  | whole p =>
    have hnamed : named? "DECIMAL".toList [p.toNat] = (narrow? p.toNat).map (.decimal · 0) := rfl
    rw [hnamed, narrow?_toNat]
    rfl
  | decimal p s =>
    rw [named?_decimal, narrow?_toNat, narrow?_toNat]
    rfl
  | timestamp p =>
    rw [named?_timestamp, narrow?_toNat]
    rfl
  | timestampLtz p =>
    rw [named?_timestampLtz, narrow?_toNat]
    rfl

/-- A timestamp with the words for a local time zone is named like a type of its own. -/
theorem zoned?_eq_some_iff {name : List Char} {ns : List Nat} {d : DataType} :
    zoned? name ns = some d ↔
      name = "TIMESTAMP".toList ∧ named? "TIMESTAMP_LTZ".toList ns = some d := by
  constructor
  · intro hd
    unfold zoned? at hd
    split at hd
    case h_3 => cases hd
    all_goals
      rename_i hname
      refine ⟨?_, hd⟩
      rw [← hname, String.toList_ofList]
  · rintro ⟨rfl, hd⟩
    match ns, hd with
    | [], hd => exact hd
    | [_], hd => exact hd

theorem nameAndArguments?_of_call {name : String} {cs : List Char} {ns : List Nat}
    (hname : name ∈ names) (call : Call cs ns) (h : Tight (name.toList ++ cs)) :
    nameAndArguments? (name.toList ++ cs) = some (name.toList, ns) := by
  have hnames : ∀ name ∈ names, '(' ∉ name.toList ∧ Normal name.toList := by decide
  obtain ⟨hopen, hnormal⟩ := hnames name hname
  exact (nameAndArguments?_eq_some_iff h).mpr
    ⟨hopen, ⟨hnormal.head, hnormal.last⟩, cs, call, rfl⟩

theorem Call.lt_size {cs : List Char} {ns : List Nat} (h : Call cs ns) :
    ∀ n ∈ ns, n < UInt32.size := by
  cases h with
  | bare => simp
  | applied _ harguments => exact harguments.lt_size

/-- The words that may close a type. -/
def closingWords : List String := ["WITH LOCAL TIME ZONE", "NOT NULL"]

/-- A name, with arguments or without, ends in no blank and in no closing words. -/
theorem Call.open_end {name : String} {cs : List Char} {ns : List Nat} (call : Call cs ns)
    (hname : name ∈ names) (words : String) (hwords : words ∈ closingWords) :
    (∀ c ∈ (name.toList ++ cs).getLast?, isBlank c = false) ∧
      beforeWords? words.toList (name.toList ++ cs) = none := by
  cases call with
  | bare =>
    have hall : ∀ name ∈ names, ∀ words ∈ closingWords, Normal name.toList ∧
        beforeWords? words.toList name.toList = none := by decide
    obtain ⟨hnormal, hbefore⟩ := hall name hname words hwords
    rw [List.append_nil]
    exact ⟨hnormal.last, hbefore⟩
  | @applied gap cs _ _ _ =>
    have hlast : (name.toList ++ (gap ++ '(' :: (cs ++ [')']))).getLast? = some ')' := by
      rw [← List.cons_append, ← List.append_assoc, ← List.append_assoc, List.getLast?_concat]
    have hwordsLast : ∀ words ∈ closingWords, words.toList.getLast?.any (· != ')') := by decide
    obtain ⟨c, hc, hne⟩ := (Option.any_eq_true _ _).mp (hwordsLast words hwords)
    have hdiffers : some ')' ≠ some c := by simpa using Ne.symm (bne_iff_ne.mp hne)
    refine ⟨?_, beforeWords?_eq_none hc (hlast ▸ hdiffers)⟩
    rw [hlast]
    rintro _ ⟨⟩
    rfl

theorem ofBody?_eq_some_iff {cs : List Char} {d : DataType} (h : Tight cs) :
    ofBody? cs = some d ↔ Body cs d := by
  constructor
  · intro hd
    unfold ofBody? at hd
    split at hd
    · rename_i rest hrest
      obtain ⟨hclosed, hlast⟩ := beforeWords?_eq_some_iff.mp hrest
      obtain ⟨⟨name, ns⟩, hpair, hd⟩ := Option.bind_eq_some_iff.mp hd
      obtain ⟨rfl, hnamed⟩ := zoned?_eq_some_iff.mp hd
      obtain ⟨-, -, arguments, hcall, rfl⟩ :=
        (nameAndArguments?_eq_some_iff (hclosed.tight h hlast)).mp hpair
      exact .zoned (named_of_named? hcall.lt_size hnamed) hcall hclosed
    · obtain ⟨⟨name, ns⟩, hpair, hd⟩ := Option.bind_eq_some_iff.mp hd
      obtain ⟨-, -, arguments, hcall, rfl⟩ := (nameAndArguments?_eq_some_iff h).mp hpair
      have hnamed : Named (String.ofList name) ns d := by
        refine named_of_named? hcall.lt_size ?_
        rwa [String.toList_ofList]
      rw [← String.toList_ofList (l := name)]
      exact .plain hnamed hcall
  · intro hd
    unfold ofBody?
    cases hd with
    | plain named call =>
      have hbefore := (call.open_end named.mem_names "WITH LOCAL TIME ZONE" (by decide)).2
      rw [hbefore]
      simp only [nameAndArguments?_of_call named.mem_names call h]
      exact named?_of_named named
    | zoned named call closed =>
      have hname : "TIMESTAMP" ∈ names := by decide
      have hlast := (call.open_end hname "WITH LOCAL TIME ZONE" (by decide)).1
      rw [beforeWords?_eq_some_iff.mpr ⟨closed, hlast⟩]
      simp only [nameAndArguments?_of_call hname call (closed.tight h hlast)]
      exact zoned?_eq_some_iff.mpr ⟨rfl, named?_of_named named⟩

/-- A type ends in no blank, and not in the words that deny nulls. -/
theorem Body.open_end {cs : List Char} {d : DataType} (h : Body cs d) :
    (∀ c ∈ cs.getLast?, isBlank c = false) ∧ beforeWords? "NOT NULL".toList cs = none := by
  cases h with
  | plain named call => exact call.open_end named.mem_names "NOT NULL" (by decide)
  | zoned _ _ closed =>
    obtain ⟨gap, -, -, rfl⟩ := closed
    have hlast : ∀ body : List Char, (body ++ "WITH LOCAL TIME ZONE".toList).getLast? = some 'E' :=
      fun body => List.getLast?_append_of_ne_nil body (by decide)
    refine ⟨?_, beforeWords?_eq_none (c := 'L') rfl (by rw [hlast]; decide)⟩
    rw [hlast]
    rintro _ ⟨⟩
    rfl

/-- A name stands for no type that has another form. -/
theorem Named.canonical_eq_self {name : String} {ns : List Nat} {d : DataType}
    (h : Named name ns d) : d.canonical = d := by
  cases h with
  | bare known =>
    have hall : ∀ known ∈ bareNames, known.2.canonical = known.2 := by decide
    exact hall (name, d) known
  | varchar hn => rw [canonical, if_neg hn]
  | _ => rfl

theorem Body.canonical_eq_self {cs : List Char} {d : DataType} (h : Body cs d) :
    d.canonical = d := by
  cases h with
  | plain named _ => exact named.canonical_eq_self
  | zoned named _ _ => exact named.canonical_eq_self

end DataType

namespace TypeDescriptor

open DataType

theorem ofText?_eq_some_iff {text : String} {t : TypeDescriptor} :
    ofText? text = some t ↔ Spells text t := by
  have htrims : TrimsTo text.toList (trim text.toList) := trim_eq_iff.mp rfl
  have htight : Tight (normalized text) := tight_map_toUpper htrims.1
  have hspells : Spells text t ↔ Spelling (normalized text) t := by
    constructor
    · rintro ⟨core, hcore, h⟩
      rwa [← trim_eq_iff.mpr hcore] at h
    · intro h
      exact ⟨_, htrims, h⟩
  rw [hspells]
  constructor
  · intro h
    unfold ofText? at h
    split at h
    · rename_i body hbody
      obtain ⟨hclosed, hlast⟩ := beforeWords?_eq_some_iff.mp hbody
      obtain ⟨d, hd, rfl⟩ := Option.map_eq_some_iff.mp h
      have hread := (ofBody?_eq_some_iff (hclosed.tight htight hlast)).mp hd
      rw [make, hread.canonical_eq_self]
      exact .notNull hread hclosed
    · obtain ⟨d, hd, rfl⟩ := Option.map_eq_some_iff.mp h
      have hread := (ofBody?_eq_some_iff htight).mp hd
      rw [make, hread.canonical_eq_self]
      exact .nullable hread
  · intro h
    unfold ofText?
    cases h with
    | nullable hread =>
      rw [hread.open_end.2]
      simp only [(ofBody?_eq_some_iff htight).mpr hread, Option.map_some, make,
        hread.canonical_eq_self]
    | notNull hread hclosed =>
      have hlast := hread.open_end.1
      rw [beforeWords?_eq_some_iff.mpr ⟨hclosed, hlast⟩]
      simp only [(ofBody?_eq_some_iff (hclosed.tight htight hlast)).mpr hread,
        Option.map_some, make, hread.canonical_eq_self]

/-- The reader takes exactly the texts that spell a descriptor, and gives the one that is spelled.
Every other text is refused as it stands. -/
theorem ofText_reads_spellings (text : String) :
    (∀ t, TypeDescriptor.ofText text = .ok t ↔ Spells text t) ∧
      (TypeDescriptor.ofText text = .error (.invalidType text) ↔ ∀ t, ¬ Spells text t) := by
  refine ⟨fun t => by rw [ofText_eq_ok_iff, ofText?_eq_some_iff], ?_⟩
  simp only [← ofText?_eq_some_iff, TypeDescriptor.ofText]
  cases ofText? text <;> simp

example : TypeDescriptor.ofText "\u00a0timestamp ( +003 )\twith local time zone  Not Null\n" =
    .ok ⟨.timestampLtz 3, false⟩ := by decide

example : TypeDescriptor.ofText "TIMESTAMP()" = .error (.invalidType "TIMESTAMP()") := by decide

end TypeDescriptor

end FlatSchema
