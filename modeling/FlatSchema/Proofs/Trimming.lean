import FlatSchema.Proofs.TypeText
import Mathlib.Data.List.TakeWhile

namespace FlatSchema.Text

/-- A stretch of blanks, which may be empty. -/
def Blanks (cs : List Char) : Prop := ∀ c ∈ cs, isBlank c

/-- Texts without a blank at either end. -/
structure Tight (cs : List Char) : Prop where
  head : ∀ c ∈ cs.head?, isBlank c = false
  last : ∀ c ∈ cs.getLast?, isBlank c = false

/-- A text is the other one with blanks around it. -/
def TrimsTo (cs core : List Char) : Prop :=
  Tight core ∧ ∃ before after, Blanks before ∧ Blanks after ∧ cs = before ++ core ++ after

theorem dropWhile_eq_iff {p : Char → Bool} {cs core : List Char} :
    cs.dropWhile p = core ↔
      ∃ gap, (∀ c ∈ gap, p c) ∧ (∀ c ∈ core.head?, p c = false) ∧ cs = gap ++ core := by
  constructor
  · rintro rfl
    refine ⟨cs.takeWhile p, fun c => List.mem_takeWhile_imp, fun c hc => ?_,
      List.takeWhile_append_dropWhile.symm⟩
    have hhead := List.head?_dropWhile_not p cs
    rw [Option.mem_def.mp hc] at hhead
    simpa using hhead
  · rintro ⟨gap, hgap, hcore, rfl⟩
    rw [List.dropWhile_append_of_pos hgap]
    cases core with
    | nil => rfl
    | cons c rest => exact List.dropWhile_cons_of_neg (by simp [hcore c rfl])

theorem Blanks.reverse {cs : List Char} (h : Blanks cs) : Blanks cs.reverse :=
  fun c hc => h c (List.mem_reverse.mp hc)

theorem trimEnd_eq_iff {cs core : List Char} :
    trimEnd cs = core ↔
      ∃ gap, Blanks gap ∧ (∀ c ∈ core.getLast?, isBlank c = false) ∧ cs = core ++ gap := by
  rw [trimEnd, List.reverse_eq_iff, dropWhile_eq_iff]
  constructor
  · rintro ⟨gap, hgap, hcore, hcs⟩
    refine ⟨gap.reverse, Blanks.reverse hgap, by simpa using hcore, ?_⟩
    rw [← List.reverse_inj, hcs]
    simp
  · rintro ⟨gap, hgap, hcore, rfl⟩
    exact ⟨gap.reverse, hgap.reverse, by simpa using hcore, by simp⟩

/-- Trimming gives the one text without outer blanks. -/
theorem trim_eq_iff {cs core : List Char} : trim cs = core ↔ TrimsTo cs core := by
  constructor
  · intro h
    obtain ⟨after, hafter, hlast, hstart⟩ := trimEnd_eq_iff.mp h
    obtain ⟨before, hbefore, hhead, rfl⟩ := dropWhile_eq_iff.mp hstart
    refine ⟨⟨fun c hc => hhead c ?_, hlast⟩, before, after, hbefore, hafter, by simp⟩
    rw [List.head?_append, Option.mem_def.mp hc]
    rfl
  · rintro ⟨hcore, before, after, hbefore, hafter, rfl⟩
    cases core with
    | nil =>
      have hblanks : ∀ c ∈ before ++ [] ++ after, isBlank c := by
        simpa [or_imp, forall_and] using ⟨hbefore, hafter⟩
      have hstart : trimStart (before ++ [] ++ after) = [] :=
        dropWhile_eq_iff.mpr ⟨_, hblanks, by simp, by simp⟩
      rw [trim, hstart]
      rfl
    | cons c rest =>
      have hstart : trimStart (before ++ c :: rest ++ after) = c :: rest ++ after :=
        dropWhile_eq_iff.mpr ⟨before, hbefore, hcore.head, by simp⟩
      rw [trim, hstart]
      exact trimEnd_eq_iff.mpr ⟨after, hafter, hcore.last, rfl⟩

theorem Tight.head_left {xs ys : List Char} (h : Tight (xs ++ ys)) :
    ∀ c ∈ xs.head?, isBlank c = false := by
  intro c hc
  refine h.head c ?_
  rw [List.head?_append, Option.mem_def.mp hc]
  rfl

theorem Tight.last_right {xs ys : List Char} (h : Tight (xs ++ ys)) :
    ∀ c ∈ ys.getLast?, isBlank c = false := by
  intro c hc
  refine h.last c ?_
  rw [List.getLast?_append, Option.mem_def.mp hc]
  rfl

/-- Blanks that do not begin with a blank are none. -/
theorem Blanks.eq_nil {gap : List Char} (h : Blanks gap)
    (hhead : ∀ c ∈ gap.head?, isBlank c = false) : gap = [] := by
  cases gap with
  | nil => rfl
  | cons c rest =>
    have hblank := h c List.mem_cons_self
    rw [hhead c rfl] at hblank
    cases hblank

theorem Tight.trimsTo_append {cs gap : List Char} (h : Tight cs) (hgap : Blanks gap) :
    TrimsTo (cs ++ gap) cs :=
  ⟨h, [], gap, by simp [Blanks], hgap, by simp⟩

theorem Tight.trim_eq_self {cs : List Char} (h : Tight cs) : trim cs = cs :=
  Text.trim_eq_self h.head h.last

/-- Letters are blank in neither case. -/
theorem isBlank_toUpper (c : Char) : isBlank c.toUpper = isBlank c := by
  unfold Char.toUpper
  split
  · rename_i hl
    have hlow : 97 ≤ c.toNat ∧ c.toNat ≤ 122 := by simpa [UInt32.le_iff_toNat_le] using hl
    have hoffset : ('A'.val - 'a'.val).toNat = 4294967264 := by decide
    have hupper : (c.val + ('A'.val - 'a'.val)).toNat = c.toNat - 32 := by
      have hval : c.val.toNat = c.toNat := rfl
      rw [UInt32.toNat_add, hoffset]
      omega
    have hletter : ∀ d : Char, 65 ≤ d.toNat ∧ d.toNat ≤ 122 → isBlank d = false := by
      intro d hd
      simp only [isBlank, Bool.or_eq_false_iff, Bool.and_eq_false_iff, decide_eq_false_iff_not,
        beq_eq_false_iff_ne]
      omega
    rw [hletter c (by omega), hletter ⟨_, _⟩ (by rw [Char.toNat, hupper]; omega)]
  · rfl

theorem tight_map_toUpper {cs : List Char} (h : Tight cs) : Tight (cs.map Char.toUpper) := by
  constructor
  · intro c hc
    rw [List.head?_map] at hc
    obtain ⟨d, hd, rfl⟩ := Option.map_eq_some_iff.mp hc
    rw [isBlank_toUpper, h.head d hd]
  · intro c hc
    rw [List.getLast?_map] at hc
    obtain ⟨d, hd, rfl⟩ := Option.map_eq_some_iff.mp hc
    rw [isBlank_toUpper, h.last d hd]

end FlatSchema.Text
