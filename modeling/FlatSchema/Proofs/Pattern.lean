namespace FlatSchema.Text

/-- A pattern is looked for anywhere in a text, and only its signs for the ends of the text tie it
to them. -/
inductive Pattern where
  /-- The beginning of the text. -/
  | start
  /-- The end of the text. A line break that stands there is part of the text. -/
  | finish
  | literal (text : String)
  /-- One character of a range, which includes both of its ends. -/
  | among (first last : Char)
  /-- A pattern once or more. -/
  | repeated (p : Pattern)
  | followed (p q : Pattern)

namespace Pattern

/-- The pattern takes the characters `cs` of a text that has `before` in front of them and `after`
behind them. -/
inductive Matches : Pattern → (before cs after : List Char) → Prop where
  | start {after : List Char} : Matches .start [] [] after
  | finish {before : List Char} : Matches .finish before [] []
  | literal {text : String} {before after : List Char} :
      Matches (.literal text) before text.toList after
  | among {first last c : Char} {before after : List Char} (low : first ≤ c) (high : c ≤ last) :
      Matches (.among first last) before [c] after
  | once {p : Pattern} {before cs after : List Char} (one : Matches p before cs after) :
      Matches (.repeated p) before cs after
  | again {p : Pattern} {before cs rest after : List Char}
      (one : Matches p before cs (rest ++ after))
      (more : Matches (.repeated p) (before ++ cs) rest after) :
      Matches (.repeated p) before (cs ++ rest) after
  | followed {p q : Pattern} {before cs rest after : List Char}
      (one : Matches p before cs (rest ++ after)) (next : Matches q (before ++ cs) rest after) :
      Matches (.followed p q) before (cs ++ rest) after

/-- Some stretch of the text matches. -/
def Found (p : Pattern) (text : String) : Prop :=
  ∃ before cs after, text.toList = before ++ cs ++ after ∧ p.Matches before cs after

variable {first last : Char} {before cs after : List Char}

theorem range_of_matches_repeated (h : Matches (.repeated (.among first last)) before cs after) :
    cs ≠ [] ∧ ∀ c ∈ cs, first ≤ c ∧ c ≤ last := by
  generalize hp : Pattern.repeated (.among first last) = p at h
  induction h with
  | once one =>
    cases hp
    cases one with
    | among low high => simp [low, high]
  | again one _ _ ih =>
    obtain ⟨-, hrest⟩ := ih hp
    cases hp
    cases one with
    | among low high => simpa [low, high] using hrest
  | _ => cases hp

/-- A repeated range takes characters of the range, and at least one of them. -/
theorem matches_repeated_among_iff : Matches (.repeated (.among first last)) before cs after ↔
    cs ≠ [] ∧ ∀ c ∈ cs, first ≤ c ∧ c ≤ last := by
  constructor
  · exact range_of_matches_repeated
  · intro h
    obtain ⟨hne, hrange⟩ := h
    induction cs generalizing before with
    | nil => exact absurd rfl hne
    | cons c rest ih =>
      obtain ⟨⟨low, high⟩, hrest⟩ := List.forall_mem_cons.mp hrange
      by_cases hlast : rest = []
      · obtain rfl := hlast
        exact .once (.among low high)
      · exact .again (.among low high) (ih hlast hrest)

end Pattern

end FlatSchema.Text
