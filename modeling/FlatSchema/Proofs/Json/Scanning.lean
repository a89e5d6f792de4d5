import FlatSchema.Json.Printer
import FlatSchema.Json.Token

namespace FlatSchema.Json

/-- What separates an item from the one before it. -/
def separator (first : Bool) : List Token := if first then [] else [.comma]

mutual

/-- The tokens of a document. -/
def tokens : Json → List Token
  | bool value => [.bool value]
  | text value => [.text (some value)]
  | array items => .openArray :: itemTokens true items ++ [.closeArray]
  | object members => .openObject :: memberTokens true members ++ [.closeObject]

def itemTokens (first : Bool) : List Json → List Token
  | [] => []
  | x :: xs => separator first ++ tokens x ++ itemTokens false xs

def memberTokens (first : Bool) : List (String × Json) → List Token
  | [] => []
  | (key, x) :: ms =>
    separator first ++ .text (some key) :: .colon :: tokens x ++ memberTokens false ms

end

namespace Scanner

/-- The scanner has found these tokens, the last of which may be a word that nothing has ended. -/
inductive Settled : Scanner → List Token → Prop where
  | between {found : List Token} : Settled ⟨.between, found⟩ found
  | word {read : List Char} {found : List Token} :
      Settled ⟨.word read, found⟩ (wordToken read.reverse :: found)

/-- What ends a word is read as if no word had been open. -/
theorem Settled.step {s : Scanner} {found : List Token} {c : Char} (h : s.Settled found)
    (hc : endsWord c) : s.step c = Scanner.between ⟨.between, found⟩ c := by
  cases h with
  | between => rfl
  | word => simp [Scanner.step, hc, emit]

theorem Settled.tokens_eq {s : Scanner} {found : List Token} (h : s.Settled found) :
    s.tokens = found.reverse := by
  cases h <;> rfl

end Scanner

open Scanner

theorem hexValue?_digitChar : ∀ n < 16, hexValue? (Nat.digitChar n) = some n := by decide

theorem ofUnit_toNat {c : Char} (h : c < ' ') :
    Piece.ofUnit (16 * (c.toNat / 16) + c.toNat % 16) = .char c := by
  have hn : c.toNat < 32 := h
  rw [Nat.div_add_mod, Piece.ofUnit, if_neg (by simp; omega), Char.ofNat_toNat]

/-- Inside a quoted text a printed character is read as itself. -/
theorem scan_printedChar (c : Char) (read : List Piece) (found : List Token) :
    (printedChar c).foldl step ⟨.text read, found⟩ = ⟨.text (.char c :: read), found⟩ := by
  unfold printedChar
  repeat' split
  any_goals
    subst c
    rfl
  · rename_i h
    have hn : c.toNat < 32 := h
    have hhigh := hexValue?_digitChar (c.toNat / 16) (by omega)
    have hlow := hexValue?_digitChar (c.toNat % 16) (by omega)
    have hzero : hexValue? '0' = some 0 := rfl
    simp [step, hzero, hhigh, hlow, ofUnit_toNat h]
  · rename_i hquote hslash _ _ _ _ _ h
    simp [step, hquote, hslash, h]

theorem scan_printedChars (cs : List Char) (read : List Piece) (found : List Token) :
    (cs.flatMap printedChar).foldl step ⟨.text read, found⟩ =
      ⟨.text ((cs.map Piece.char).reverse ++ read), found⟩ := by
  induction cs generalizing read with
  | nil => rfl
  | cons c cs ih => simp [List.foldl_append, scan_printedChar, ih]

theorem join_map_char (cs : List Char) : Piece.join (cs.map Piece.char) = some cs := by
  induction cs with
  | nil => rfl
  | cons c cs ih => simp [Piece.join, ih]

theorem scan_printedText (s : String) (found : List Token) :
    (printedText s).foldl step ⟨.between, found⟩ = ⟨.between, .text (some s) :: found⟩ := by
  have hopen : step ⟨.between, found⟩ '"' = ⟨.text [], found⟩ := rfl
  have hclose : ∀ read, step ⟨.text read, found⟩ '"' =
      ⟨.between, .text ((Piece.join read.reverse).map String.ofList) :: found⟩ := fun _ => rfl
  simp [printedText, List.foldl_append, hopen, scan_printedChars, hclose, join_map_char]

theorem scan_line (style : Style) (depth : Nat) (found : List Token) :
    (style.line depth).foldl step ⟨.between, found⟩ = ⟨.between, found⟩ := by
  have hspaces : ∀ n, (List.replicate n ' ').foldl step ⟨.between, found⟩ = ⟨.between, found⟩ := by
    intro n
    induction n with
    | zero => rfl
    | succ n ih => exact ih
  cases style with
  | compact => rfl
  | pretty => exact hspaces (2 * depth)

theorem scan_colon (style : Style) (found : List Token) :
    style.colon.foldl step ⟨.between, found⟩ = ⟨.between, .colon :: found⟩ := by
  cases style <;> rfl

/-- The start of a new line ends a word too. -/
theorem Scanner.Settled.line {s : Scanner} {found : List Token} (h : s.Settled found)
    (style : Style) (depth : Nat) : ((style.line depth).foldl Scanner.step s).Settled found := by
  cases style with
  | compact => exact h
  | pretty =>
    have hstep : Scanner.step s '\n' = ⟨.between, found⟩ := h.step rfl
    have hline := scan_line .pretty depth found
    rw [Style.line, List.foldl_cons] at hline ⊢
    rw [hstep]
    exact hline.symm ▸ .between

/-- Up to an item, the comma before it is all that is found. -/
theorem scan_separator {s : Scanner} {found : List Token} (h : s.Settled found) {first : Bool}
    (hf : first = true → s = ⟨.between, found⟩) (style : Style) (depth : Nat) :
    (comma first ++ style.line depth).foldl step s =
      ⟨.between, (separator first).reverse ++ found⟩ := by
  rw [List.foldl_append]
  cases first with
  | true =>
    rw [hf rfl]
    exact scan_line style depth found
  | false =>
    have hstep : s.step ',' = ⟨.between, .comma :: found⟩ := h.step rfl
    rw [comma, if_neg (by simp), List.foldl_cons, hstep]
    exact scan_line style depth _

mutual

theorem scan_print (style : Style) (depth : Nat) (j : Json) (found : List Token) :
    ((print style depth j).foldl step ⟨.between, found⟩).Settled ((tokens j).reverse ++ found) := by
  match j with
  | .bool true => exact .word
  | .bool false => exact .word
  | .text value =>
    rw [print, scan_printedText]
    exact .between
  | .array [] => exact .between
  | .array (x :: xs) =>
    have hinside : Settled ⟨.between, .openArray :: found⟩ (.openArray :: found) := .between
    have hitems := (scan_items style (depth + 1) true (x :: xs) hinside
      (fun _ => rfl)).line style depth
    have hopen : Scanner.step ⟨.between, found⟩ '[' = ⟨.between, .openArray :: found⟩ := rfl
    have hclose : ∀ found, Scanner.between ⟨.between, found⟩ ']' =
        ⟨.between, .closeArray :: found⟩ := fun _ => rfl
    rw [print, List.cons_append, List.cons_append, List.foldl_cons, hopen, List.foldl_append,
      List.foldl_append, List.foldl_cons, hitems.step rfl, hclose]
    simpa [tokens] using Scanner.Settled.between
  | .object [] => exact .between
  | .object (m :: ms) =>
    have hinside : Settled ⟨.between, .openObject :: found⟩ (.openObject :: found) := .between
    have hmembers := (scan_members style (depth + 1) true (m :: ms) hinside
      (fun _ => rfl)).line style depth
    have hopen : Scanner.step ⟨.between, found⟩ '\x7b' = ⟨.between, .openObject :: found⟩ := rfl
    have hclose : ∀ found, Scanner.between ⟨.between, found⟩ '\x7d' =
        ⟨.between, .closeObject :: found⟩ := fun _ => rfl
    rw [print, List.cons_append, List.cons_append, List.foldl_cons, hopen, List.foldl_append,
      List.foldl_append, List.foldl_cons, hmembers.step rfl, hclose]
    simpa [tokens] using Scanner.Settled.between

theorem scan_items (style : Style) (depth : Nat) (first : Bool) (xs : List Json) {s : Scanner}
    {found : List Token} (h : s.Settled found) (hf : first = true → s = ⟨.between, found⟩) :
    ((printItems style depth first xs).foldl step s).Settled
      ((itemTokens first xs).reverse ++ found) := by
  match xs with
  | [] => exact h
  | x :: xs =>
    -- Only the first item needs a scanner between tokens: a comma ends any word before the others.
    have hx := scan_print style depth x ((separator first).reverse ++ found)
    have hxs := scan_items style depth false xs hx (by simp)
    rw [printItems, List.foldl_append, List.foldl_append, scan_separator h hf]
    simpa [itemTokens] using hxs

theorem scan_members (style : Style) (depth : Nat) (first : Bool) (ms : List (String × Json))
    {s : Scanner} {found : List Token} (h : s.Settled found)
    (hf : first = true → s = ⟨.between, found⟩) :
    ((printMembers style depth first ms).foldl step s).Settled
      ((memberTokens first ms).reverse ++ found) := by
  match ms with
  | [] => exact h
  | (key, x) :: ms =>
    have hx := scan_print style depth x
      (.colon :: .text (some key) :: ((separator first).reverse ++ found))
    have hms := scan_members style depth false ms hx (by simp)
    rw [printMembers, List.foldl_append, List.foldl_append, List.foldl_append, List.foldl_append,
      scan_separator h hf, scan_printedText, scan_colon]
    simpa [memberTokens] using hms

end

/-- The tokens of a printed document are the tokens of the document. -/
theorem tokensOf_print (style : Style) (j : Json) : tokensOf (print style 0 j) = tokens j := by
  have hsettled := scan_print style 0 j []
  rw [List.append_nil] at hsettled
  rw [tokensOf, Scanner.start, ← List.reverse_reverse (tokens j)]
  exact hsettled.tokens_eq

/-- A line break after a printed document adds no token. -/
theorem tokensOf_print_line (style : Style) (j : Json) :
    tokensOf (print style 0 j ++ ['\n']) = tokens j := by
  have hsettled := scan_print style 0 j []
  rw [List.append_nil] at hsettled
  have hbreak : Scanner.step _ '\n' = ⟨.between, (tokens j).reverse⟩ := hsettled.step rfl
  rw [tokensOf, Scanner.start, List.foldl_append, List.foldl_cons, hbreak]
  exact List.reverse_reverse (tokens j)

end FlatSchema.Json
