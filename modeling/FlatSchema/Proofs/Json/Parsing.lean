import FlatSchema.Json.Reader
import FlatSchema.Proofs.Json.Scanning

namespace FlatSchema.Json

mutual

/-- The tree of a document. -/
def tree : Json → Tree
  | bool value => .bool value
  | text value => .text (some value)
  | array items => .array (trees items) true
  | object members => .object (memberTrees members) true

def trees : List Json → List Tree
  | [] => []
  | x :: xs => tree x :: trees xs

def memberTrees : List (String × Json) → List (Option String × Tree)
  | [] => []
  | (key, x) :: ms => (some key, tree x) :: memberTrees ms

end

@[simp] theorem trees_eq_map (xs : List Json) : trees xs = xs.map tree := by
  induction xs with
  | nil => rfl
  | cons x xs ih => rw [trees, ih, List.map_cons]

@[simp] theorem memberTrees_eq_map (ms : List (String × Json)) :
    memberTrees ms = ms.map (fun m => (some m.1, m.2.tree)) := by
  induction ms with
  | nil => rfl
  | cons m ms ih => rw [memberTrees, ih, List.map_cons]

open Progress

/-- No document starts with the end of an array, so its first item is a value like any other. -/
theorem parse_firstItem (j : Json) (frames : List Frame) :
    (tokens j).foldl step (inside frames .firstItem) =
      (tokens j).foldl step (inside frames .value) := by
  cases j <;> cases frames with
  | nil => rfl
  | cons frame => cases frame <;> rfl

/-- What may come before an item or a closing bracket. -/
def beforeItem (first : Bool) : Expected := if first then .firstItem else .next

/-- What may come before a member or a closing bracket. -/
def beforeMember (first : Bool) : Expected := if first then .firstKey else .next

mutual

/-- The tokens of a document are read to its tree. -/
theorem parse_tokens (j : Json) (frames : List Frame) :
    (tokens j).foldl step (inside frames .value) = place j.tree frames := by
  match j with
  | .bool _ => rfl
  | .text _ => rfl
  | .array xs =>
    have hitems := parse_items true xs [] frames
    have hopen : step (inside frames .value) .openArray =
        inside (.array [] :: frames) (beforeItem true) := rfl
    rw [tokens, List.cons_append, List.foldl_cons, hopen, hitems]
    rfl
  | .object ms =>
    have hmembers := parse_members true ms [] frames
    have hopen : step (inside frames .value) .openObject =
        inside (.object [] :: frames) (beforeMember true) := rfl
    rw [tokens, List.cons_append, List.foldl_cons, hopen, hmembers]
    rfl

theorem parse_items (first : Bool) (xs : List Json) (read : List Tree) (frames : List Frame) :
    (itemTokens first xs ++ [Token.closeArray]).foldl step
        (inside (.array read :: frames) (beforeItem first)) =
      place (.array (read.reverse ++ trees xs) true) frames := by
  match xs with
  | [] => cases first <;> simp [itemTokens, beforeItem, step, within, trees]
  | x :: xs =>
    have hx := parse_tokens x (.array read :: frames)
    have hxs := parse_items false xs (x.tree :: read) frames
    have hseparator : (tokens x).foldl step ((separator first).foldl step
        (inside (.array read :: frames) (beforeItem first))) =
        (tokens x).foldl step (inside (.array read :: frames) .value) := by
      cases first with
      | true => exact parse_firstItem x _
      | false => rfl
    have hplace : place x.tree (.array read :: frames) =
        inside (.array (x.tree :: read) :: frames) (beforeItem false) := rfl
    rw [itemTokens, List.append_assoc, List.append_assoc, List.foldl_append, List.foldl_append,
      hseparator, hx, hplace, hxs, List.reverse_cons, List.append_assoc]
    rfl

theorem parse_members (first : Bool) (ms : List (String × Json))
    (read : List (Option String × Tree)) (frames : List Frame) :
    (memberTokens first ms ++ [Token.closeObject]).foldl step
        (inside (.object read :: frames) (beforeMember first)) =
      place (.object (read.reverse ++ memberTrees ms) true) frames := by
  match ms with
  | [] => cases first <;> simp [memberTokens, beforeMember, step, within, memberTrees]
  | (key, x) :: ms =>
    have hx := parse_tokens x (.member read (some key) :: frames)
    have hms := parse_members false ms ((some key, x.tree) :: read) frames
    have hkey : (separator first ++ [Token.text (some key), .colon]).foldl step
        (inside (.object read :: frames) (beforeMember first)) =
        inside (.member read (some key) :: frames) .value := by
      cases first <;> rfl
    have hplace : place x.tree (.member read (some key) :: frames) =
        inside (.object ((some key, x.tree) :: read) :: frames) (beforeMember false) := rfl
    have htokens : memberTokens first ((key, x) :: ms) ++ [.closeObject] =
        (separator first ++ [Token.text (some key), .colon]) ++
          (tokens x ++ (memberTokens false ms ++ [.closeObject])) := by
      simp [memberTokens]
    rw [htokens, List.foldl_append, List.foldl_append, hkey, hx, hplace, hms, List.reverse_cons,
      List.append_assoc]
    rfl

end

/-- The document of a text that has the tokens of a printed one. -/
theorem ofText_of_tokens {text : String} {j : Json} (h : tokensOf text.toList = tokens j) :
    Document.ofText text = ⟨some j.tree, false⟩ := by
  have hparse : (tokens j).foldl step (inside [] .value) = done j.tree := parse_tokens j []
  rw [Document.ofText, h, Document.ofTokens, hparse]
  rfl

theorem readDocument_of_tokens {α : Type} {text : String} {j : Json}
    (h : tokensOf text.toList = tokens j) (read : Reader α) :
    readDocument read text = read j.tree := by
  rw [readDocument, ofText_of_tokens h]
  exact bind_pure (read j.tree)

/-- A printed text is read as the tree of the document. -/
theorem readDocument_render {α : Type} (read : Reader α) (style : Style) (j : Json) :
    readDocument read (j.render style) = read j.tree := by
  refine readDocument_of_tokens ?_ read
  rw [render, String.toList_ofList, tokensOf_print]

/-- So is a printed text with a line break after it. -/
theorem readDocument_line {α : Type} (read : Reader α) (style : Style) (j : Json) :
    readDocument read (j.render style ++ "\n") = read j.tree := by
  refine readDocument_of_tokens ?_ read
  rw [render, String.toList_append, String.toList_ofList]
  exact tokensOf_print_line style j

end FlatSchema.Json
