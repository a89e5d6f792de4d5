import FlatSchema.Json.Token

namespace FlatSchema.Json

/-- A value of a document. Containers that are not closed hold what comes before a fault. -/
inductive Tree where
  | null
  | bool (value : Bool)
  | number (value : Numeral)
  | text (value : Option String)
  | array (items : List Tree) (closed : Bool)
  | object (members : List (Option String × Tree)) (closed : Bool)

/-- A container that is being read, its last part first. -/
inductive Frame where
  | array (items : List Tree)
  | object (members : List (Option String × Tree))
  /-- An object that waits for the value of a key. -/
  | member (members : List (Option String × Tree)) (key : Option String)

inductive Expected where
  | value
  | firstItem
  | firstKey
  | key
  | colon
  /-- A comma or the end of the container. -/
  | next
deriving DecidableEq

/-- How far a document has been read. The frames are the open containers, the innermost first. -/
inductive Progress where
  | inside (frames : List Frame) (expected : Expected)
  | done (root : Tree)
  /-- A whole value is followed by something else. -/
  | trailing (root : Tree)
  /-- A fault, and the tree before it, if a container was open there. -/
  | broken (root : Option Tree)

namespace Progress

/-- Leaves the open containers unclosed. -/
def abandon : Option Tree → List Frame → Option Tree
  | inner, [] => inner
  | inner, .array items :: frames =>
    abandon (some (.array (inner.toList ++ items).reverse false)) frames
  | _, .object members :: frames => abandon (some (.object members.reverse false)) frames
  | inner, .member members key :: frames =>
    let last := inner.toList.map (fun t => (key, t))
    abandon (some (.object (last ++ members).reverse false)) frames

def place (value : Tree) : List Frame → Progress
  | [] => done value
  | .array items :: frames => inside (.array (value :: items) :: frames) .next
  | .member members key :: frames => inside (.object ((key, value) :: members) :: frames) .next
  | .object members :: frames => broken (abandon none (.object members :: frames))

/-- Reads a token where a value may start. -/
def value (frames : List Frame) : Token → Progress
  | .null => place .null frames
  | .bool b => place (.bool b) frames
  | .number n => place (.number n) frames
  | .text t => place (.text t) frames
  | .openArray => inside (.array [] :: frames) .firstItem
  | .openObject => inside (.object [] :: frames) .firstKey
  | _ => broken (abandon none frames)

def within (frames : List Frame) (expected : Expected) (token : Token) : Progress :=
  match expected, frames, token with
  | .value, _, _ => value frames token
  | .firstItem, .array items :: rest, .closeArray => place (.array items.reverse true) rest
  | .firstItem, _, _ => value frames token
  | .firstKey, .object members :: rest, .closeObject => place (.object members.reverse true) rest
  | .firstKey, .object members :: rest, .text key => inside (.member members key :: rest) .colon
  | .key, .object members :: rest, .text key => inside (.member members key :: rest) .colon
  | .colon, _, .colon => inside frames .value
  | .next, .array _ :: _, .comma => inside frames .value
  | .next, .array items :: rest, .closeArray => place (.array items.reverse true) rest
  | .next, .object _ :: _, .comma => inside frames .key
  | .next, .object members :: rest, .closeObject => place (.object members.reverse true) rest
  | _, _, _ => broken (abandon none frames)

def step (p : Progress) (token : Token) : Progress :=
  match p with
  | inside frames expected => within frames expected token
  | done root => trailing root
  | trailing root => trailing root
  | broken root => broken root

end Progress

/-- What a text holds: a value, if at least a container or a whole value could be read, and
whether something else follows it. -/
structure Document where
  root : Option Tree
  trailing : Bool

/-- The document at the end of its text. -/
def Progress.document : Progress → Document
  | inside frames _ => ⟨abandon none frames, false⟩
  | done root => ⟨some root, false⟩
  | trailing root => ⟨some root, true⟩
  | broken root => ⟨root, false⟩

def Document.ofTokens (tokens : List Token) : Document :=
  (tokens.foldl Progress.step (.inside [] .value)).document

def Document.ofText (text : String) : Document := .ofTokens (tokensOf text.toList)

namespace Tree

/-- Whether nothing in a value is cut off by a fault. -/
def isClosed : Tree → Bool
  | array _ closed => closed
  | object _ closed => closed
  | _ => true

def maxDepth : Nat := 127

mutual

/-- Whether a value can be read as a whole: it is closed, its texts and keys have values, its
numbers are finite, and its containers lie within the depth limit. The depth is that of the
containers around it. -/
def isWhole (depth : Nat) : Tree → Bool
  | null => true
  | bool _ => true
  | number n => n.isFinite
  | text value => value.isSome
  | array items closed => closed && depth < maxDepth && allWhole (depth + 1) items
  | object members closed => closed && depth < maxDepth && membersWhole (depth + 1) members

def allWhole (depth : Nat) : List Tree → Bool
  | [] => true
  | t :: ts => isWhole depth t && allWhole depth ts

def membersWhole (depth : Nat) : List (Option String × Tree) → Bool
  | [] => true
  | (key, t) :: ms => key.isSome && isWhole depth t && membersWhole depth ms

end

mutual

/-- The value in which each object keeps only the last member of a key. -/
def lastMembers : Tree → Tree
  | array items closed => array (lastMembersAll items) closed
  | object members closed => object (lastMembersOf members) closed
  | other => other

def lastMembersAll : List Tree → List Tree
  | [] => []
  | t :: ts => lastMembers t :: lastMembersAll ts

def lastMembersOf : List (Option String × Tree) → List (Option String × Tree)
  | [] => []
  | (key, t) :: ms =>
    let rest := lastMembersOf ms
    if rest.any (fun m => m.1 == key) then rest else (key, lastMembers t) :: rest

end

end Tree

end FlatSchema.Json
