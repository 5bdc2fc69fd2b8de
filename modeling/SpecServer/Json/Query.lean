import SpecServer.Json.Path
import SpecServer.Text.Blank
set_option autoImplicit false

/-!
Path expressions with wildcards: `$`, `.name`, `['name']`, `[n]`, `.*` and `[*]`. A query walks a document
along the selectors and gives the nodes it ends at with their paths.
-/

namespace SpecServer

inductive Selector where
  | key (name : String)
  | index (i : Nat)
  | wildcard
deriving DecidableEq, Repr

namespace Query

/-- The text between two equal quotes. A lone quote is no quoted text. -/
def unquote? (token : List Char) : Option (List Char) :=
  match token with
  | q :: rest => if q = '\x27' ∨ q = '\x22' then Text.before? [q] rest else none
  | [] => none

def bracketed? (token : List Char) : Option Selector :=
  let trimmed := Text.trim token
  if trimmed = ['*'] then some .wildcard
  else
    match unquote? trimmed with
    | some name => some (.key (String.ofList name))
    | none => (Decimal.index? trimmed).map .index

def endsName (c : Char) : Bool :=
  c == '.' || c == '['

/-- The selectors of an expression after its dollar sign. `fuel` is at least the length of the text; each
selector takes a character. -/
def selectorsFrom? : Nat → List Char → Option (List Selector)
  | 0, text => if text.isEmpty then some [] else none
  | fuel + 1, text =>
    match text with
    | [] => some []
    | '.' :: '*' :: rest => (selectorsFrom? fuel rest).map (.wildcard :: ·)
    | '.' :: rest =>
      match rest.takeWhile (!endsName ·) with
      | [] => none
      | name => (selectorsFrom? fuel (rest.dropWhile (!endsName ·))).map (.key (String.ofList name) :: ·)
    | '[' :: rest =>
      match Text.splitOnce ']' rest with
      | none => none
      | some (token, after) =>
        match bracketed? token with
        | none => none
        | some selector => (selectorsFrom? fuel after).map (selector :: ·)
    | _ => none

/-- The selectors of an expression, or nothing if it is none of this form. -/
def parse? (expression : String) : Option (List Selector) :=
  match Text.trim expression.toList with
  | '$' :: rest => selectorsFrom? rest.length rest
  | _ => none

def numbered (path : Path) (i : Nat) : List Json → List (Path × Json)
  | [] => []
  | item :: rest => (path.index i, item) :: numbered path (i + 1) rest

def step (selector : Selector) (found : Path × Json) : List (Path × Json) :=
  let (path, node) := found
  match selector, node with
  | .key name, .object fields => ((Entries.get? fields name).map fun child => (path.key name, child)).toList
  | .index i, .array items => (items[i]?.map fun child => (path.index i, child)).toList
  | .wildcard, .object fields => fields.map fun field => (path.key field.1, field.2)
  | .wildcard, .array items => numbered path 0 items
  | _, _ => []

def walk (selectors : List Selector) (found : List (Path × Json)) : List (Path × Json) :=
  selectors.foldl (fun nodes selector => nodes.flatMap (step selector)) found

/-- The nodes of a document that an expression describes, or nothing if it is no path expression. -/
def run? (document : Json) (expression : String) : Option (List (Path × Json)) :=
  (parse? expression).map fun selectors => walk selectors [(Path.root, document)]

end Query

end SpecServer
