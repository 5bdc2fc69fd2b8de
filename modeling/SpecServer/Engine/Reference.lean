import SpecServer.Engine.Input
import SpecServer.Engine.Source
set_option autoImplicit false

/-!
The references of a document: where they stand, and whether the nodes they name exist. A reference names a
node of its own document or of another one, which is read once in a pass.
-/

namespace SpecServer.Reference

mutual

def collect (path : Path) : Json → List (Path × String)
  | .object fields => collectFields path fields
  | .array items => collectItems path 0 items
  | _ => []

def collectFields (path : Path) : List (String × Json) → List (Path × String)
  | [] => []
  | (key, value) :: rest =>
    let here :=
      match value with
      | .string reference => if key = "$ref" then [(path.key key, reference)] else []
      | value => collect (path.key key) value
    here ++ collectFields path rest

/-- The references below the items of an array, which are numbered from `i` on. -/
def collectItems (path : Path) (i : Nat) : List Json → List (Path × String)
  | [] => []
  | item :: rest => collect (path.index i) item ++ collectItems path (i + 1) rest

end

/-- The documents that references led to in a pass. One that could not be read or parsed is kept as
nothing. -/
abbrev Externals := List (Uri × Option Json)

def split (reference : String) : String × String :=
  match Text.splitOnce '#' reference.toList with
  | some (target, fragment) => (String.ofList target, String.ofList fragment)
  | none => (reference, "")

/-- The other document that a reference in a document leads to, if it leads to one. -/
def target? (input : Uri) (reference : String) : Option Uri :=
  let target := (split reference).1
  if target.isEmpty then none else (input.join target).toOption.map Uri.normalize

variable {σ : Type}

/-- The document under a URI; it is read only if it is not known yet. -/
def external (source : Source σ) (target : Uri) (externals : Externals) (s : σ) : Option Json × Externals × σ :=
  match Entries.get? externals target with
  | some known => (known, externals, s)
  | none =>
    let (content, s) := source.read target s
    let document :=
      match content with
      | .ok (some text) => (Input.parse target text).toOption
      | _ => none
    (document, (target, document) :: externals, s)

def resolves (source : Source σ) (input : Uri) (document : Json) (reference : String) (externals : Externals) (s : σ) :
    Bool × Externals × σ :=
  let (target, fragment) := split reference
  match Path.ofPointer? fragment with
  | none => (false, externals, s)
  | some path =>
    if target.isEmpty then ((path.resolve document).isSome, externals, s)
    else
      match input.join target with
      | .error _ => (false, externals, s)
      | .ok joined =>
        let (found, externals, s) := external source joined.normalize externals s
        ((found.bind path.resolve).isSome, externals, s)

def dangling (input : Uri) (text : String) (path : Path) (reference : String) : Message :=
  .onFound .error ("Unresolved reference '" ++ reference ++ "'") (Input.rangeOf input text path)

def checkAll (source : Source σ) (input : Uri) (text : String) (document : Json) :
    List (Path × String) → Externals → σ → List Message × Externals × σ
  | [], externals, s => ([], externals, s)
  | (path, reference) :: rest, externals, s =>
    let (found, externals, s) := resolves source input document reference externals s
    let (messages, externals, s) := checkAll source input text document rest externals s
    (if found then messages else dangling input text path reference :: messages, externals, s)

def check (source : Source σ) (input : Uri) (text : String) (document : Json) (externals : Externals) (s : σ) :
    List Message × Externals × σ :=
  checkAll source input text document (collect Path.root document) externals s

end SpecServer.Reference
