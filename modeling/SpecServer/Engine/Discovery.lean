import SpecServer.Engine.Source
import SpecServer.Literate
set_option autoImplicit false

/-!
Finding the configuration that governs a folder: the nearest one upwards, looked for under two names in each
folder.
-/

namespace SpecServer.Discovery

def names : List String := ["readme.md", "README.md"]

variable {σ : Type}

def inFolder (source : Source σ) (folder current : Uri) : List String → σ → Except EngineError (Option Uri) × σ
  | [], s => (.ok none, s)
  | name :: rest, s =>
    match current.join name with
    | .error error => (.error (.discovery folder error), s)
    | .ok joined =>
      let candidate := joined.normalize
      match source.read candidate s with
      | (.error failure, s) => (.error (.unreadable failure), s)
      | (.ok content, s) =>
        if content.any Literate.isConfiguration then (.ok (some candidate), s)
        else inFolder source folder current rest s

/-- Looks for a configuration in a folder and those above it. `fuel` bounds the number of folders. -/
def upward (source : Source σ) (folder : Uri) : Nat → Uri → σ → Except EngineError (Option Uri) × σ
  | 0, _, s => (.ok none, s)
  | fuel + 1, current, s =>
    match inFolder source folder current names s with
    | (.error error, s) => (.error error, s)
    | (.ok (some found), s) => (.ok (some found), s)
    | (.ok none, s) =>
      match current.join ".." with
      | .error error => (.error (.discovery folder error), s)
      | .ok parent => if parent = current then (.ok none, s) else upward source folder fuel parent s

/-- How many folders there may be from a folder upwards. Each one's text is shorter than that of the one below
it, but for a query and an empty path at the start. -/
def height (folder : Uri) : Nat :=
  folder.text.length + 4

/-- The configuration that governs a folder. Nothing governs an opaque URI. -/
def find (source : Source σ) (folder : Uri) (s : σ) : Except EngineError (Option Uri) × σ :=
  if folder.isOpaque then (.ok none, s) else upward source folder (height folder) folder s

def folders : Nat → Uri → List Uri
  | 0, _ => []
  | fuel + 1, current =>
    match current.join ".." with
    | .error _ => [current]
    | .ok parent => if parent = current then [current] else current :: folders fuel parent

/-- The places where a configuration may be looked for, the nearest first. -/
def candidates (folder : Uri) : List Uri :=
  if folder.isOpaque then []
  else
    (folders (height folder) folder).flatMap fun current =>
      names.filterMap fun name => (current.join name).toOption.map Uri.normalize

end SpecServer.Discovery
