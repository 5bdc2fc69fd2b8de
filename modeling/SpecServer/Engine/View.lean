import SpecServer.Engine.Message
import SpecServer.Json.Basic
import SpecServer.Text.Blank
set_option autoImplicit false

/-!
The configuration in force in a context: its entries, and the folder that the names in it are relative to.
-/

namespace SpecServer

structure View where
  folder : Uri
  entries : Entries String Json
deriving DecidableEq

namespace View

def inputEntry : String := "input-file"

/-- The names of the declared inputs: a single text or the texts of an array. -/
def declared (view : View) : List String :=
  match view.entries.get? inputEntry with
  | some (.string name) => [name]
  | some (.array items) => items.filterMap Json.asString?
  | _ => []

/-- The document that a declared name means, if it means any. -/
def resolve? (view : View) (name : String) : Option Uri :=
  ((view.folder.join (String.ofList (Text.trim name.toList))).toOption).map Uri.normalize

def inputs (view : View) : List Uri :=
  (view.declared.filterMap view.resolve?).foldl (fun found uri => if found.contains uri then found else found ++ [uri]) []

def isEnabled (view : View) (key : String) : Bool :=
  match view.entries.get? key with
  | some (.bool true) => true
  | _ => false

end View

end SpecServer
