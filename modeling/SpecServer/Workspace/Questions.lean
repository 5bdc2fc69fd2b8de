import SpecServer.Cursor
import SpecServer.Workspace.Basic
set_option autoImplicit false

/-!
What the editor asks about documents: what stands under the cursor, where it is defined, and the merged
definition of a document's context.
-/

namespace SpecServer

structure Location where
  uri : Uri
  span : Span
deriving DecidableEq, Repr

namespace Workspace

/-- The text of a document and the merged definition of its context, if there are both. -/
def subject? (workspace : Workspace) (uri : Uri) : Option (String × Definition) × Workspace :=
  let uri := uri.normalize
  match workspace.definition? uri with
  | (none, workspace) => (none, workspace)
  | (some definition, workspace) =>
    match workspace.content? uri with
    | (none, workspace) => (none, workspace)
    | (some text, workspace) => (some (text, definition), workspace)

def hover (workspace : Workspace) (uri : Uri) (position : Text.Position) : List Cursor.Content × Workspace :=
  match workspace.subject? uri with
  | (none, workspace) => ([], workspace)
  | (some (text, definition), workspace) => (Cursor.hover text definition position, workspace)

/-- Where nodes are defined. Documents that cannot be read are left out; where a document does not show the
node, its start is taken. -/
def locate (workspace : Workspace) : List (Uri × Path) → List Location × Workspace
  | [] => ([], workspace)
  | (source, path) :: rest =>
    let (content, store) := workspace.store.read source
    let workspace := { workspace with store := store }
    match content with
    | .error failure => locate (workspace.log .debug failure.message) rest
    | .ok none => locate workspace rest
    | .ok (some text) =>
      let found := Locate.place? text path
      let place := (found.getD none).getD .start
      let (locations, workspace) := locate { workspace with endless := workspace.endless || found.isNone } rest
      (⟨source.editorForm, ⟨place, place⟩⟩ :: locations, workspace)

def definitions (workspace : Workspace) (uri : Uri) (position : Text.Position) : List Location × Workspace :=
  match workspace.subject? uri with
  | (none, workspace) => ([], workspace)
  | (some (text, definition), workspace) => workspace.locate (Cursor.targets text definition position)

end Workspace

end SpecServer
