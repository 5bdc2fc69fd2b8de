import SpecServer.Engine.Discovery
import SpecServer.Workspace.Basic
set_option autoImplicit false

/-!
Which documents the handling of an event may read. Whoever keeps the files of the disk apart from this state
has to provide these.
-/

namespace SpecServer.Workspace

def referenced (workspace : Workspace) (input : Uri) : List Uri :=
  match (workspace.store.read input).1 with
  | .ok (some text) =>
    match Input.parse input text with
    | .ok document => (Reference.collect Path.root document).filterMap fun found => Reference.target? input found.2
    | .error _ => []
  | _ => []

/-- The documents that an event about some documents may read: these and the tracked ones, all configurations
that may govern them, and what the contexts process. -/
def reads (workspace : Workspace) (uris : List Uri) : List Uri :=
  let documents := uris.map Uri.normalize ++ workspace.store.files.map Prod.fst
  let configurations := documents.flatMap fun document => Discovery.candidates document.folder
  let inputs := workspace.registry.contexts.flatMap fun entry =>
    entry.2.configuration :: entry.2.inputs ++ entry.2.session.known
  (documents ++ configurations ++ inputs ++ inputs.flatMap workspace.referenced).eraseDups

/-- The places on the disk that an event about some documents may look at. -/
def places (workspace : Workspace) (uris : List Uri) : List Place :=
  let files := (workspace.reads uris).filterMap Uri.filePath?
  let shadows := uris.filterMap fun uri => uri.normalize.shadowPath?
  (files ++ shadows).map fun path => (Disk.names path).foldl Disk.step []

end SpecServer.Workspace
