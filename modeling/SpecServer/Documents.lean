import SpecServer.Diagnostic
import SpecServer.Disk
import SpecServer.Engine.Source
import SpecServer.Text.Case
import SpecServer.Uri.FilePath
import SpecServer.Uri.Naming
set_option autoImplicit false

/-!
Documents and where their content comes from: the editor while it has them open, and the disk otherwise. A
document that was tracked once stays tracked under the normal form of its URI. The generation counts how often
the content was replaced; a text that is kept never changes without it.
-/

namespace SpecServer

/-- A tracked document. Without content, the disk has to be read; a document is active while the editor has it
open. -/
structure Document where
  uri : Uri
  content : Option String
  generation : Nat
  active : Bool
  diagnostics : List Diagnostic
deriving DecidableEq, Repr

namespace Document

def fresh (uri : Uri) : Document := ⟨uri, none, 0, false, []⟩

def setContent (document : Document) (content : Option String) : Document :=
  { document with content := content, generation := document.generation + 1 }

/-- Keeps what was read from the disk, which is no new content. -/
def keep (document : Document) (text : String) : Document :=
  { document with content := some text }

def setActive (document : Document) (active : Bool) : Document :=
  { document with active := active }

def push (document : Document) (diagnostic : Diagnostic) : Document :=
  { document with diagnostics := document.diagnostics ++ [diagnostic] }

def clear (document : Document) : Document :=
  { document with diagnostics := [] }

end Document

/-- The diagnostics of a document, as they are sent to the editor under the URI that it uses. -/
structure Publication where
  uri : Uri
  diagnostics : List Diagnostic
deriving DecidableEq, Repr

/-- The tracked documents in the order in which they were met, the disk behind them, and the publications that
are still to be sent. -/
structure Store where
  disk : Disk
  files : List (Uri × Document)
  pending : List Publication
deriving DecidableEq, Repr

namespace Store

def start (disk : Disk) : Store := ⟨disk, [], []⟩

def file? (store : Store) (key : Uri) : Option Document :=
  Entries.get? store.files key

def get? (store : Store) (uri : Uri) : Option Document :=
  store.file? uri.normalize

def contains (store : Store) (uri : Uri) : Bool :=
  (store.get? uri).isSome

def folded (uri : Uri) : List Char :=
  Text.lower uri.text

/-- The document of a URI, or else one whose URI differs only in case. -/
def find? (store : Store) (uri : Uri) : Option Document :=
  match store.get? uri with
  | some document => some document
  | none => (store.files.find? fun entry => folded entry.1 == folded uri).map Prod.snd

def isActive (store : Store) (key : Uri) : Bool :=
  (store.file? key).any Document.active

def modify (store : Store) (key : Uri) (change : Document → Document) : Store :=
  { store with files := store.files.map fun entry => if entry.1 = key then (entry.1, change entry.2) else entry }

/-- Tracks the document of a URI. The content counts only for a document that was not tracked before. -/
def acquire (store : Store) (uri : Uri) (content : Option String) : Store :=
  let key := uri.normalize
  match store.file? key with
  | some _ => store
  | none =>
    let document := Document.fresh key
    let seeded := if content.isSome then document.setContent content else document
    { store with files := store.files ++ [(key, seeded)] }

def withoutMark (text : List Char) : String :=
  match text with
  | '\ufeff' :: rest => String.ofList rest
  | _ => String.ofList text

/-- Reads a document from the disk. One that is missing, or that no file can hold, is nothing. -/
def load (disk : Disk) (uri : Uri) : Except ReadFailure (Option String) :=
  if uri.kind = .file then
    match uri.filePath? with
    | none => .ok none
    | some path =>
      match disk.readText path with
      | .ok text => .ok (some (withoutMark text))
      | .error .absent => .ok none
      | .error error => .error ⟨uri, error.message⟩
  else .ok none

/-- The content of a tracked document; what the disk holds is kept. -/
def contentOf (store : Store) (document : Document) : Except ReadFailure String × Store :=
  match document.content with
  | some text => (.ok text, store)
  | none =>
    match load store.disk document.uri with
    | .error failure => (.error failure, store)
    | .ok none => (.error ⟨document.uri, "file not found"⟩, store)
    | .ok (some text) => (.ok text, store.modify document.uri fun document => document.keep text)

/-- Reads any document. A tracked one that nobody has open and that has no content is read anew. -/
def read (store : Store) (uri : Uri) : Except ReadFailure (Option String) × Store :=
  match store.get? uri with
  | none => (load store.disk uri.normalize, store)
  | some document =>
    if document.content.isSome || document.active then
      match store.contentOf document with
      | (.ok text, store) => (.ok (some text), store)
      | (.error failure, store) => (.error failure, store)
    else
      match load store.disk document.uri with
      | .error failure => (.error failure, store)
      | .ok none => (.ok none, store)
      | .ok (some text) => (.ok (some text), store.modify document.uri fun document => document.setContent (some text))

def source : Source Store :=
  ⟨fun uri store => store.read uri⟩

/-- Publishes the diagnostics of the document under a key; none at all are sent only on demand, which clears
what the editor shows. -/
def flush (store : Store) (key : Uri) (force : Bool) : Bool × Store :=
  match store.file? key with
  | none => (false, store)
  | some document =>
    if document.diagnostics.isEmpty && !force then (false, store)
    else (true, { store with pending := store.pending ++ [⟨document.uri.editorForm, document.diagnostics⟩] })

/-- Drops the diagnostics of a document, also in the editor. -/
def hide (store : Store) (key : Uri) : Store :=
  ((store.modify key Document.clear).flush key true).2

end Store

end SpecServer
