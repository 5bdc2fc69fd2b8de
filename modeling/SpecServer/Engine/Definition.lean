import SpecServer.Json.Path
import SpecServer.Uri.Basic
set_option autoImplicit false

/-!
The merged definition of a context: all its inputs in one document. Where two inputs define a node, the first
one counts, except that objects are merged; each node is mapped to the input it came from.
-/

namespace SpecServer

/-- A merged document and the source of each node that was taken whole. -/
structure Definition where
  document : Json
  sources : Entries Path Uri
deriving DecidableEq

namespace Definition

def ancestors (path : Path) : List Path :=
  (List.range (path.length + 1)).reverse.map fun length => path.take length

/-- The source of a node: that of the closest mapped node above it. -/
def sourceOf? (definition : Definition) (path : Path) : Option Uri :=
  (ancestors path).findSome? definition.sources.get?

structure Merge where
  fields : Entries String Json
  sources : Entries Path Uri
deriving DecidableEq

def Merge.empty : Merge := ⟨[], []⟩

mutual

def addFields (input : Uri) (path : Path) (merge : Merge) (fields : List (String × Json)) : Merge :=
  match fields with
  | [] => merge
  | field :: rest => addFields input path (addField input path merge field) rest
termination_by structural fields

def addField (input : Uri) (path : Path) (merge : Merge) (field : String × Json) : Merge :=
  match field with
  | (key, value) =>
    match merge.fields.get? key with
    | none => ⟨merge.fields.put key value, merge.sources.put (path.key key) input⟩
    | some (.object existing) => addInto input (path.key key) key existing merge value
    | some _ => merge
termination_by structural field

def addInto (input : Uri) (path : Path) (key : String) (existing : Entries String Json) (merge : Merge) (value : Json) :
    Merge :=
  match value with
  | .object fields =>
    let inner := addFields input path ⟨existing, merge.sources⟩ fields
    ⟨merge.fields.put key (.object inner.fields), inner.sources⟩
  | _ => merge
termination_by structural value

end

/-- Merges an input that is an object; any other has nothing to merge. -/
def Merge.add (merge : Merge) (input : Uri) (document : Json) : Merge :=
  match document with
  | .object fields => addFields input Path.root merge fields
  | _ => merge

def ofMerge (merge : Merge) : Definition :=
  ⟨.object merge.fields, merge.sources⟩

end Definition

end SpecServer
