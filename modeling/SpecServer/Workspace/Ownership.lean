import SpecServer.Engine.Discovery
import SpecServer.Workspace.Basic
set_option autoImplicit false

/-!
Finding the context that a document belongs to, or making one. A document belongs to the context of the
nearest configuration that declares it, and a configuration to its own context; any other document gets a
context with a configuration generated for it alone. A new context is kept only after its configuration was
loaded, so that a failure leaves contexts and keys as they were.
-/

namespace SpecServer.Workspace

def placeholder (document : Uri) : String :=
  "#Fake config file \n > see https://aka.ms/autorest \n\x60\x60\x60 yaml \ninput-file: \n - " ++ document.render

def generatedEntries (document : Uri) : Json :=
  .object (Entries.ofList [(View.inputEntry, .string document.render), (Message.validator, .bool true)])

/-- A real context: one that lives already, or a new one that is not kept yet. -/
inductive Candidate where
  | living (id : Nat)
  | fresh (context : Context)

/-- The context of a configuration and the inputs it declares. The configuration is loaded in any case, so that
changes in it count. -/
def candidate (workspace : Workspace) (configuration : Uri) :
    Except EngineError (Candidate × List Uri) × Workspace :=
  let living := workspace.registry.lookup (.folder configuration.folder)
  match living.bind fun id => (workspace.registry.get? id).map fun context => (id, context) with
  | some (id, context) =>
    let (result, context, store) := context.loadView workspace.store
    let workspace := { workspace with store := store, registry := workspace.registry.set id context }
    (result.map fun view => (.living id, view.inputs), workspace)
  | none =>
    let (result, context, store) := (Context.start .real (Session.start configuration)).loadView workspace.store
    (result.map fun view => (.fresh context, view.inputs), { workspace with store := store })

def retain (workspace : Workspace) : Candidate → Nat × Workspace
  | .living id => (id, workspace)
  | .fresh context =>
    let (id, registry) := workspace.registry.insert context
    (id, { workspace with registry := registry })

def adoptInput (id : Nat) (workspace : Workspace) (input : Uri) : Workspace :=
  let (key, workspace) := workspace.acquire input none
  (workspace.modifyContext id fun context => (context.addInput input).track key).index (.input input) id

/-- The context of a configuration, if that is the document itself or declares it. -/
def resolveReal (workspace : Workspace) (document configuration : Uri) :
    Except EngineError (Option Nat) × Workspace :=
  match workspace.candidate configuration with
  | (.error error, workspace) => (.error error, workspace)
  | (.ok (candidate, inputs), workspace) =>
    if configuration = document then
      let (id, workspace) := workspace.retain candidate
      let workspace := inputs.foldl (adoptInput id) workspace
      let workspace := workspace.index (.folder configuration.folder) id
      (.ok (some id), workspace.index (.configuration configuration) id)
    else if inputs.contains document then
      let (id, workspace) := workspace.retain candidate
      let workspace := (workspace.index (.folder configuration.folder) id).index (.input document) id
      let (key, workspace) := workspace.acquire configuration none
      (.ok (some id), workspace.modifyContext id fun context => context.track key)
    else (.ok none, workspace)

/-- The context with the configuration generated for a document. The generated configuration counts as open,
so that its content is never taken from the disk. -/
def resolveSynthesized (workspace : Workspace) (document : Uri) : Except WorkspaceError Nat × Workspace :=
  match document.generated with
  | .error error => (.error (.invalidUri document.generatedText error), workspace)
  | .ok configuration =>
    match workspace.registry.lookup (.synthesized configuration) with
    | some id =>
      let (key, workspace) := workspace.acquire configuration none
      (.ok id, workspace.modifyContext id fun context => context.track key)
    | none =>
      let (key, workspace) := workspace.acquire configuration (some (placeholder document))
      let workspace := workspace.modifyFile key fun file => file.setActive true
      let session := (Session.start configuration).addConfiguration (generatedEntries document)
      let (result, context, store) := (Context.start .synthesized session).loadView workspace.store
      let workspace := { workspace with store := store }
      match result with
      | .error error => (.error (.engine error), workspace)
      | .ok _ =>
        let (id, registry) := workspace.registry.insert (context.track key)
        let workspace := { workspace with registry := registry }
        let workspace := (workspace.index (.synthesized configuration) id).index (.input document) id
        (.ok id, workspace.log .debug ("Synthesized configuration for " ++ document.render))

/-- The context that a document belongs to now, whichever it belonged to before. -/
def choose (workspace : Workspace) (document : Uri) : Except WorkspaceError Nat × Workspace :=
  let (detected, store) := Discovery.find Store.source document.folder workspace.store
  let workspace := { workspace with store := store }
  match detected with
  | .error error => (.error (.engine error), workspace)
  | .ok none => workspace.resolveSynthesized document
  | .ok (some configuration) =>
    let workspace := workspace.log .debug ("Configuration File Selected: " ++ configuration.render)
    match workspace.resolveReal document configuration with
    | (.error error, workspace) => (.error (.engine error), workspace)
    | (.ok (some id), workspace) => (.ok id, workspace)
    | (.ok none, workspace) => workspace.resolveSynthesized document

/-- Moves a document from one context to another, and removes what nothing keeps alive then. The new context
holds the document before that, so that it counts as in use. -/
def release (workspace : Workspace) (previous : Nat) (document : Uri) (successor : Nat) : Workspace :=
  let workspace :=
    match workspace.registry.get? previous with
    | none => workspace
    | some context =>
      let workspace := workspace.modifyContext previous fun context => context.untrack document
      if context.isSynthesized then workspace.removeKey (.synthesized context.configuration) else workspace
  let workspace :=
    if workspace.registry.lookup (.input document) = some previous then workspace.removeKey (.input document)
    else workspace
  let workspace :=
    match workspace.store.get? document with
    | none => workspace
    | some file => workspace.modifyContext successor fun context => context.track file.uri
  (workspace.log .debug ("Moved " ++ document.render ++ " to another context")).prune

/-- Finds the context that a document belongs to. If it belonged to another one, that one lets go of it. -/
def resolve (workspace : Workspace) (uri : Uri) : Except WorkspaceError Nat × Workspace :=
  let document := uri.normalize
  let previous := workspace.registry.lookup (.input document)
  match workspace.choose document with
  | (.error error, workspace) => (.error error, workspace)
  | (.ok id, workspace) =>
    match previous with
    | none => (.ok id, workspace)
    | some old => (.ok id, if old = id then workspace else workspace.release old document id)

end SpecServer.Workspace
