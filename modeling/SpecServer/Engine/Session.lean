import SpecServer.Engine.Definition
import SpecServer.Engine.Reference
import SpecServer.Engine.View
set_option autoImplicit false

/-!
The work of the engine in one context: loading the configuration, and passes over its inputs that report
findings and merge the inputs into one definition. A pass that fails changes nothing.
-/

namespace SpecServer

/-- The state of one context's engine. Additions are layered onto the configuration document; known inputs
are processed even if no configuration declares them. -/
structure Session where
  configuration : Uri
  additions : List Json
  known : List Uri
  view : Option View
  definition : Option Definition
deriving DecidableEq

namespace Session

def start (configuration : Uri) : Session := ⟨configuration, [], [], none, none⟩

def addConfiguration (session : Session) (layer : Json) : Session :=
  { session with additions := session.additions ++ [layer] }

def addInput (session : Session) (uri : Uri) : Session :=
  let uri := uri.normalize
  if session.known.contains uri then session else { session with known := session.known ++ [uri] }

def viewOf (session : Session) (text : String) : Except EngineError View :=
  match Literate.read text with
  | .error error => .error (.unparsable session.configuration error.message)
  | .ok document =>
    let base := if document.isNull then .object [] else document
    match session.additions.foldl Json.overlay base with
    | .object entries => .ok ⟨session.configuration.folder, entries⟩
    | _ => .error (.configurationNoMapping session.configuration)

variable {σ : Type}

def loadView (source : Source σ) (session : Session) (s : σ) : Except EngineError View × Session × σ :=
  let (content, s) := source.read session.configuration s
  let loaded : Except EngineError View :=
    match content with
    | .error failure => .error (.unreadable failure)
    | .ok none => .error (.configurationMissing session.configuration)
    | .ok (some text) => session.viewOf text
  match loaded with
  | .error error => (.error error, session, s)
  | .ok view => (.ok view, { session with view := some view }, s)

/-- The inputs of a pass: those the configuration declares, and then the known ones. -/
def inputsOf (session : Session) (view : View) : List Uri :=
  session.known.foldl (fun inputs uri => if inputs.contains uri then inputs else inputs ++ [uri]) view.inputs

structure Pass where
  merge : Definition.Merge
  externals : Reference.Externals
  findings : Nat
  messages : List Message

def Pass.empty : Pass := ⟨.empty, [], 0, []⟩

def Pass.say (pass : Pass) (message : Message) : Pass :=
  { pass with messages := pass.messages ++ [message] }

def Pass.report (pass : Pass) (messages : List Message) : Pass :=
  { pass with messages := pass.messages ++ messages, findings := pass.findings + messages.length }

def Pass.visit (source : Source σ) (validate : Bool) (input : Uri) (pass : Pass) (s : σ) : Pass × σ :=
  let (content, s) := source.read input s
  match content with
  | .error failure => (pass.say (.plain .fatal failure.message), s)
  | .ok none => (pass.say (.plain .fatal ("Unable to read input file '" ++ input.render ++ "'")), s)
  | .ok (some text) =>
    match Input.parse input text with
    | .error error => (pass.report [Input.unparsable input error], s)
    | .ok document =>
      let (dangling, externals, s) := Reference.check source input text document pass.externals s
      let reported := pass.report (Input.check input text document validate ++ dangling)
      ({ reported with externals := externals, merge := pass.merge.add input document }, s)

def Pass.visitAll (source : Source σ) (validate : Bool) : List Uri → Pass → σ → Pass × σ
  | [], pass, s => (pass, s)
  | input :: rest, pass, s =>
    let (next, s) := pass.visit source validate input s
    Pass.visitAll source validate rest next s

def summary (session : Session) (inputs findings : Nat) : Message :=
  .plain .verbose ("Processed " ++ toString inputs ++ " input file(s) for " ++ session.configuration.render ++ ": " ++
    toString findings ++ " finding(s)")

/-- Runs a pass: loads the configuration, processes all inputs, and keeps the merged definition. -/
def process (source : Source σ) (session : Session) (s : σ) : Except EngineError (List Message) × Session × σ :=
  match session.loadView source s with
  | (.error error, session, s) => (.error error, session, s)
  | (.ok view, session, s) =>
    let inputs := session.inputsOf view
    let (pass, s) := Pass.visitAll source (view.isEnabled Message.validator) inputs .empty s
    (.ok (pass.messages ++ [session.summary inputs.length pass.findings]),
      { session with definition := some (.ofMerge pass.merge) }, s)

end Session

end SpecServer
