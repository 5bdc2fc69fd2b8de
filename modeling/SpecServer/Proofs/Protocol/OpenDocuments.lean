import SpecServer.Proofs.Workspace.OpenText
import SpecServer.Protocol.Server
set_option autoImplicit false

/-!
The documents that the editor has open. What the editor says about them is read from its messages alone, and the copy that
follows from it is the one that the server keeps, in its list of open documents as well as in the store.
-/

namespace SpecServer.Protocol

-- neither the model's parser nor the disk must be unfolded
attribute [local irreducible] Uri.normalize Store.load

/-! ## The copy of the editor -/

/-- What the editor says about an open document. -/
inductive Saying where
  | opened (uri : Uri) (document : OpenDocument)
  | changed (uri : Uri) (text : String)
  | closed (uri : Uri)
deriving DecidableEq, Repr

/-- The document that it is about. -/
def Saying.uri : Saying → Uri
  | opened uri _ => uri
  | changed uri _ => uri
  | closed uri => uri

/-- The document that the parameters of its opening bring. -/
def brought (params : Json) : OpenDocument :=
  let item := params.valueAt "textDocument"
  ⟨item.textAt "languageId", item.textAt "text"⟩

/-- What a message says. One that cannot be read says nothing, nor does a change that brings no text. -/
def Incoming.saying? : Incoming → Option Saying
  | .notification "textDocument/didOpen" params =>
    (openedShape.read params).toOption.map fun params => .opened (subject params) (brought params)
  | .notification "textDocument/didChange" params =>
    (changedShape.read params).toOption.bind fun params => (lastText? params).map (.changed (subject params))
  | .notification "textDocument/didClose" params =>
    (closedShape.read params).toOption.map fun params => .closed (subject params)
  | _ => none

/-- The editor's copy of an open document. It is analysed if it was opened under a language that is, once at least since
it was closed last. -/
structure Copy where
  document : OpenDocument
  analysed : Bool
deriving DecidableEq, Repr

/-- The copy of the document under a key after the editor said something. -/
def Copy.after (key : Uri) (copy? : Option Copy) : Saying → Option Copy
  | .opened uri document =>
    if uri.normalize = key then
      some ⟨document, Workspace.isAnalysed document.language || copy?.any Copy.analysed⟩
    else copy?
  | .changed uri text =>
    if uri.normalize = key then copy?.map fun copy => { copy with document := { copy.document with text := text } }
    else copy?
  | .closed uri => if uri.normalize = key then none else copy?

/-- The copy of the document under a key after all that the editor said. -/
def copy? (key : Uri) (said : List Saying) : Option Copy :=
  said.foldl (Copy.after key) none

private theorem copy?_append (key : Uri) (said : List Saying) (saying : Saying) :
    copy? key (said ++ [saying]) = Copy.after key (copy? key said) saying := by
  simp only [copy?, List.foldl_append, List.foldl_cons, List.foldl_nil]

/-! ## Workspaces that keep the text of open documents -/

/-- Whether a workspace stays sound, and all texts of open documents stay. -/
def Spares (before after : Workspace) : Prop :=
  before.Sound → after.Sound ∧ ∀ key text, before.store.Holds key text → after.store.Holds key text

private theorem spares_step (workspace : Workspace) (event : Event) (still : ∀ key, ¬event.disturbs key) :
    Spares workspace (workspace.step event) := fun sound =>
  ⟨sound.stepped (Workspace.step_spec sound event), fun key _ holds => Workspace.holds_step sound holds (still key)⟩

private theorem spares_log (workspace : Workspace) (level : LogLevel) (text : String) :
    Spares workspace (workspace.log level text) :=
  fun sound => ⟨⟨sound.formed, sound.keyed⟩, fun _ _ => id⟩

namespace Server

/-- Whether a server keeps the copies that the editor has: its open documents are these, and those that are analysed are
open in the store, with the same text. -/
structure Mirrors (said : List Saying) (server : Server) : Prop where
  sound : server.workspace.Sound
  documents : ∀ key, Entries.get? server.documents key = (copy? key said).map Copy.document
  texts : ∀ key copy, copy? key said = some copy → copy.analysed = true →
    server.workspace.store.Holds key copy.document.text

variable {said : List Saying} {server : Server}

private theorem Mirrors.spared (mirrors : Mirrors said server) {workspace : Workspace}
    (spares : Spares server.workspace workspace) :
    Mirrors said { server with workspace := workspace } := by
  obtain ⟨sound, kept⟩ := spares mirrors.sound
  exact ⟨sound, mirrors.documents, fun key copy copied analysed => kept _ _ (mirrors.texts key copy copied analysed)⟩

private theorem Mirrors.silent (mirrors : Mirrors said server) {saying? : Option Saying} (silent : saying? = none) :
    Mirrors (said ++ saying?.toList) server := by
  rw [silent, Option.toList_none, List.append_nil]
  exact mirrors

private theorem Mirrors.withDisk (mirrors : Mirrors said server) (disk : Disk) : Mirrors said (server.withDisk disk) :=
  mirrors.spared (spares_step server.workspace (.replaceDisk disk) fun _ => id)

private theorem Mirrors.takeMessages (mirrors : Mirrors said server) : Mirrors said server.takeMessages.2 :=
  mirrors.spared (spares_step server.workspace .take fun _ => id)

/-! ## What the editor says -/

private theorem get?_remember (server : Server) (uri : Uri) (document : OpenDocument) (key : Uri) :
    Entries.get? (server.remember uri document).documents key =
      if uri.normalize = key then some document else Entries.get? server.documents key := by
  simp only [remember, Entries.get?]
  split
  next => rfl
  next apart => rw [Entries.get?_erase, if_neg apart]

/-- A text that the editor brought is kept, if the document's language is analysed or the text before it was. -/
theorem Mirrors.edit (mirrors : Mirrors said server) {uri : Uri} (normal : uri.normalize.normalize = uri.normalize)
    (document : OpenDocument) {saying : Saying} {analysed : Bool}
    (copied : ∀ key, copy? key (said ++ [saying]) =
      if uri.normalize = key then some ⟨document, analysed⟩ else copy? key said)
    (was : analysed = true → Workspace.isAnalysed document.language = true ∨
      ∃ former, copy? uri.normalize said = some former ∧ former.analysed = true) :
    Mirrors (said ++ [saying]) ((server.remember uri document).settle
      (server.workspace.edit uri document.language document.text)).2 := by
  have stepped := Workspace.step_spec mirrors.sound (.edit uri document.language document.text)
  refine ⟨mirrors.sound.stepped stepped, fun key => ?_, fun key copy found analysed' => ?_⟩
  · simp only [settle, get?_remember, copied, mirrors.documents]
    split <;> rfl
  · simp only [settle]
    rw [copied] at found
    split at found
    next same =>
      subst same
      obtain rfl := Option.some.inj found
      by_cases language : Workspace.isAnalysed document.language = true
      · have edited := Workspace.holds_edited mirrors.sound uri document.text language
        rwa [normal, normal] at edited
      · obtain ⟨former, stood, analysed''⟩ := (was analysed').resolve_left language
        have holds := mirrors.texts _ former stood analysed''
        rw [← normal] at holds ⊢
        exact Workspace.holds_replaced mirrors.sound uri document.text language holds
    next apart =>
      refine Workspace.holds_edit mirrors.sound (mirrors.texts key copy found analysed') _ _ ?_
      simp only [Event.disturbs, normal, apart, or_self, not_false_eq_true]

private theorem Mirrors.opened (mirrors : Mirrors said server) (params : Json)
    (normal : (subject params).normalize.normalize = (subject params).normalize) :
    Mirrors (said ++ [.opened (subject params) (brought params)]) (server.opened params).2 := by
  have copied : ∀ key, copy? key (said ++ [.opened (subject params) (brought params)]) =
      if (subject params).normalize = key then
        some ⟨brought params, Workspace.isAnalysed (brought params).language ||
          (copy? (subject params).normalize said).any Copy.analysed⟩
      else copy? key said := by
    intro key
    rw [copy?_append, Copy.after]
    split
    next same => rw [same]
    next => rfl
  refine mirrors.edit normal (brought params) copied fun analysed => ?_
  rw [Bool.or_eq_true, Option.any_eq_true] at analysed
  exact analysed

private theorem Mirrors.changed (mirrors : Mirrors said server) (params : Json) {text : String}
    (brought : lastText? params = some text)
    (normal : (subject params).normalize.normalize = (subject params).normalize) :
    Mirrors (said ++ [.changed (subject params) text]) (server.changed params).2 := by
  have held := mirrors.documents (subject params).normalize
  simp only [Server.changed, brought, document?, held]
  cases copied : copy? (subject params).normalize said with
  | none =>
    -- the document is not open, for the editor as for the server
    have same : ∀ key, copy? key (said ++ [.changed (subject params) text]) = copy? key said := by
      intro key
      rw [copy?_append, Copy.after]
      split
      next same => rw [← same, copied, Option.map_none]
      next => rfl
    exact ⟨mirrors.sound, fun key => (same key).symm ▸ mirrors.documents key, fun key copy found =>
      mirrors.texts key copy ((same key).symm.trans found)⟩
  | some former =>
    refine mirrors.edit normal { former.document with text := text } (fun key => ?_) fun analysed =>
      .inr ⟨former, copied, analysed⟩
    rw [copy?_append, Copy.after]
    split
    next same => rw [← same, copied, Option.map_some]
    next => rfl

private theorem Mirrors.closed (mirrors : Mirrors said server) (params : Json)
    (normal : (subject params).normalize.normalize = (subject params).normalize) :
    Mirrors (said ++ [.closed (subject params)]) (server.closed params).2 := by
  have stepped := Workspace.step_spec mirrors.sound (.close (subject params))
  refine ⟨mirrors.sound.stepped stepped, fun key => ?_, fun key copy found analysed => ?_⟩
  · rw [copy?_append, Copy.after, Server.closed, forget, Entries.get?_erase]
    split
    · rfl
    · exact mirrors.documents key
  · rw [copy?_append, Copy.after] at found
    split at found
    next => cases found
    next apart =>
      exact Workspace.holds_close mirrors.sound (mirrors.texts key copy found analysed) (normal.symm ▸ apart)

/-! ## Messages -/

/-- What follows from a notification that is not about an open document. -/
theorem spares_follow (server : Server) {method : String} (params : Json)
    (apart : method ∉ ["textDocument/didOpen", "textDocument/didChange", "textDocument/didClose"]) :
    ∃ workspace, (server.follow method params).2 = { server with workspace := workspace } ∧
      Spares server.workspace workspace := by
  have quiet : ∃ workspace, server = { server with workspace := workspace } ∧ Spares server.workspace workspace :=
    ⟨server.workspace, rfl, fun sound => ⟨sound, fun _ _ => id⟩⟩
  simp only [List.mem_cons, List.not_mem_nil, or_false, not_or] at apart
  unfold follow notification?
  split
  next => exact quiet
  next shape act known =>
    split
    next => exact quiet
    next params _ =>
      split at known
      · exact absurd rfl apart.1
      · exact absurd rfl apart.2.1
      · exact absurd rfl apart.2.2
      · cases known
        simp only [saved]
        split
        next text _ =>
          exact ⟨_, rfl, spares_step server.workspace (.save (subject params) text) fun _ => id⟩
        next => exact quiet
      · cases known
        exact ⟨_, rfl, spares_step server.workspace
          (.changedOnDisk ((params.itemsAt "changes").map fun change => uriAt change "uri")) fun _ => id⟩
      · cases known
        exact ⟨_, rfl, spares_step server.workspace (.configure (params.valueAt "settings")) fun _ => id⟩
      · cases known

/-- What a request does to open documents: nothing. -/
theorem spares_reply (server : Server) (id : RequestId) (method : String) (params : Json) :
    ∃ workspace, (server.reply id method params).2 = { server with workspace := workspace } ∧
      Spares server.workspace workspace := by
  have quiet : ∃ workspace, server = { server with workspace := workspace } ∧ Spares server.workspace workspace :=
    ⟨server.workspace, rfl, fun sound => ⟨sound, fun _ _ kept => kept⟩⟩
  unfold reply request?
  split
  next => exact quiet
  next shape act known =>
    split
    next => exact quiet
    next params _ =>
      split at known
      · cases known
        exact ⟨_, rfl, spares_step server.workspace (.hover (subject params) (positionAt params "position"))
          fun _ => False.elim⟩
      · cases known
        exact ⟨_, rfl, spares_step server.workspace
          (.definitions (subject params) (positionAt params "position")) fun _ => False.elim⟩
      · cases known
        exact ⟨_, rfl, spares_step server.workspace (.definition (uriAt params "uri")) fun _ => False.elim⟩
      · cases known

private theorem Mirrors.follow (mirrors : Mirrors said server) {method : String} {params : Json}
    (normal : ∀ saying ∈ (Incoming.notification method params).saying?, saying.uri.normalize.normalize = saying.uri.normalize) :
    Mirrors (said ++ (Incoming.notification method params).saying?.toList) (server.follow method params).2 := by
  by_cases apart : method ∉ ["textDocument/didOpen", "textDocument/didChange", "textDocument/didClose"]
  · have silent : (Incoming.notification method params).saying? = none := by
      simp only [List.mem_cons, List.not_mem_nil, or_false, not_or] at apart
      simp only [Incoming.saying?]
      split <;> simp_all
    obtain ⟨workspace, followed, spares⟩ := spares_follow server params apart
    rw [followed]
    exact (mirrors.spared spares).silent silent
  · simp only [List.mem_cons, List.not_mem_nil, or_false, Decidable.not_not] at apart
    rcases apart with rfl | rfl | rfl
    · simp only [Incoming.saying?] at normal ⊢
      simp only [Server.follow, notification?]
      cases read : openedShape.read params with
      | error error => exact mirrors.silent rfl
      | ok params =>
        rw [read] at normal
        exact mirrors.opened params (normal _ rfl)
    · simp only [Incoming.saying?] at normal ⊢
      simp only [Server.follow, notification?]
      cases read : changedShape.read params with
      | error error => exact mirrors.silent rfl
      | ok params =>
        simp only [read, Except.toOption, Option.bind_some] at normal ⊢
        cases brought : lastText? params with
        | none =>
          simp only [Server.changed, brought]
          exact mirrors.silent rfl
        | some text =>
          rw [brought] at normal
          exact mirrors.changed params brought (normal _ rfl)
    · simp only [Incoming.saying?] at normal ⊢
      simp only [Server.follow, notification?]
      cases read : closedShape.read params with
      | error error => exact mirrors.silent rfl
      | ok params =>
        rw [read] at normal
        exact mirrors.closed params (normal _ rfl)

/-- Each message leaves the server with the copies that the editor has then. -/
theorem Mirrors.receive (mirrors : Mirrors said server) {message : Incoming}
    (normal : ∀ saying ∈ message.saying?, saying.uri.normalize.normalize = saying.uri.normalize) :
    Mirrors (said ++ message.saying?.toList) (server.receive message).2 := by
  cases message with
  | request id method params =>
    obtain ⟨workspace, replied, spares⟩ := spares_reply server id method params
    have answered : Mirrors said (server.reply id method params).2 := replied ▸ mirrors.spared spares
    exact answered.takeMessages.silent rfl
  | notification method params =>
    have followed := mirrors.follow normal
    simp only [Server.receive, notify]
    split
    next done =>
      rw [done] at followed
      exact followed.takeMessages
    next failed =>
      rw [failed] at followed
      exact (followed.spared (spares_log _ _ _)).takeMessages
  | answer => exact mirrors.silent rfl

/-! ## Runs -/

/-- All that the editor says in some messages. -/
def sayings (messages : List (Disk × Incoming)) : List Saying :=
  messages.filterMap fun message => message.2.saying?

/-- The server after messages of the editor. Before each of them the disk may become another one. -/
def run (server : Server) (messages : List (Disk × Incoming)) : Server :=
  messages.foldl (fun server message => ((server.withDisk message.1).receive message.2).2) server

private theorem Mirrors.run (mirrors : Mirrors said server) {messages : List (Disk × Incoming)}
    (normal : ∀ saying ∈ sayings messages, saying.uri.normalize.normalize = saying.uri.normalize) :
    Mirrors (said ++ sayings messages) (server.run messages) := by
  induction messages generalizing said server with
  | nil =>
    rw [sayings, List.filterMap_nil, List.append_nil]
    exact mirrors
  | cons message rest ih =>
    have both : sayings (message :: rest) = message.2.saying?.toList ++ sayings rest := by
      rw [sayings, List.filterMap_cons]
      cases message.2.saying? <;> rfl
    rw [both, List.forall_mem_append] at normal
    obtain ⟨first, later⟩ := normal
    rw [both, ← List.append_assoc]
    exact ih ((mirrors.withDisk message.1).receive fun saying said => first saying (Option.mem_toList.mpr said)) later

private theorem mirrors_start {disk : Disk} {id : RequestId} {params : Json} {told : List Outgoing}
    (started : start disk id params = .ok (told, server)) : Mirrors [] server := by
  have bare : ∀ workspace : Workspace, workspace.Sound → Mirrors [] ⟨workspace, []⟩ :=
    fun _ sound => ⟨sound, fun _ => rfl, fun _ _ found => nomatch found⟩
  simp only [start] at started
  split at started
  next => cases started
  next params' _ =>
    cases started
    refine Mirrors.takeMessages ?_
    have stepped := Workspace.step_spec (Workspace.sound_start disk) (.setRoot (Protocol.rootOf params'))
    have rooted : ((Workspace.start disk).setRoot (Protocol.rootOf params')).2.Sound :=
      (Workspace.sound_start disk).stepped stepped
    split
    next set =>
      rw [set] at rooted
      exact bare _ rooted
    next refused =>
      rw [refused] at rooted
      exact bare _ ⟨rooted.formed, rooted.keyed⟩

/-- The editor owns the documents that it has open: the server has the same copy of each, and the store holds its text as
that of an open document if it was opened under a language that is analysed. -/
theorem holds_copy {disk : Disk} {id : RequestId} {params : Json} {told : List Outgoing}
    (started : start disk id params = .ok (told, server)) {messages : List (Disk × Incoming)}
    (normal : ∀ saying ∈ sayings messages, saying.uri.normalize.normalize = saying.uri.normalize) {uri : Uri} {copy : Copy}
    (copied : copy? uri.normalize (sayings messages) = some copy)
    (analysed : copy.analysed = true) :
    (server.run messages).document? uri = some copy.document ∧
      ∃ file, (server.run messages).workspace.store.get? uri = some file ∧
        file.content = some copy.document.text ∧ file.active = true := by
  have mirrors := (mirrors_start started).run normal
  rw [List.nil_append] at mirrors
  refine ⟨?_, mirrors.texts _ copy copied analysed⟩
  rw [document?, mirrors.documents, copied, Option.map_some]

/-- The parameters of a first request. -/
def sampleStart : Json :=
  .object [("capabilities", .object [])]

/-- A document is opened. Then the disk gets another text for it, which is reported, and then it is changed to something
that cannot be parsed. -/
def sampleMessages : List (Disk × Incoming) :=
  let version : String × Json := ("version", .number (.integer 1))
  let uri : String × Json := ("uri", .string "file:///x")
  let disk : Disk := ⟨[([[UInt8.ofNat 120]], .file [])]⟩
  [(Disk.empty, .notification "textDocument/didOpen" (.object [("textDocument",
      .object [uri, ("languageId", .string "json"), version, ("text", .string "\x7b\x7d")])])),
    (disk, .notification "workspace/didChangeWatchedFiles" (.object [("changes",
      .array [.object [uri, ("type", .number (.integer 2))]])])),
    (disk, .notification "textDocument/didChange" (.object [("textDocument", .object [uri, version]),
      ("contentChanges", .array [.object [("text", .string "\x7b: [")]])]))]

private theorem sayings_sampleMessages :
    (start Disk.empty (.number 1) sampleStart).toOption.isSome = true ∧
      (∀ saying ∈ sayings sampleMessages, saying.uri.normalize.normalize = saying.uri.normalize) ∧
      copy? Workspace.topDocument.normalize (sayings sampleMessages) = some ⟨⟨"json", "\x7b: ["⟩, true⟩ := by
  decide +kernel

theorem holds_copy_sample :
    ∃ told server, start Disk.empty (.number 1) sampleStart = .ok (told, server) ∧
      (∀ saying ∈ sayings sampleMessages, saying.uri.normalize.normalize = saying.uri.normalize) ∧
      copy? Workspace.topDocument.normalize (sayings sampleMessages) = some ⟨⟨"json", "\x7b: ["⟩, true⟩ ∧
      (server.run sampleMessages).document? Workspace.topDocument = some ⟨"json", "\x7b: ["⟩ ∧
      ∃ file, (server.run sampleMessages).workspace.store.get? Workspace.topDocument = some file ∧
        file.content = some "\x7b: [" ∧ file.active = true := by
  obtain ⟨starts, normal, copied⟩ := sayings_sampleMessages
  obtain ⟨⟨told, server⟩, started⟩ := Option.isSome_iff_exists.mp starts
  have started' := Workspace.ok_of_toOption started
  exact ⟨told, server, started', normal, copied, holds_copy started' normal copied rfl⟩

end Server

end SpecServer.Protocol
