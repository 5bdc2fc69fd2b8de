import SpecServer.Proofs.Engine.References
set_option autoImplicit false

/-!
How the inputs of a pass depend on each other. What a pass says about an input is a matter of the texts alone, so an input
that cannot be read or parsed costs one message and changes nothing else.
-/

namespace SpecServer

variable {σ : Type} {source : Source σ} {texts : Texts} {holds : σ → Prop} {s : σ}

/-- Whether a message is a warning or an error. -/
def Message.isFault (message : Message) : Bool :=
  message.channel = .warning ∨ message.channel = .error

/-- The message about an input that is missing, cannot be read or cannot be parsed. -/
inductive Input.Refused (texts : Texts) (input : Uri) : Message → Prop
  | missing (absent : texts input = .ok none) :
      Refused texts input (.plain .fatal ("Unable to read input file '" ++ input.render ++ "'"))
  | unreadable (failure : ReadFailure) (failed : texts input = .error failure) :
      Refused texts input (.plain .fatal failure.message)
  | unparsable (text : String) (error : Literate.LiterateError) (read : texts input = .ok (some text))
      (rejected : Input.parse input text = .error error) : Refused texts input (.onRange .error error.message
        ⟨input.render, ⟨error.line, error.column - 1⟩, ⟨error.line, error.column - 1 + 1⟩⟩)

private theorem Input.isFault_of_mem_check {input : Uri} {text : String} {document : Json} {validate : Bool}
    {message : Message}
    (member : message ∈ Input.check input text document validate) : message.isFault = true := by
  simp only [Input.check, List.mem_append] at member
  rcases member with first | second
  · split at first
    · cases first
    · rw [List.mem_singleton.mp first]
      rfl
  · split at second
    · obtain ⟨violation, -, rfl⟩ := List.mem_map.mp second
      rfl
    · cases second

namespace Session

/-! ## What is said about an input -/

def remarks (texts : Texts) (validate : Bool) (input : Uri) : List Message :=
  match texts input with
  | .error failure => [.plain .fatal failure.message]
  | .ok none => [.plain .fatal ("Unable to read input file '" ++ input.render ++ "'")]
  | .ok (some text) =>
    match Input.parse input text with
    | .error error => [Input.unparsable input error]
    | .ok document => Input.check input text document validate ++
        (Reference.unresolved texts input document).map fun found => Reference.dangling input text found.1 found.2

private theorem remarks_of_bad {input : Uri} (bad : documentAt? texts input = none) (validate : Bool) :
    ∃ message, remarks texts validate input = [message] ∧ Input.Refused texts input message := by
  cases content : texts input with
  | error failure => exact ⟨_, by simp only [remarks, content], .unreadable failure content⟩
  | ok held =>
    cases held with
    | none => exact ⟨_, by simp only [remarks, content], .missing content⟩
    | some text =>
      cases parsed : Input.parse input text with
      | error error => exact ⟨_, by simp only [remarks, content, parsed]; rfl, .unparsable text error content parsed⟩
      | ok document =>
        simp only [documentAt?, content, parsed] at bad
        cases bad

private theorem remarks_of_parsed {input : Uri} {text : String} {document : Json}
    (content : texts input = .ok (some text))
    (parsed : Input.parse input text = .ok document) (validate : Bool) :
    remarks texts validate input = Input.check input text document validate ++
      (Reference.unresolved texts input document).map fun found => Reference.dangling input text found.1 found.2 := by
  simp only [remarks, content, parsed]

private theorem faults_of_parsed {input : Uri} {text : String} {document : Json}
    (content : texts input = .ok (some text))
    (parsed : Input.parse input text = .ok document) (validate : Bool) :
    ∀ message ∈ remarks texts validate input, message.isFault = true := by
  intro message member
  rw [remarks_of_parsed content parsed] at member
  rcases List.mem_append.mp member with checked | dangling
  · exact Input.isFault_of_mem_check checked
  · obtain ⟨found, -, rfl⟩ := List.mem_map.mp dangling
    rfl

/-- Whether a pass went on from another one with some remarks. -/
structure Pass.Tells (before after : Pass) (said : List Message) : Prop where
  messages : after.messages = before.messages ++ said
  findings : after.findings = before.findings + (said.filter Message.isFault).length

private theorem Pass.Tells.trans {first second third : Pass} {said more : List Message} (left : first.Tells second said)
    (right : second.Tells third more) : first.Tells third (said ++ more) where
  messages := by rw [right.messages, left.messages, List.append_assoc]
  findings := by rw [right.findings, left.findings, List.filter_append, List.length_append, Nat.add_assoc]

private theorem Pass.tells_say (pass : Pass) {message : Message} (harmless : message.isFault = false) :
    pass.Tells (pass.say message) [message] where
  messages := rfl
  findings := by rw [List.filter_cons_of_neg (Bool.not_eq_true _ ▸ harmless)]; rfl

private theorem Pass.tells_report (pass : Pass) {said : List Message}
    (faults : ∀ message ∈ said, message.isFault = true) :
    pass.Tells (pass.report said) said where
  messages := rfl
  findings := by rw [List.filter_eq_self.mpr faults]; rfl

/-- A pass says about each input what the texts give rise to, and knows no more than they say. -/
theorem Pass.visit_tells (repeats : source.Repeats texts holds) (validate : Bool) (input : Uri) {pass : Pass}
    (sound : Reference.Sound texts pass.externals) (start : holds s) : ∃ next s',
      pass.visit source validate input s = (next, s') ∧ pass.Tells next (remarks texts validate input) ∧
        Reference.Sound texts next.externals ∧ holds s' := by
  obtain ⟨s', next, read⟩ := repeats.read input start
  cases content : texts input with
  | error failure =>
    have said : remarks texts validate input = [.plain .fatal failure.message] := by simp only [remarks, content]
    exact ⟨pass.say (.plain .fatal failure.message), s', by simp only [visit, read, content],
      said ▸ pass.tells_say rfl, sound, next⟩
  | ok held =>
    cases held with
    | none =>
      have said : remarks texts validate input =
          [.plain .fatal ("Unable to read input file '" ++ input.render ++ "'")] := by simp only [remarks, content]
      exact ⟨pass.say _, s', by simp only [visit, read, content], said ▸ pass.tells_say rfl, sound, next⟩
    | some text =>
      cases parsed : Input.parse input text with
      | error error =>
        have said : remarks texts validate input = [Input.unparsable input error] := by
          simp only [remarks, content, parsed]
        have fault : ∀ message ∈ [Input.unparsable input error], message.isFault = true :=
          List.forall_mem_singleton.mpr rfl
        exact ⟨pass.report [Input.unparsable input error], s', by simp only [visit, read, content, parsed],
          by rw [said]; exact pass.tells_report fault, sound, next⟩
      | ok document =>
        obtain ⟨later, s'', checked, kept, last⟩ := Reference.check_sound repeats sound next input text document
        have told := pass.tells_report (faults_of_parsed content parsed validate)
        refine ⟨{ pass.report (remarks texts validate input) with
          externals := later, merge := pass.merge.add input document }, s'', ?_, ⟨told.messages, told.findings⟩, kept, last⟩
        simp only [visit, read, content, parsed, checked, remarks_of_parsed content parsed]

private theorem Pass.visitAll_tells (repeats : source.Repeats texts holds) (validate : Bool) (inputs : List Uri)
    {pass : Pass}
    (sound : Reference.Sound texts pass.externals) (start : holds s) :
    pass.Tells (Pass.visitAll source validate inputs pass s).1 (inputs.flatMap (remarks texts validate)) := by
  induction inputs generalizing pass s with
  | nil => exact ⟨(List.append_nil _).symm, rfl⟩
  | cons input rest ih =>
    obtain ⟨next, s', visited, tells, kept, started⟩ := visit_tells repeats validate input sound start
    rw [visitAll, visited]
    exact tells.trans (ih kept started)

/-- The messages of a pass: the remarks about its inputs, and a summary that counts the findings among them. -/
theorem messagesOver_eq (session : Session) (view : View) (inputs : List Uri) :
    session.messagesOver texts view inputs = inputs.flatMap (remarks texts (view.isEnabled Message.validator)) ++
      [session.summary inputs.length
        ((inputs.flatMap (remarks texts (view.isEnabled Message.validator))).filter Message.isFault).length] := by
  have sound : Reference.Sound texts Pass.empty.externals := Reference.sound_nil
  have told := Pass.visitAll_tells (Source.repeats_ofFunction texts) (view.isEnabled Message.validator) inputs sound
    (s := ()) trivial
  have said := told.messages.trans (List.nil_append _)
  have counted := told.findings.trans (Nat.zero_add _)
  rw [messagesOver, said, counted]

/-! ## Passes that end -/

/-- A node that has to be found in the text of an input: one that breaks a rule, where rules are checked, or a reference that
leads nowhere. -/
inductive Seeks (texts : Texts) (validate : Bool) (input : Uri) (text : String) : Path → Prop
  | rule (document : Json) (violation : Violation) (content : texts input = .ok (some text))
      (parsed : Input.parse input text = .ok document) (enabled : validate = true)
      (broken : violation ∈ Rule.violations document) : Seeks texts validate input text violation.path
  | reference (document : Json) (path : Path) (reference : String) (content : texts input = .ok (some text))
      (parsed : Input.parse input text = .ok document) (stands : Reference.Stands document path reference)
      (dangles : ¬Reference.Reaches texts input document reference) : Seeks texts validate input text path

/-- The remarks about an input come about if the search for each node that has to be found in it ends. -/
theorem settled?_remarks (texts : Texts) (validate : Bool) (input : Uri) :
    Message.settled? (remarks texts validate input) = none ↔
      ∃ text path, Seeks texts validate input text path ∧ Locate.place? text path = none := by
  cases found : documentAt? texts input with
  | none =>
    obtain ⟨message, said, refused⟩ := remarks_of_bad found validate
    have settled : Message.settled? (remarks texts validate input) ≠ none := by
      rw [said]
      cases refused <;> exact Option.some_ne_none _
    refine iff_of_false settled ?_
    rintro ⟨text, path, seeks, -⟩
    cases seeks with
    | rule document _ content parsed | reference document _ _ content parsed =>
      rw [documentAt?_eq_some_iff.mpr ⟨text, content, parsed⟩] at found
      cases found
  | some document =>
    obtain ⟨text, content, parsed⟩ := documentAt?_eq_some_iff.mp found
    rw [remarks_of_parsed content parsed, Message.settled?_append_eq_none_iff, Input.settled?_check,
      Reference.settled?_reported]
    constructor
    · rintro (⟨enabled, violation, broken, endless⟩ | ⟨⟨path, reference⟩, dangles, endless⟩)
      · exact ⟨text, _, .rule document violation content parsed enabled broken, endless⟩
      · obtain ⟨stands, dangles⟩ := (Reference.mem_unresolved (Input.ordered_parse parsed)).mp dangles
        exact ⟨text, path, .reference document path reference content parsed stands dangles, endless⟩
    · rintro ⟨other, path, seeks, endless⟩
      cases seeks with
      | rule _ violation content' parsed' enabled broken =>
        obtain rfl : text = other := by simpa [content] using content'
        obtain rfl : document = _ := Except.ok.inj (parsed.symm.trans parsed')
        exact .inl ⟨enabled, violation, broken, endless⟩
      | reference _ _ reference content' parsed' stands dangles =>
        obtain rfl : text = other := by simpa [content] using content'
        obtain rfl : document = _ := Except.ok.inj (parsed.symm.trans parsed')
        exact .inr ⟨(path, reference), (Reference.mem_unresolved (Input.ordered_parse parsed)).mpr ⟨stands, dangles⟩,
          endless⟩

/-- A node that a pass has to find in the text of one of its inputs. -/
def Locates (texts : Texts) (session : Session) (text : String) (path : Path) : Prop :=
  ∃ view, session.viewIn texts = .ok view ∧
    ∃ input ∈ session.inputsOf view, Seeks texts (view.isEnabled Message.validator) input text path

/-- A pass gives its messages if the search for each node that it has to find ends. -/
theorem settled?_messagesOver {session : Session} {view : View} (loaded : session.viewIn texts = .ok view) :
    Message.settled? (session.messagesOver texts view (session.inputsOf view)) = none ↔
      ∃ text path, session.Locates texts text path ∧ Locate.place? text path = none := by
  have summarized (findings : Nat) :
      Message.settled? [session.summary (session.inputsOf view).length findings] ≠ none := Option.some_ne_none _
  rw [messagesOver_eq, Message.settled?_append_eq_none_iff, or_iff_left (summarized _), Message.settled?_eq_none_iff]
  constructor
  · rintro ⟨message, member, endless⟩
    obtain ⟨input, among, said⟩ := List.mem_flatMap.mp member
    obtain ⟨text, path, seeks, lost⟩ :=
      (settled?_remarks texts _ input).mp (Message.settled?_eq_none_iff.mpr ⟨message, said, endless⟩)
    exact ⟨text, path, ⟨view, loaded, input, among, seeks⟩, lost⟩
  · rintro ⟨text, path, ⟨other, loads, input, among, seeks⟩, lost⟩
    obtain rfl : view = other := Except.ok.inj (loaded.symm.trans loads)
    obtain ⟨message, said, endless⟩ :=
      Message.settled?_eq_none_iff.mp ((settled?_remarks texts _ input).mpr ⟨text, path, seeks, lost⟩)
    exact ⟨message, List.mem_flatMap.mpr ⟨input, among, said⟩, endless⟩

/-! ## The inputs of a pass -/

end Session

end SpecServer
