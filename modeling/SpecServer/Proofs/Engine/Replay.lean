import SpecServer.Proofs.Engine.Source
set_option autoImplicit false

/-!
A source that always gives the same texts: what the engine makes of it is what it makes of the texts alone. The
merged definition of a pass is that of the mappings among its inputs, in their order.
-/

namespace SpecServer

theorem toOption_eq_some {ε α : Type} {result : Except ε α} {value : α} :
    result.toOption = some value ↔ result = .ok value := by
  cases result with
  | error error => exact ⟨nofun, nofun⟩
  | ok content => simp [Except.toOption]

theorem join_toOption_eq_some {ε α : Type} {result : Except ε (Option α)} {value : α} :
    result.toOption.join = some value ↔ result = .ok (some value) := by
  cases result with
  | error error => exact ⟨nofun, nofun⟩
  | ok content => simp [Except.toOption]

/-- What readings of documents give. -/
abbrev Texts := Uri → Except ReadFailure (Option String)

variable {σ : Type} {source : Source σ} {texts : Texts} {holds : σ → Prop}

/-- Whether the source gives the same texts in all states of a kind, and each reading leads to such a state. -/
structure Source.Repeats (source : Source σ) (texts : Texts) (holds : σ → Prop) : Prop where
  same : ∀ uri s, holds s → (source.read uri s).1 = texts uri
  keeps : source.Keeps holds

theorem Source.Repeats.read (repeats : source.Repeats texts holds) (uri : Uri) {s : σ} (start : holds s) :
    ∃ s', holds s' ∧ source.read uri s = (texts uri, s') :=
  ⟨_, repeats.keeps uri s start, Prod.ext (repeats.same uri s start) rfl⟩

theorem Source.repeats_ofFunction (texts : Texts) : (Source.ofFunction texts).Repeats texts fun _ => True where
  same := fun _ _ _ => rfl
  keeps := fun _ _ _ => trivial

/-! ## References -/

namespace Reference

private theorem external_replay (repeats : source.Repeats texts holds) (target : Uri) (externals : Externals) {s : σ}
    (start : holds s) : ∃ s', holds s' ∧ external source target externals s =
      ((external (.ofFunction texts) target externals ()).1,
        (external (.ofFunction texts) target externals ()).2.1, s') := by
  simp only [external]
  cases Entries.get? externals target with
  | some known => exact ⟨s, start, rfl⟩
  | none =>
    obtain ⟨s', next, read⟩ := repeats.read target start
    exact ⟨s', next, by simp only [read, Source.ofFunction]⟩

private theorem resolves_replay (repeats : source.Repeats texts holds) (input : Uri) (document : Json)
    (reference : String)
    (externals : Externals) {s : σ} (start : holds s) : ∃ s', holds s' ∧
      resolves source input document reference externals s =
        ((resolves (.ofFunction texts) input document reference externals ()).1,
          (resolves (.ofFunction texts) input document reference externals ()).2.1, s') := by
  simp only [resolves]
  split
  · exact ⟨s, start, rfl⟩
  · split
    · exact ⟨s, start, rfl⟩
    · split
      · exact ⟨s, start, rfl⟩
      next joined _ =>
        obtain ⟨s', next, found⟩ := external_replay repeats joined.normalize externals start
        exact ⟨s', next, by simp only [found]⟩

private theorem checkAll_replay (repeats : source.Repeats texts holds) (input : Uri) (text : String) (document : Json)
    (references : List (Path × String)) (externals : Externals) {s : σ} (start : holds s) : ∃ s', holds s' ∧
      checkAll source input text document references externals s =
        ((checkAll (.ofFunction texts) input text document references externals ()).1,
          (checkAll (.ofFunction texts) input text document references externals ()).2.1, s') := by
  induction references generalizing externals s with
  | nil => exact ⟨s, start, rfl⟩
  | cons reference rest ih =>
    obtain ⟨path, target⟩ := reference
    obtain ⟨s', next, found⟩ := resolves_replay repeats input document target externals start
    simp only [checkAll, found]
    obtain ⟨s'', last, later⟩ := ih (resolves (.ofFunction texts) input document target externals ()).2.1 next
    exact ⟨s'', last, by simp only [later]⟩

end Reference

/-! ## Passes -/

namespace Session

private theorem Pass.visit_replay (repeats : source.Repeats texts holds) (validate : Bool) (input : Uri)
    (pass : Pass) {s : σ}
    (start : holds s) : ∃ s', holds s' ∧
      pass.visit source validate input s = ((pass.visit (.ofFunction texts) validate input ()).1, s') := by
  obtain ⟨s', next, read⟩ := repeats.read input start
  have given : (Source.ofFunction texts).read input () = (texts input, ()) := rfl
  simp only [Pass.visit, read, given]
  split
  · exact ⟨s', next, rfl⟩
  · exact ⟨s', next, rfl⟩
  next text _ =>
    split
    · exact ⟨s', next, rfl⟩
    next document _ =>
      obtain ⟨s'', last, checked⟩ := Reference.checkAll_replay repeats input text document
        (Reference.collect Path.root document) pass.externals next
      exact ⟨s'', last, by simp only [Reference.check, checked]⟩

theorem Pass.visitAll_replay (repeats : source.Repeats texts holds) (validate : Bool) (inputs : List Uri) (pass : Pass)
    {s : σ} (start : holds s) : ∃ s', holds s' ∧
      Pass.visitAll source validate inputs pass s =
        ((Pass.visitAll (.ofFunction texts) validate inputs pass ()).1, s') := by
  induction inputs generalizing pass s with
  | nil => exact ⟨s, start, rfl⟩
  | cons input rest ih =>
    obtain ⟨s', next, visited⟩ := visit_replay repeats validate input pass start
    simp only [Pass.visitAll, visited]
    exact ih _ next

/-- A mapping that stands in an input: one that can be read and parsed. -/
def mapping? (texts : Texts) (input : Uri) : Option (Uri × Entries String Json) :=
  match texts input with
  | .ok (some text) =>
    match Input.parse input text with
    | .ok (.object fields) => some (input, fields)
    | _ => none
  | _ => none

/-- The merge of the mappings among some inputs. -/
def merged (texts : Texts) (inputs : List Uri) : Definition.Merge :=
  (inputs.filterMap (mapping? texts)).foldl (fun merge found => Definition.addFields found.1 Path.root merge found.2)
    .empty

/-- An input adds its mapping to the merge of a pass, if it holds one, and nothing else. -/
theorem Pass.merge_visit (texts : Texts) (validate : Bool) (input : Uri) (pass : Pass) :
    (pass.visit (.ofFunction texts) validate input ()).1.merge =
      match mapping? texts input with
      | some found => Definition.addFields found.1 Path.root pass.merge found.2
      | none => pass.merge := by
  have given : (Source.ofFunction texts).read input () = (texts input, ()) := rfl
  simp only [Pass.visit, given, mapping?]
  cases texts input with
  | error failure => rfl
  | ok content =>
    cases content with
    | none => rfl
    | some text =>
      cases parsed : Input.parse input text with
      | error error => simp only [parsed]; rfl
      | ok document => cases document <;> simp only [parsed] <;> rfl

theorem Pass.merge_visitAll (texts : Texts) (validate : Bool) (inputs : List Uri) (pass : Pass) :
    (Pass.visitAll (.ofFunction texts) validate inputs pass ()).1.merge =
      (inputs.filterMap (mapping? texts)).foldl (fun merge found => Definition.addFields found.1 Path.root merge found.2)
        pass.merge := by
  induction inputs generalizing pass with
  | nil => rfl
  | cons input rest ih =>
    rw [Pass.visitAll, ih, Pass.merge_visit]
    cases found : mapping? texts input <;> simp [found]

/-- The messages of a pass over inputs of fixed texts. -/
def messagesOver (texts : Texts) (session : Session) (view : View) (inputs : List Uri) : List Message :=
  let pass := (Pass.visitAll (.ofFunction texts) (view.isEnabled Message.validator) inputs .empty ()).1
  pass.messages ++ [session.summary inputs.length pass.findings]

/-- The view that fixed texts give. -/
def viewIn (texts : Texts) (session : Session) : Except EngineError View :=
  match texts session.configuration with
  | .error failure => .error (.unreadable failure)
  | .ok none => .error (.configurationMissing session.configuration)
  | .ok (some text) => session.viewOf text

theorem viewIn_eq_ok_iff {session : Session} {view : View} :
    session.viewIn texts = .ok view ↔
      ∃ text, texts session.configuration = .ok (some text) ∧ session.viewOf text = .ok view := by
  simp only [viewIn]
  split <;> simp [*]

theorem loadView_replay (repeats : source.Repeats texts holds) (session : Session) {s : σ} (start : holds s) :
    ∃ s', holds s' ∧ session.loadView source s =
      match session.viewIn texts with
      | .error error => (.error error, session, s')
      | .ok view => (.ok view, { session with view := some view }, s') := by
  obtain ⟨s', next, read⟩ := repeats.read session.configuration start
  refine ⟨s', next, ?_⟩
  cases found : texts session.configuration with
  | error failure => simp [viewIn, loadView, read, found]
  | ok content =>
    cases content with
    | none => simp [viewIn, loadView, read, found]
    | some text => cases made : session.viewOf text <;> simp [viewIn, loadView, read, found, made]

/-- A pass over a source that repeats itself: it fails with its configuration, or else gives the messages and the
merge of its inputs. -/
theorem process_replay (repeats : source.Repeats texts holds) (session : Session) {s : σ} (start : holds s) :
    ∃ s', holds s' ∧ session.process source s =
      match session.viewIn texts with
      | .error error => (.error error, session, s')
      | .ok view =>
        (.ok (session.messagesOver texts view (session.inputsOf view)),
          { session with view := some view, definition := some (.ofMerge (merged texts (session.inputsOf view))) },
          s') := by
  obtain ⟨s', next, loaded⟩ := loadView_replay repeats session start
  simp only [process, loaded]
  cases session.viewIn texts with
  | error error => exact ⟨s', next, rfl⟩
  | ok view =>
    obtain ⟨s'', last, visited⟩ := Pass.visitAll_replay repeats (view.isEnabled Message.validator)
      (session.inputsOf view) .empty next
    have same : ({ session with view := some view } : Session).inputsOf view = session.inputsOf view := rfl
    simp only [same, visited]
    refine ⟨s'', last, ?_⟩
    rw [Pass.merge_visitAll]
    rfl

theorem merged_congr {other : Texts} {inputs : List Uri}
    (same : ∀ input ∈ inputs, ∀ text, texts input = .ok (some text) ↔ other input = .ok (some text)) :
    merged texts inputs = merged other inputs := by
  have parsed : ∀ (texts : Texts) (input : Uri), mapping? texts input = (texts input).toOption.join.bind fun text =>
      match Input.parse input text with
      | .ok (.object fields) => some (input, fields)
      | _ => none := by
    intro texts input
    simp only [mapping?]
    cases texts input with
    | error failure => rfl
    | ok content => cases content <;> rfl
  have found : inputs.filterMap (mapping? texts) = inputs.filterMap (mapping? other) := by
    induction inputs with
    | nil => rfl
    | cons input rest ih =>
      obtain ⟨first, later⟩ := List.forall_mem_cons.mp same
      have read : (texts input).toOption.join = (other input).toOption.join :=
        Option.ext fun text => by rw [join_toOption_eq_some, join_toOption_eq_some, first text]
      rw [List.filterMap_cons, List.filterMap_cons, parsed, parsed, read, ih later]
  rw [merged, merged, found]

/-! ## What a pass reads -/

variable {got : Uri → σ → Prop}

private theorem Pass.visitAll_reads (keeps : ∀ uri, source.Keeps fun s => holds s ∧ got uri s)
    (reads : ∀ uri s, holds s → holds (source.read uri s).2 ∧ got uri (source.read uri s).2) (validate : Bool)
    (inputs : List Uri) (pass : Pass) {s : σ} (start : holds s) :
    ∀ input ∈ inputs, got input (Pass.visitAll source validate inputs pass s).2 := by
  induction inputs generalizing pass s with
  | nil => exact fun _ member => absurd member List.not_mem_nil
  | cons input rest ih =>
    have read := reads input s start
    have visited : holds (pass.visit source validate input s).2 ∧ got input (pass.visit source validate input s).2 := by
      simp only [Pass.visit]
      split
      · exact read
      · exact read
      · split
        · exact read
        · exact Reference.checkAll_keeps (keeps input) _ _ _ _ _ read
    refine List.forall_mem_cons.mpr ⟨?_, ih _ visited.1⟩
    exact (Pass.visitAll_keeps (keeps input) validate rest _ visited).2

/-- A pass without failure reads the configuration and each of its inputs. -/
theorem process_reads (keeps : ∀ uri, source.Keeps fun s => holds s ∧ got uri s)
    (reads : ∀ uri s, holds s → holds (source.read uri s).2 ∧ got uri (source.read uri s).2) (session : Session) {s : σ}
    (start : holds s) {messages : List Message} {view : View} (passed : (session.process source s).1 = .ok messages)
    (loaded : (session.process source s).2.1.view = some view) :
    ∀ uri ∈ session.configuration :: session.inputsOf view, got uri (session.process source s).2.2 := by
  have read : holds (session.loadView source s).2.2 ∧ got session.configuration (session.loadView source s).2.2 := by
    have first := reads session.configuration s start
    simp only [loadView]
    split <;> exact first
  have seen : ∀ found, (session.loadView source s).1 = .ok found →
      (session.loadView source s).2.1 = { session with view := some found } := by
    intro found
    simp only [loadView]
    split
    · intro same
      cases same
    · intro same
      rw [Except.ok.inj same]
  simp only [process] at passed loaded ⊢
  generalize session.loadView source s = outcome at read seen passed loaded ⊢
  obtain ⟨result, later, s'⟩ := outcome
  cases result with
  | error error => cases passed
  | ok found =>
    obtain rfl := seen found rfl
    simp only [Option.some.injEq] at loaded
    subst loaded
    refine List.forall_mem_cons.mpr ⟨?_, Pass.visitAll_reads keeps reads _ _ _ read.1⟩
    exact (Pass.visitAll_keeps (keeps session.configuration) _ _ _ read).2

/-! ## Which inputs a pass processes -/

/-- Known inputs join the declared ones at the end, where they are not declared themselves. -/
theorem inputsOf_eq (session : Session) (view : View) : ∃ added, session.inputsOf view = view.inputs ++ added ∧
    ∀ uri, uri ∈ added ↔ uri ∈ session.known ∧ uri ∉ view.inputs := by
  have joined : ∀ (known inputs : List Uri), ∃ added,
      known.foldl (fun inputs uri => if inputs.contains uri then inputs else inputs ++ [uri]) inputs = inputs ++ added ∧
        ∀ uri, uri ∈ added ↔ uri ∈ known ∧ uri ∉ inputs := by
    intro known
    induction known with
    | nil => exact fun inputs => ⟨[], by simp⟩
    | cons first rest ih =>
      intro inputs
      by_cases declared : first ∈ inputs
      · obtain ⟨added, same, members⟩ := ih inputs
        refine ⟨added, ?_, fun uri => ?_⟩
        · rw [List.foldl_cons, if_pos (List.contains_iff_mem.mpr declared), same]
        · rw [members, List.mem_cons]
          grind
      · obtain ⟨added, same, members⟩ := ih (inputs ++ [first])
        refine ⟨first :: added, ?_, fun uri => ?_⟩
        · rw [List.foldl_cons, if_neg (mt List.contains_iff_mem.mp declared), same, List.append_assoc]
          rfl
        · rw [List.mem_cons, members, List.mem_append, List.mem_singleton, List.mem_cons]
          grind
  exact joined session.known view.inputs

theorem mem_inputsOf {session : Session} {view : View} {uri : Uri} :
    uri ∈ session.inputsOf view ↔ uri ∈ view.inputs ∨ uri ∈ session.known := by
  obtain ⟨added, same, members⟩ := session.inputsOf_eq view
  rw [same, List.mem_append, members]
  grind

theorem length_inputsOf_iff {session : Session} {view : View} :
    (session.inputsOf view).length = view.inputs.length ↔ ∀ uri ∈ session.known, uri ∈ view.inputs := by
  obtain ⟨added, same, members⟩ := session.inputsOf_eq view
  rw [same, List.length_append, Nat.add_eq_left, List.length_eq_zero_iff, List.eq_nil_iff_forall_not_mem]
  simp only [members, not_and, Decidable.not_not]

/-- Where all known inputs are declared, a pass processes the declared ones. -/
theorem inputsOf_eq_inputs {session : Session} {view : View} (declared : ∀ uri ∈ session.known, uri ∈ view.inputs) :
    session.inputsOf view = view.inputs := by
  obtain ⟨added, same, -⟩ := session.inputsOf_eq view
  have none' := length_inputsOf_iff.mpr declared
  rw [same, List.length_append, Nat.add_eq_left, List.length_eq_zero_iff] at none'
  rw [same, none', List.append_nil]

private theorem summary_inputs {session : Session} {inputs findings others found : Nat}
    (same : session.summary inputs findings = session.summary others found) : inputs = others := by
  have text := congrArg (fun message => message.text.toList) same
  have digits : ∀ (n : Nat) (rest : List Char),
      ((toString n).toList ++ (" input file(s) for ".toList ++ rest)).takeWhile Char.isDigit = Nat.toDigits 10 n := by
    intro n rest
    rw [Nat.toString_eq_repr, Nat.toList_repr, List.takeWhile_append_of_pos]
    · exact List.append_nil _
    · exact fun _ member => Nat.isDigit_of_mem_toDigits (by decide) (by decide) member
  simp only [summary, Message.plain, String.toList_append, List.append_assoc, List.append_cancel_left_eq] at text
  have written := congrArg (List.takeWhile Char.isDigit) text
  rw [digits, digits] at written
  rw [← Nat.ofDigitChars_ten_toDigits (n := inputs), written, Nat.ofDigitChars_ten_toDigits]

theorem length_of_messagesOver {session : Session} {view : View} {inputs others : List Uri}
    (same : session.messagesOver texts view inputs = session.messagesOver texts view others) :
    inputs.length = others.length := by
  have last := (List.append_inj' same rfl).2
  exact summary_inputs (List.singleton_inj.mp last)

end Session

end SpecServer
