import SpecServer.Proofs.Engine.Source
set_option autoImplicit false

/-!
What a session is after any number of uses. Its view is the last one that was loaded, its definition is that of the last
pass that did not fail, and a use that fails leaves no trace.
-/

namespace SpecServer.Session

variable {σ : Type}

/-- One use of a session. A source may be another one each time, and in any state. -/
inductive Operation (σ : Type) where
  | addConfiguration (layer : Json)
  | addInput (uri : Uri)
  | loadView (source : Source σ) (s : σ)
  | process (source : Source σ) (s : σ)

/-- What a use of a session comes to. -/
structure Outcome where
  failure? : Option EngineError
  messages : List Message
  session : Session

/-- Uses a session. -/
def perform (session : Session) : Operation σ → Outcome
  | .addConfiguration layer => ⟨none, [], session.addConfiguration layer⟩
  | .addInput uri => ⟨none, [], session.addInput uri⟩
  | .loadView source s =>
    match session.loadView source s with
    | (.ok _, after, _) => ⟨none, [], after⟩
    | (.error error, after, _) => ⟨some error, [], after⟩
  | .process source s =>
    match session.process source s with
    | (.ok messages, after, _) => ⟨none, messages, after⟩
    | (.error error, after, _) => ⟨some error, [], after⟩

/-- A session after some uses. -/
def run (session : Session) (operations : List (Operation σ)) : Session :=
  operations.foldl (fun session operation => (session.perform operation).session) session

/-- The uses of a session, each with the session that it finds. -/
def steps (session : Session) : List (Operation σ) → List (Session × Operation σ)
  | [] => []
  | operation :: rest => (session, operation) :: steps (session.perform operation).session rest

/-- The view that a use loads. -/
def loaded? (step : Session × Operation σ) : Option View :=
  match step.2 with
  | .loadView source s | .process source s => (step.1.loadView source s).1.toOption
  | _ => none

/-- The definition that a pass without failure merges: that of the inputs of the view it loads. -/
def merged? (step : Session × Operation σ) : Option Definition :=
  match step.2 with
  | .process source s =>
    match step.1.loadView source s with
    | (.ok view, _, s) =>
      let inputs := step.1.inputsOf view
      some (.ofMerge (Pass.visitAll source (view.isEnabled Message.validator) inputs .empty s).1.merge)
    | _ => none
  | _ => none

/-! ## One use -/

/-- A pass fails with its configuration, or it goes through all inputs of the view that it loads. -/
theorem process_cases (source : Source σ) (session : Session) (s : σ) :
    (∃ error s', session.loadView source s = (.error error, session, s') ∧
      session.process source s = (.error error, session, s')) ∨
    ∃ view s' pass s'', session.loadView source s = (.ok view, { session with view := some view }, s') ∧
      Pass.visitAll source (view.isEnabled Message.validator) (session.inputsOf view) .empty s' = (pass, s'') ∧
      session.process source s = (.ok (pass.messages ++ [session.summary (session.inputsOf view).length pass.findings]),
        { session with view := some view, definition := some (.ofMerge pass.merge) }, s'') := by
  rcases loadView_cases source session s with ⟨error, failed⟩ | ⟨text, view, -, loaded⟩
  · exact .inl ⟨error, _, failed, by simp only [process, failed]⟩
  · exact .inr ⟨view, _, _, _, loaded, rfl, by simp only [process, loaded]; rfl⟩

private theorem perform_failed {session : Session} {operation : Operation σ} {error : EngineError}
    (failed : (session.perform operation).failure? = some error) :
    (session.perform operation).session = session ∧ (session.perform operation).messages = [] := by
  cases operation with
  | addConfiguration layer => cases failed
  | addInput uri => cases failed
  | loadView source s =>
    rcases loadView_cases source session s with ⟨_, result⟩ | ⟨text, view, -, result⟩
    · simp only [perform, result, and_self]
    · simp only [perform, result] at failed
      cases failed
  | process source s =>
    rcases process_cases source session s with ⟨_, s', -, result⟩ | ⟨view, s', pass, s'', -, -, result⟩
    · simp only [perform, result, and_self]
    · simp only [perform, result] at failed
      cases failed

private theorem view_perform (session : Session) (operation : Operation σ) :
    (session.perform operation).session.view = (loaded? (session, operation)).or session.view := by
  cases operation with
  | addConfiguration layer => rfl
  | addInput uri =>
    simp only [perform, addInput, loaded?]
    split <;> rfl
  | loadView source s =>
    rcases loadView_cases source session s with ⟨_, result⟩ | ⟨text, view, -, result⟩ <;>
      simp only [perform, loaded?, result] <;> rfl
  | process source s =>
    rcases process_cases source session s with ⟨_, s', loads, result⟩ | ⟨view, s', pass, s'', loads, -, result⟩ <;>
      simp only [perform, loaded?, loads, result] <;> rfl

private theorem definition_perform (session : Session) (operation : Operation σ) :
    (session.perform operation).session.definition = (merged? (session, operation)).or session.definition := by
  cases operation with
  | addConfiguration layer => rfl
  | addInput uri =>
    simp only [perform, addInput, merged?]
    split <;> rfl
  | loadView source s =>
    rcases loadView_cases source session s with ⟨_, result⟩ | ⟨text, view, -, result⟩ <;>
      simp only [perform, merged?, result] <;> rfl
  | process source s =>
    rcases process_cases source session s with ⟨_, s', loads, result⟩ | ⟨view, s', pass, s'', loads, visited, result⟩
    · simp only [perform, merged?, loads, result]
      rfl
    · simp only [perform, merged?, loads, visited, result]
      rfl

/-! ## Any number of uses -/

/-- What each use sets or leaves is, after all of them, what the last one that set it gave. -/
theorem run_eq_getLast? {α : Type} (part : Session → Option α) {given? : Session × Operation σ → Option α}
    (one : ∀ session operation, part (session.perform operation).session = (given? (session, operation)).or (part session))
    (session : Session) (operations : List (Operation σ)) :
    part (session.run operations) = (((session.steps operations).filterMap given?).getLast?).or (part session) := by
  -- a later use that gives something overrides what the first one gave
  induction operations generalizing session with
  | nil => rfl
  | cons operation rest ih =>
    have further : session.run (operation :: rest) = (session.perform operation).session.run rest := rfl
    rw [further, ih, one, steps]
    cases given : given? (session, operation) with
    | none => rw [List.filterMap_cons_none given, Option.none_or]
    | some value =>
      rw [List.filterMap_cons_some given, List.getLast?_cons]
      cases (((session.perform operation).session.steps rest).filterMap given?).getLast? <;> rfl

/-- After any uses the view is the last one that was loaded and the definition that of the last pass that did not fail. A
use that fails then changes nothing and tells nothing, and a pass fails exactly where loading the view would. -/
theorem run_atomic (configuration : Uri) (operations : List (Operation σ)) :
    ((start configuration).run operations).view =
        (((start configuration).steps operations).filterMap loaded?).getLast? ∧
      ((start configuration).run operations).definition =
        (((start configuration).steps operations).filterMap merged?).getLast? ∧
      (∀ (operation : Operation σ) (error : EngineError),
        (((start configuration).run operations).perform operation).failure? = some error →
          (((start configuration).run operations).perform operation).session = (start configuration).run operations ∧
            (((start configuration).run operations).perform operation).messages = []) ∧
      ∀ (source : Source σ) (s : σ) (error : EngineError),
        (((start configuration).run operations).process source s).1 = .error error ↔
          (((start configuration).run operations).loadView source s).1 = .error error := by
  refine ⟨?_, ?_, fun operation error failed => perform_failed failed, fun source s error => ?_⟩
  · rw [run_eq_getLast? view view_perform]
    exact Option.or_none
  · rw [run_eq_getLast? definition definition_perform]
    exact Option.or_none
  · rcases process_cases source ((start configuration).run operations) s with
      ⟨_, s', loads, result⟩ | ⟨view, s', pass, s'', loads, -, result⟩
    · simp only [loads, result, Except.error.injEq]
    · simp only [loads, result, reduceCtorEq]

end SpecServer.Session
