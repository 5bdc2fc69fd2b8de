import SpecServer.Proofs.Engine.Source
set_option autoImplicit false

/-!
Two sources that give the same texts as long as their states are related: the engine makes the same of both, and leaves
related states behind. The search for a configuration reads only the places where one may be.
-/

namespace SpecServer

variable {σ τ : Type} {source : Source σ} {other : Source τ} {among : Uri → Prop} {related : σ → τ → Prop}

/-- Whether two sources give the same texts of some documents in related states, which reading leads to again. -/
def Source.Simulates (source : Source σ) (other : Source τ) (among : Uri → Prop) (related : σ → τ → Prop) : Prop :=
  ∀ uri, among uri → ∀ s t, related s t →
    (other.read uri t).1 = (source.read uri s).1 ∧ related (source.read uri s).2 (other.read uri t).2

private theorem Source.Simulates.read (simulates : source.Simulates other among related) (uri : Uri)
    (member : among uri)
    {s : σ} {t : τ} (start : related s t) : ∃ content s' t', source.read uri s = (content, s') ∧
      other.read uri t = (content, t') ∧ related s' t' := by
  obtain ⟨same, next⟩ := simulates uri member s t start
  exact ⟨_, _, _, rfl, Prod.ext same rfl, next⟩

/-! ## Discovery -/

namespace Discovery

private theorem inFolder_simulates (simulates : source.Simulates other among related) (folder current : Uri)
    (names : List String)
    (all : ∀ name ∈ names, ∀ joined, current.join name = .ok joined → among joined.normalize) {s : σ} {t : τ}
    (start : related s t) : ∃ result s' t', inFolder source folder current names s = (result, s') ∧
      inFolder other folder current names t = (result, t') ∧ related s' t' := by
  induction names generalizing s t with
  | nil => exact ⟨_, s, t, rfl, rfl, start⟩
  | cons name rest ih =>
    obtain ⟨here, later⟩ := List.forall_mem_cons.mp all
    simp only [inFolder]
    cases joins : current.join name with
    | error error => exact ⟨_, s, t, rfl, rfl, start⟩
    | ok joined =>
      obtain ⟨content, s', t', read, read', next⟩ := simulates.read _ (here joined joins) start
      simp only [read, read']
      cases content with
      | error failure => exact ⟨_, s', t', rfl, rfl, next⟩
      | ok content =>
        simp only
        split
        · exact ⟨_, s', t', rfl, rfl, next⟩
        · exact ih later next

private theorem upward_simulates (simulates : source.Simulates other among related) (folder : Uri) (fuel : Nat)
    (current : Uri)
    (all : ∀ place ∈ folders fuel current, ∀ name ∈ names, ∀ joined, place.join name = .ok joined →
      among joined.normalize) {s : σ} {t : τ} (start : related s t) : ∃ result s' t',
      upward source folder fuel current s = (result, s') ∧ upward other folder fuel current t = (result, t') ∧
        related s' t' := by
  induction fuel generalizing current s t with
  | zero => exact ⟨_, s, t, rfl, rfl, start⟩
  | succ fuel ih =>
    have first : current ∈ folders (fuel + 1) current := by
      simp only [folders]
      split
      · exact List.mem_singleton_self _
      · split <;> exact List.mem_cons_self
    obtain ⟨looked, s', t', here, here', next⟩ := inFolder_simulates simulates folder current names (all current first) start
    simp only [upward, here, here']
    cases looked with
    | error error => exact ⟨_, s', t', rfl, rfl, next⟩
    | ok found =>
      cases found with
      | some found => exact ⟨_, s', t', rfl, rfl, next⟩
      | none =>
        simp only [folders] at all
        simp only
        cases above : current.join ".." with
        | error error => exact ⟨_, s', t', rfl, rfl, next⟩
        | ok parent =>
          simp only [above] at all ⊢
          split
          · exact ⟨_, s', t', rfl, rfl, next⟩
          next apart =>
            rw [if_neg apart] at all
            exact ih parent (fun place member => all place (List.mem_cons_of_mem _ member)) next

private theorem mem_candidates {folder place joined : Uri} {name : String} (clear : ¬folder.isOpaque = true)
    (member : place ∈ folders (height folder) folder) (named : name ∈ names) (joins : place.join name = .ok joined) :
    joined.normalize ∈ candidates folder := by
  rw [candidates, if_neg clear]
  refine List.mem_flatMap.mpr ⟨place, member, List.mem_filterMap.mpr ⟨name, named, ?_⟩⟩
  rw [joins]
  rfl

/-- Nothing but the places where a configuration may be decides on the one that is found. -/
theorem find_simulates {folder : Uri} (simulates : source.Simulates other (· ∈ candidates folder) related) {s : σ} {t : τ}
    (start : related s t) : ∃ result s' t', find source folder s = (result, s') ∧ find other folder t = (result, t') ∧
      related s' t' := by
  simp only [find]
  split
  · exact ⟨_, s, t, rfl, rfl, start⟩
  next clear =>
    exact upward_simulates simulates folder _ folder
      (fun place member name named joined joins => mem_candidates clear member named joins) start

-- the parser of the model must not be unfolded to compare what is found
attribute [local irreducible] Uri.normalize Uri.join

variable {holds : σ → Prop} {configuration : Uri}

private theorem inFolder_found (keeps : source.Keeps holds) {folder current : Uri} {names : List String} {s : σ}
    (start : holds s)
    (found : (inFolder source folder current names s).1 = .ok (some configuration)) :
    (∃ name ∈ names, ∃ joined, current.join name = .ok joined ∧ joined.normalize = configuration) ∧
      ∃ s', holds s' ∧ (inFolder source folder current names s).2 = (source.read configuration s').2 := by
  induction names generalizing s with
  | nil => cases found
  | cons name rest ih =>
    simp only [inFolder] at found ⊢
    cases joins : current.join name with
    | error error => simp only [joins] at found; cases found
    | ok joined =>
      have read := keeps joined.normalize s start
      simp only [joins] at found ⊢
      generalize outcome : source.read joined.normalize s = reading at found read ⊢
      obtain ⟨content, s'⟩ := reading
      cases content with
      | error failure => cases found
      | ok content =>
        simp only at found ⊢
        split at found
        next marked =>
          cases found
          rw [if_pos marked]
          exact ⟨⟨name, List.mem_cons_self, joined, joins, rfl⟩, s, start, by rw [outcome]⟩
        next unmarked =>
          rw [if_neg unmarked]
          obtain ⟨⟨other, member, place⟩, last⟩ := ih read found
          exact ⟨⟨other, List.mem_cons_of_mem _ member, place⟩, last⟩

private theorem upward_found (keeps : source.Keeps holds) {folder : Uri} {fuel : Nat} {current : Uri} {s : σ}
    (start : holds s)
    (found : (upward source folder fuel current s).1 = .ok (some configuration)) :
    (∃ place ∈ folders fuel current, ∃ name ∈ names, ∃ joined, place.join name = .ok joined ∧
      joined.normalize = configuration) ∧
      ∃ s', holds s' ∧ (upward source folder fuel current s).2 = (source.read configuration s').2 := by
  induction fuel generalizing current s with
  | zero => cases found
  | succ fuel ih =>
    have first : current ∈ folders (fuel + 1) current := by
      simp only [folders]
      split
      · exact List.mem_singleton_self _
      · split <;> exact List.mem_cons_self
    have looked := inFolder_keeps keeps folder current names start
    have met := @inFolder_found σ source holds configuration keeps folder current names s start
    simp only [upward] at found ⊢
    generalize inFolder source folder current names s = outcome at found looked met ⊢
    obtain ⟨result, s'⟩ := outcome
    cases result with
    | error error => cases found
    | ok here =>
      cases here with
      | some here =>
        obtain ⟨place, last⟩ := met found
        exact ⟨⟨current, first, place⟩, last⟩
      | none =>
        simp only [folders] at first ⊢
        simp only at found ⊢
        cases above : current.join ".." with
        | error error => simp only [above] at found; cases found
        | ok parent =>
          simp only [above] at found ⊢
          by_cases top : parent = current
          · rw [if_pos top] at found
            cases found
          · rw [if_neg top] at found
            simp only [if_neg top]
            obtain ⟨⟨place, member, where'⟩, last⟩ := ih looked found
            exact ⟨⟨place, List.mem_cons_of_mem _ member, where'⟩, last⟩

/-- A configuration that is found is one of the candidates, and it is what the search read last. -/
theorem find_found (keeps : source.Keeps holds) {folder : Uri} {s : σ} (start : holds s)
    (found : (find source folder s).1 = .ok (some configuration)) : configuration ∈ candidates folder ∧
      ∃ s', holds s' ∧ (find source folder s).2 = (source.read configuration s').2 := by
  simp only [find] at found ⊢
  by_cases opaque' : folder.isOpaque = true
  · rw [if_pos opaque'] at found
    cases found
  · rw [if_neg opaque'] at found ⊢
    obtain ⟨⟨place, member, name, named, joined, joins, rfl⟩, last⟩ := upward_found keeps start found
    exact ⟨mem_candidates opaque' member named joins, last⟩

end Discovery

/-! ## References -/

namespace Reference

private theorem external_simulates (simulates : source.Simulates other (fun _ => True) related) (target : Uri)
    (externals : Externals) {s : σ} {t : τ} (start : related s t) : ∃ found later s' t',
      external source target externals s = (found, later, s') ∧ external other target externals t = (found, later, t') ∧
        related s' t' := by
  simp only [external]
  cases Entries.get? externals target with
  | some known => exact ⟨known, externals, s, t, rfl, rfl, start⟩
  | none =>
    obtain ⟨content, s', t', read, read', next⟩ := simulates.read target trivial start
    simp only [read, read']
    exact ⟨_, _, s', t', rfl, rfl, next⟩

private theorem resolves_simulates (simulates : source.Simulates other (fun _ => True) related) (input : Uri)
    (document : Json)
    (reference : String) (externals : Externals) {s : σ} {t : τ} (start : related s t) : ∃ found later s' t',
      resolves source input document reference externals s = (found, later, s') ∧
        resolves other input document reference externals t = (found, later, t') ∧ related s' t' := by
  simp only [resolves]
  split
  · exact ⟨_, _, s, t, rfl, rfl, start⟩
  · split
    · exact ⟨_, _, s, t, rfl, rfl, start⟩
    · split
      · exact ⟨_, _, s, t, rfl, rfl, start⟩
      next joined _ =>
        obtain ⟨found, later, s', t', here, here', next⟩ := external_simulates simulates joined.normalize externals start
        simp only [here, here']
        exact ⟨_, _, s', t', rfl, rfl, next⟩

private theorem checkAll_simulates (simulates : source.Simulates other (fun _ => True) related) (input : Uri)
    (text : String)
    (document : Json) (references : List (Path × String)) (externals : Externals) {s : σ} {t : τ} (start : related s t) :
    ∃ messages later s' t', checkAll source input text document references externals s = (messages, later, s') ∧
      checkAll other input text document references externals t = (messages, later, t') ∧ related s' t' := by
  induction references generalizing externals s t with
  | nil => exact ⟨_, _, s, t, rfl, rfl, start⟩
  | cons reference rest ih =>
    obtain ⟨path, target⟩ := reference
    obtain ⟨found, middle, s', t', here, here', next⟩ :=
      resolves_simulates simulates input document target externals start
    obtain ⟨messages, later, s'', t'', rest', rest'', last⟩ := ih middle next
    simp only [checkAll, here, here', rest', rest'']
    exact ⟨_, _, s'', t'', rfl, rfl, last⟩

end Reference

/-! ## Sessions -/

namespace Session

/-- Whether two sessions load the same configuration and process the same inputs with it. -/
structure SameTask (session later : Session) : Prop where
  configuration : later.configuration = session.configuration
  additions : later.additions = session.additions
  known : later.known = session.known

private theorem SameTask.viewOf {session later : Session} (same : SameTask session later) (text : String) :
    later.viewOf text = session.viewOf text := by
  simp only [Session.viewOf, same.configuration, same.additions]

private theorem SameTask.inputsOf {session later : Session} (same : SameTask session later) (view : View) :
    later.inputsOf view = session.inputsOf view := by
  rw [Session.inputsOf, Session.inputsOf, same.known]

private theorem Pass.visit_simulates (simulates : source.Simulates other (fun _ => True) related) (validate : Bool)
    (input : Uri)
    (pass : Pass) {s : σ} {t : τ} (start : related s t) : ∃ visited s' t',
      pass.visit source validate input s = (visited, s') ∧ pass.visit other validate input t = (visited, t') ∧
        related s' t' := by
  obtain ⟨content, s', t', read, read', next⟩ := simulates.read input trivial start
  simp only [Pass.visit, read, read']
  cases content with
  | error failure => exact ⟨_, s', t', rfl, rfl, next⟩
  | ok content =>
    cases content with
    | none => exact ⟨_, s', t', rfl, rfl, next⟩
    | some text =>
      simp only
      cases Input.parse input text with
      | error error => exact ⟨_, s', t', rfl, rfl, next⟩
      | ok document =>
        obtain ⟨messages, later, s'', t'', checked, checked', last⟩ := Reference.checkAll_simulates simulates input
          text document (Reference.collect Path.root document) pass.externals next
        simp only [Reference.check, checked, checked']
        exact ⟨_, s'', t'', rfl, rfl, last⟩

private theorem Pass.visitAll_simulates (simulates : source.Simulates other (fun _ => True) related) (validate : Bool)
    (inputs : List Uri) (pass : Pass) {s : σ} {t : τ} (start : related s t) :
    related (Pass.visitAll source validate inputs pass s).2 (Pass.visitAll other validate inputs pass t).2 := by
  induction inputs generalizing pass s t with
  | nil => exact start
  | cons input rest ih =>
    obtain ⟨visited, s', t', here, here', next⟩ := visit_simulates simulates validate input pass start
    simp only [Pass.visitAll, here, here']
    exact ih visited next

theorem process_simulates {session later : Session} (same : SameTask session later)
    (simulates : source.Simulates other (fun _ => True) related) {s : σ} {t : τ} (start : related s t) :
    related (session.process source s).2.2 (later.process other t).2.2 := by
  obtain ⟨content, s', t', read, read', next⟩ := simulates.read session.configuration trivial start
  simp only [process, loadView, read, read', same.configuration]
  cases content with
  | error failure => exact next
  | ok content =>
    cases content with
    | none => exact next
    | some text =>
      simp only [same.viewOf]
      cases session.viewOf text with
      | error error => exact next
      | ok view =>
        show related (Pass.visitAll source (view.isEnabled Message.validator) (session.inputsOf view) .empty s').2
          (Pass.visitAll other (view.isEnabled Message.validator) (later.inputsOf view) .empty t').2
        rw [same.inputsOf view]
        exact Pass.visitAll_simulates simulates _ _ _ next

end Session

end SpecServer
