import SpecServer.Engine.Discovery
import SpecServer.Engine.Session
set_option autoImplicit false

/-!
What every reading of a source keeps is kept by all that the engine does with the source: by the search for
configurations, by loading one, and by a whole pass.
-/

namespace SpecServer

variable {σ : Type} {source : Source σ} {holds : σ → Prop}

/-- Whether each reading of the source keeps a property of its state. -/
def Source.Keeps (source : Source σ) (holds : σ → Prop) : Prop :=
  ∀ uri s, holds s → holds (source.read uri s).2

/-! ## Discovery -/

theorem Discovery.inFolder_keeps (keeps : source.Keeps holds) (folder current : Uri) (names : List String) {s : σ}
    (start : holds s) : holds (Discovery.inFolder source folder current names s).2 := by
  induction names generalizing s with
  | nil => exact start
  | cons name rest ih =>
    simp only [Discovery.inFolder]
    split
    · exact start
    next joined _ =>
      have read := keeps joined.normalize s start
      split
      next failed => simpa only [failed] using read
      next content after succeeded =>
        rw [succeeded] at read
        split
        · exact read
        · exact ih read

private theorem Discovery.upward_keeps (keeps : source.Keeps holds) (folder : Uri) (fuel : Nat) (current : Uri) {s : σ}
    (start : holds s) : holds (Discovery.upward source folder fuel current s).2 := by
  induction fuel generalizing current s with
  | zero => exact start
  | succ fuel ih =>
    have looked := Discovery.inFolder_keeps keeps folder current Discovery.names start
    simp only [Discovery.upward]
    split
    next failed => simpa only [failed] using looked
    next found => simpa only [found] using looked
    next after absent =>
      rw [absent] at looked
      split
      · exact looked
      · split
        · exact looked
        · exact ih _ looked

theorem Discovery.find_keeps (keeps : source.Keeps holds) (folder : Uri) {s : σ} (start : holds s) :
    holds (Discovery.find source folder s).2 := by
  simp only [Discovery.find]
  split
  · exact start
  · exact Discovery.upward_keeps keeps folder _ folder start

/-! ## References -/

namespace Reference

private theorem external_keeps (keeps : source.Keeps holds) (target : Uri) (externals : Externals) {s : σ}
    (start : holds s) :
    holds (external source target externals s).2.2 := by
  simp only [external]
  split
  · exact start
  · exact keeps target s start

private theorem resolves_keeps (keeps : source.Keeps holds) (input : Uri) (document : Json) (reference : String)
    (externals : Externals) {s : σ} (start : holds s) :
    holds (resolves source input document reference externals s).2.2 := by
  simp only [resolves]
  split
  · exact start
  · split
    · exact start
    · split
      · exact start
      · exact external_keeps keeps _ externals start

theorem checkAll_keeps (keeps : source.Keeps holds) (input : Uri) (text : String) (document : Json)
    (references : List (Path × String)) (externals : Externals) {s : σ} (start : holds s) :
    holds (checkAll source input text document references externals s).2.2 := by
  induction references generalizing externals s with
  | nil => exact start
  | cons reference rest ih =>
    obtain ⟨path, target⟩ := reference
    simp only [checkAll]
    exact ih _ (resolves_keeps keeps input document target externals start)

end Reference

/-! ## Sessions -/

namespace Session

/-- Loading a configuration fails and changes nothing, or it sets the view that the text gives. -/
theorem loadView_cases (source : Source σ) (session : Session) (s : σ) :
    (∃ error, session.loadView source s = (.error error, session, (source.read session.configuration s).2)) ∨
      ∃ text view, session.viewOf text = .ok view ∧ session.loadView source s =
        (.ok view, { session with view := some view }, (source.read session.configuration s).2) := by
  simp only [loadView]
  split
  next error failed => exact .inl ⟨error, rfl⟩
  next view loaded =>
    split at loaded
    · cases loaded
    · cases loaded
    next text _ => exact .inr ⟨text, view, loaded, rfl⟩

theorem loadView_keeps (keeps : source.Keeps holds) (session : Session) {s : σ} (start : holds s) :
    holds (session.loadView source s).2.2 := by
  have read := keeps session.configuration s start
  simp only [loadView]
  split <;> exact read

private theorem Pass.visit_keeps (keeps : source.Keeps holds) (validate : Bool) (input : Uri) (pass : Pass) {s : σ}
    (start : holds s) : holds (pass.visit source validate input s).2 := by
  have read := keeps input s start
  simp only [Pass.visit]
  split
  · exact read
  · exact read
  · split
    · exact read
    · exact Reference.checkAll_keeps keeps _ _ _ _ _ read

theorem Pass.visitAll_keeps (keeps : source.Keeps holds) (validate : Bool) (inputs : List Uri) (pass : Pass) {s : σ}
    (start : holds s) : holds (Pass.visitAll source validate inputs pass s).2 := by
  induction inputs generalizing pass s with
  | nil => exact start
  | cons input rest ih =>
    simp only [Pass.visitAll]
    exact ih _ (Pass.visit_keeps keeps validate input pass start)

theorem process_keeps (keeps : source.Keeps holds) (session : Session) {s : σ} (start : holds s) :
    holds (session.process source s).2.2 := by
  have loaded := loadView_keeps keeps session start
  simp only [process]
  split
  next failed => simpa only [failed] using loaded
  next succeeded =>
    rw [succeeded] at loaded
    exact Pass.visitAll_keeps keeps _ _ _ loaded

end Session

end SpecServer
