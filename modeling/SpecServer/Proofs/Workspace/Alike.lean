import SpecServer.Proofs.Registry.Outline
import SpecServer.Proofs.Workspace.Parts
import SpecServer.Proofs.Workspace.Silence
set_option autoImplicit false

/-!
Workspaces that are alike: the same outline of the registry, and the same status of all documents. What reads,
reports, publishes or runs a pass leads to a workspace that is alike.
-/

namespace SpecServer

theorem Store.source_keeps (status : Uri → Option (Uri × Bool)) :
    Store.source.Keeps fun store => store.status? = status := by
  intro uri store same
  exact (Store.status?_read store uri).trans same

namespace Workspace

/-- Whether two workspaces agree on all that ownership depends on. -/
structure Alike (before after : Workspace) : Prop where
  outline : after.registry.outline = before.registry.outline
  status : after.store.status? = before.store.status?

variable {workspace : Workspace}

theorem Alike.rfl : Alike workspace workspace := ⟨.refl _, .refl _⟩

theorem Alike.trans {first second third : Workspace} (left : Alike first second) (right : Alike second third) :
    Alike first third :=
  ⟨right.outline.trans left.outline, right.status.trans left.status⟩

theorem Alike.formed {before after : Workspace} (alike : Alike before after) (formed : before.registry.WellFormed) :
    after.registry.WellFormed := by
  rw [← Registry.wellFormed_outline, alike.outline, Registry.wellFormed_outline]
  exact formed

theorem Alike.keyed {before after : Workspace} (alike : Alike before after) (keyed : before.store.Keyed) :
    after.store.Keyed :=
  keyed.congr alike.status

theorem alike_of_store {after : Workspace} (registry : after.registry = workspace.registry)
    (status : after.store.status? = workspace.store.status?) : Alike workspace after :=
  ⟨registry ▸ .refl _, status⟩

theorem alike_log (workspace : Workspace) (level : LogLevel) (text : String) :
    Alike workspace (workspace.log level text) := ⟨.refl _, .refl _⟩

theorem alike_forward (workspace : Workspace) : Alike workspace workspace.forward := ⟨.refl _, .refl _⟩

theorem alike_hide (workspace : Workspace) (key : Uri) : Alike workspace (workspace.hide key) :=
  ⟨.refl _, Store.status?_hide _ _⟩

theorem alike_modifyFile (workspace : Workspace) (key : Uri) {change : Document → Document}
    (same : ∀ document, (change document).uri = document.uri ∧ (change document).active = document.active) :
    Alike workspace (workspace.modifyFile key change) :=
  ⟨.refl _, Store.status?_modify _ _ same⟩

private theorem alike_publishAll (workspace : Workspace) (keys : List Uri) :
    Alike workspace (workspace.publishAll keys) :=
  ⟨.refl _, Store.status?_foldl_flush _ _⟩

/-! ## Passes -/

/-- Whether nothing changed but the diagnostics of documents and the log. -/
structure Annotated (before after : Workspace) : Prop where
  registry : after.registry = before.registry
  store : before.store.Retains after.store
  beside : Beside before after
  endless : after.endless = before.endless
  told : ∃ lines, after.events = before.events ++ lines ∧ publications lines = []

private theorem Annotated.rfl : Annotated workspace workspace :=
  ⟨.refl _, .rfl, .rfl, .refl _, [], (List.append_nil _).symm, .refl _⟩

private theorem Annotated.trans {first second third : Workspace} (left : Annotated first second)
    (right : Annotated second third) : Annotated first third := by
  obtain ⟨lines, told, silent⟩ := left.told
  obtain ⟨more, told', silent'⟩ := right.told
  refine ⟨right.registry.trans left.registry, left.store.trans right.store, left.beside.trans right.beside,
    right.endless.trans left.endless, lines ++ more, ?_, ?_⟩
  · rw [told', told, List.append_assoc]
  · rw [publications_append, silent, silent', List.append_nil]

private theorem Annotated.alike {before after : Workspace} (annotated : Annotated before after) : Alike before after :=
  alike_of_store annotated.registry annotated.store.status

theorem Annotated.publications {before after : Workspace} (annotated : Annotated before after) :
    publications after.events = publications before.events := by
  obtain ⟨lines, told, silent⟩ := annotated.told
  rw [told, publications_append, silent, List.append_nil]

theorem Annotated.extends {before after : Workspace} (annotated : Annotated before after) :
    before.events <+: after.events := by
  obtain ⟨lines, told, -⟩ := annotated.told
  exact ⟨lines, told.symm⟩

private theorem annotated_log (workspace : Workspace) (level : LogLevel) (text : String) :
    Annotated workspace (workspace.log level text) := by
  refine ⟨rfl, .rfl, ⟨rfl, rfl, rfl, rfl⟩, rfl, _, rfl, ?_⟩
  split <;> rfl

private theorem annotated_modifyFile (workspace : Workspace) (key : Uri) {change : Document → Document}
    (same : ∀ document, (change document).clear = document.clear) :
    Annotated workspace (workspace.modifyFile key change) :=
  ⟨rfl, Store.retains_modify _ _ same, ⟨rfl, rfl, rfl, rfl⟩, rfl, [], (List.append_nil _).symm, rfl⟩

theorem annotated_touch (round : Round) (workspace : Workspace) (key : Uri) :
    Annotated workspace (touch round workspace key).2 := by
  simp only [touch]
  split
  · exact .rfl
  · exact annotated_modifyFile workspace key fun _ => rfl

theorem annotated_touchAll (round : Round) (workspace : Workspace) (keys : List Uri) :
    Annotated workspace (touchAll round workspace keys).2 := by
  induction keys generalizing round workspace with
  | nil => exact .rfl
  | cons key rest ih => exact (annotated_touch round workspace key).trans (ih _ _)

private theorem annotated_deliver (round : Round) (workspace : Workspace) (found : Uri × Diagnostic) :
    Annotated workspace (deliver round workspace found).2 := by
  simp only [deliver]
  split
  · exact .rfl
  next document _ =>
    have touched := annotated_touch round workspace document.uri
    split
    · exact touched.trans (annotated_modifyFile _ _ fun _ => rfl)
    · exact touched

theorem annotated_deliverAll (round : Round) (workspace : Workspace) (found : List (Uri × Diagnostic)) :
    Annotated workspace (deliverAll round workspace found).2 := by
  induction found generalizing round workspace with
  | nil => exact .rfl
  | cons first rest ih => exact (annotated_deliver round workspace first).trans (ih _ _)

theorem annotated_dispatch (round : Round) (workspace : Workspace) (messages : List Message) :
    Annotated workspace (dispatch round workspace messages).2 := by
  induction messages generalizing round workspace with
  | nil => exact .rfl
  | cons message rest ih =>
    simp only [dispatch]
    split
    · exact (annotated_log _ _ _).trans (ih _ _)
    · exact (annotated_deliverAll _ _ _).trans (ih _ _)

/-- A pass clears documents, processes its context, and gives what it found to documents; these are published at its
end. It is endless if the processing is. -/
theorem runPass_course (workspace : Workspace) (id : Nat) (context : Context) : ∃ cleared last keys processed,
    Annotated workspace cleared ∧
      Annotated
        { cleared with
          store := (context.process cleared.store).2.2
          endless := cleared.endless || isEndless (context.process cleared.store).1
          registry := workspace.registry.set id
            { (context.process cleared.store).2.1 with processed := processed } } last ∧
      (workspace.runPass id context).2 = (last.publishAll keys).forward := by
  have cleared := annotated_touchAll ⟨Budget.start workspace.settings.problemLimit, []⟩ workspace context.tracked
  simp only [runPass]
  generalize touchAll ⟨Budget.start workspace.settings.problemLimit, []⟩ workspace context.tracked = touched at cleared ⊢
  obtain ⟨round, touched⟩ := touched
  simp only at cleared ⊢
  rw [← cleared.registry]
  generalize processes : context.process touched.store = outcome
  obtain ⟨result, later, store⟩ := outcome
  cases result with
  | error error =>
    refine ⟨touched, _, round.touched, later.processed, cleared, ?_, rfl⟩
    rw [processes]
    exact .rfl
  | ok messages =>
    refine ⟨touched, _, _, some (later.generations store), cleared, ?_, rfl⟩
    rw [processes]
    exact annotated_dispatch round _ messages

private theorem alike_runPass (formed : workspace.registry.WellFormed) {id : Nat} {context : Context}
    (found : workspace.registry.get? id = some context) : Alike workspace (workspace.runPass id context).2 := by
  obtain ⟨cleared, last, keys, processed, clears, annotates, ended⟩ := runPass_course workspace id context
  have reads : (context.process cleared.store).2.2.status? = cleared.store.status? :=
    Session.process_keeps (Store.source_keeps cleared.store.status?) context.session (.refl _)
  have settled : Alike workspace
      { cleared with
        store := (context.process cleared.store).2.2
        endless := cleared.endless || isEndless (context.process cleared.store).1
        registry := workspace.registry.set id
          { (context.process cleared.store).2.1 with processed := processed } } :=
    ⟨Registry.outline_set formed found (Context.outline_process context cleared.store), reads.trans clears.alike.status⟩
  rw [ended]
  exact settled.trans (annotates.alike.trans ((alike_publishAll _ _).trans (alike_forward _)))

private theorem Alike.runPass {before after : Workspace} (alike : Alike before after)
    (formed : before.registry.WellFormed)
    {id : Nat} {context : Context} (found : after.registry.get? id = some context) :
    Alike before (after.runPass id context).2 :=
  alike.trans (alike_runPass (alike.formed formed) found)

theorem alike_revalidate (formed : workspace.registry.WellFormed) (id : Nat) :
    Alike workspace (workspace.revalidate id).2 :=
  revalidate_keeps (Alike workspace) (fun _ _ _ found alike => alike.runPass formed found) .rfl id

theorem alike_revalidateAll (formed : workspace.registry.WellFormed) (ids : List Nat) :
    Alike workspace (workspace.revalidateAll ids) :=
  revalidateAll_keeps (Alike workspace) (fun _ _ _ found alike => alike.runPass formed found)
    (fun before level text alike => alike.trans (alike_log before level text)) .rfl ids

end Workspace

end SpecServer
