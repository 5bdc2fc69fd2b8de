import SpecServer.Proofs.Workspace.Lasting
import SpecServer.Proofs.Workspace.Successor
set_option autoImplicit false

/-!
Whether the real context that a document is given has the configuration that was found for it. Contexts are found
by folder, and a folder may hold two configurations: where the one found changes, the context stays.
-/

namespace SpecServer.Workspace

-- the model's parser must not be unfolded to compare two keys
attribute [local irreducible] Uri.normalize

variable {workspace before after : Workspace} {document configuration : Uri}

/-- Whether a context has a configuration, and all that the key of the configuration leads to has it as well. -/
structure Driven (workspace : Workspace) (configuration : Uri) (context : Context) : Prop where
  own : context.configuration = configuration
  keyed : ∀ other rival, workspace.registry.lookup (.configuration configuration) = some other →
    workspace.registry.get? other = some rival → rival.configuration = configuration

/-- Whether no context lives in the folder of a configuration but with that configuration. -/
def Unrivalled (workspace : Workspace) (configuration : Uri) : Prop :=
  ∀ id context, workspace.registry.lookup (.folder configuration.folder) = some id →
    workspace.registry.get? id = some context → context.configuration = configuration

/-- A document that is given a real context is governed by the configuration that was found. -/
theorem configuration_of_choice? {choice : Choice} (chosen : workspace.choice? document = some choice)
    (real : choice.kind = .real)
    (found : (Discovery.find Store.source document.folder workspace.store).1 = .ok (some configuration)) :
    choice.configuration document = configuration := by
  obtain ⟨⟨governor, inputs⟩, governed⟩ := governing?_of_real chosen real
  have same : governor = configuration := by
    simp only [governing?] at governed
    generalize Discovery.find Store.source document.folder workspace.store = outcome at found governed
    obtain ⟨detected, store⟩ := outcome
    simp only at found
    subst found
    simp only at governed
    split at governed
    · split at governed
      · cases governed
        rfl
      · cases governed
    · cases governed
  subst same
  simp only [choice?, governed, Option.some.injEq] at chosen
  split at chosen
  next own =>
    subst chosen
    exact own.symm
  next =>
    subst chosen
    rfl

/-- The context that a search gives is one that the document settled in. -/
theorem sits_resolved {id : Nat} {kind : ContextKind} (coherent : before.registry.outline.Coherent)
    (resolved : Resolved before document (.ok id) after) (sits : after.registry.Sits id kind configuration) :
    ∃ choice settled, before.choice? document = some choice ∧
      Registry.Settled before.registry.outline document choice id settled ∧ settled.Sits id kind configuration := by
  rw [← Registry.sits_outline] at sits
  cases resolved with
  | stayed choice _ _ chosen moved _ _ =>
    have settling := Registry.settled_of_settle coherent.formed moved
    exact ⟨choice, _, chosen, settling, sits⟩
  | left choice _ settled old _ chosen moved _ _ outline _ =>
    have settling := Registry.settled_of_settle coherent.formed moved
    have released := (coherent.settled settling).release old document
    refine ⟨choice, settled, chosen, settling, ?_⟩
    rw [outline] at sits
    split at sits
    · rw [Registry.sits_prune (released.hold _ _).formed, Registry.sits_hold, Registry.sits_release] at sits
      exact sits.1
    · rw [Registry.sits_prune released.formed, Registry.sits_release] at sits
      exact sits.1

/-- A real context that a search gives has the configuration found exactly if its folder held no context with another
one. -/
theorem own_resolved_iff {id : Nat} {context : Context} (coherent : before.registry.outline.Coherent)
    (resolved : Resolved before document (.ok id) after)
    (found : (Discovery.find Store.source document.folder before.store).1 = .ok (some configuration))
    (held : after.registry.get? id = some context) (real : context.kind = .real) :
    context.configuration = configuration ↔ before.Unrivalled configuration := by
  obtain ⟨choice, settled, chosen, settling, sits⟩ := sits_resolved coherent resolved ⟨context, held, real, rfl⟩
  obtain ⟨_, seated, -⟩ := settling.sits_seat coherent
  have kind := (seated.unique sits).1
  have governs := configuration_of_choice? chosen kind found
  have seat := settling.seat
  rw [Choice.seat, kind, governs, Registry.lookup_outline] at seat
  simp only at seat
  cases living : before.registry.lookup (.folder configuration.folder) with
  | none =>
    rw [living, Option.getD_none] at seat
    refine iff_of_true ?_ fun other rival found => absurd (living.symm.trans found) (by simp)
    rcases settling.sits.mp sits with ⟨old, met, -⟩ | ⟨-, -, -, same⟩
    · rw [seat, Registry.get?_nextId coherent.formed] at met
      cases met
    · exact same.trans governs
  | some other =>
    rw [living, Option.getD_some] at seat
    subst seat
    obtain ⟨rival, met, -, same⟩ : before.registry.Sits id .real context.configuration := by
      rcases settling.sits.mp sits with sits | ⟨-, fresh, -⟩
      · exact Registry.sits_outline.mp sits
      · exact absurd (Registry.lives_outline.mpr (Registry.lookup_eq_some_iff.mp living).2) fresh
    constructor
    · intro own number other' leads met'
      cases living.symm.trans leads
      cases met.symm.trans met'
      exact same.trans own
    · intro unrivalled
      exact same.symm.trans (unrivalled id rival living met)

/-- Where a configuration is found for a document and the document is given a real context, in whatever state of the
server, that context is driven by the configuration exactly if no other one drives the folder already. -/
theorem driven_resolved_iff (disk : Disk) (events : List Event) (uri configuration : Uri) (id : Nat) (context : Context)
    (found : (Discovery.find Store.source uri.normalize.folder (reached disk events).store).1 = .ok (some configuration))
    (chosen : ((reached disk events).resolve uri).1 = .ok id)
    (held : ((reached disk events).resolve uri).2.registry.get? id = some context) (real : context.kind = .real) :
    ((reached disk events).resolve uri).2.Driven configuration context ↔ (reached disk events).Unrivalled configuration := by
  have sound := sound_reached disk events
  have coherent := coherent_reached disk events
  have resolved := resolve_spec sound.formed sound.keyed uri
  rw [chosen] at resolved
  have homed := Registry.kept_homed.resolved resolved coherent (homed_reached disk events)
  have coherent' := coherent_resolved resolved coherent
  rw [← own_resolved_iff coherent resolved found held real]
  refine ⟨Driven.own, fun own => ⟨own, fun other rival leads met => ?_⟩⟩
  have sits : ((reached disk events).resolve uri).2.registry.outline.Sits id .real configuration :=
    Registry.sits_outline.mpr ⟨context, held, real, own⟩
  rw [← Registry.lookup_outline, coherent'.lookup] at leads
  cases homed.eq_of_configuration coherent' sits leads
  cases held.symm.trans met
  exact own

/-- The other configuration of the top folder. -/
def spareConfiguration : Uri := ⟨"file".toList, some ⟨[], [], none⟩, "/README.md".toList, none, none⟩

def spareDisk : Disk :=
  ⟨[(["README.md".toUTF8.toList], .file "#see https://aka.ms/autorest".toUTF8.toList)]⟩

/-- A configuration is opened and loses its mark. -/
def unmarkedRun : List Event :=
  [.edit topConfiguration "markdown" "#see https://aka.ms/autorest\ninput-file: x",
    .edit topConfiguration "plaintext" "input-file: x"]

private theorem resolve_unmarkedRun :
    (Discovery.find Store.source topDocument.normalize.folder (reached spareDisk unmarkedRun).store).1.toOption =
        some (some spareConfiguration) ∧
      ((reached spareDisk unmarkedRun).resolve topDocument).1.toOption = some 0 ∧
      (((reached spareDisk unmarkedRun).resolve topDocument).2.registry.get? 0).map
        (fun context => (context.kind, context.configuration)) = some (.real, topConfiguration) := by
  decide +kernel

theorem driven_resolved_iff_sample :
    ∃ context,
      (Discovery.find Store.source topDocument.normalize.folder (reached spareDisk unmarkedRun).store).1 =
          .ok (some spareConfiguration) ∧
        ((reached spareDisk unmarkedRun).resolve topDocument).1 = .ok 0 ∧
        ((reached spareDisk unmarkedRun).resolve topDocument).2.registry.get? 0 = some context ∧ context.kind = .real ∧
        (((reached spareDisk unmarkedRun).resolve topDocument).2.Driven spareConfiguration context ↔
          (reached spareDisk unmarkedRun).Unrivalled spareConfiguration) := by
  obtain ⟨found, chosen, shown⟩ := resolve_unmarkedRun
  obtain ⟨context, held, site⟩ := Option.map_eq_some_iff.mp shown
  have real := congrArg Prod.fst site
  exact ⟨context, ok_of_toOption found, ok_of_toOption chosen, held, real,
    driven_resolved_iff spareDisk unmarkedRun topDocument spareConfiguration 0 context (ok_of_toOption found)
      (ok_of_toOption chosen) held real⟩

/-- A document may be given a real context with another configuration than the one found for it. -/
theorem not_always_driven :
    ¬ ∀ (disk : Disk) (events : List Event) (uri configuration : Uri) (id : Nat) (context : Context),
      (Discovery.find Store.source uri.normalize.folder (reached disk events).store).1 = .ok (some configuration) →
      ((reached disk events).resolve uri).1 = .ok id →
      ((reached disk events).resolve uri).2.registry.get? id = some context → context.kind = .real →
      ((reached disk events).resolve uri).2.Driven configuration context := by
  intro always
  obtain ⟨found, chosen, shown⟩ := resolve_unmarkedRun
  obtain ⟨context, held, site⟩ := Option.map_eq_some_iff.mp shown
  have driven := always spareDisk unmarkedRun topDocument spareConfiguration 0 context (ok_of_toOption found)
    (ok_of_toOption chosen) held (congrArg Prod.fst site)
  have own : topConfiguration = spareConfiguration := (congrArg Prod.snd site).symm.trans driven.own
  exact absurd own (by decide)

end SpecServer.Workspace
