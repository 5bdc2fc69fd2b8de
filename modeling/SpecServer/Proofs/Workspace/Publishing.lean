import SpecServer.Proofs.Diagnostic.Limits
import SpecServer.Proofs.Store.Attribution
import SpecServer.Proofs.Workspace.Refreshing
import SpecServer.Proofs.Workspace.Screen
set_option autoImplicit false

/-!
What a pass publishes. Each document that its context tracks or that a finding is attributed to is published once, with
the findings attributed to it as far as there may be so many, and no other document is published. It publishes at its end,
which it comes to unless the search for a node below an empty key goes on for ever.
-/

namespace SpecServer

-- neither the model's parser nor the disk must be unfolded
attribute [local irreducible] Uri.normalize Store.load

/-! ## Limits -/

/-- The first entries of a list, if their number is limited. -/
def upTo {α : Type} (limit : Option Nat) (entries : List α) : List α :=
  match limit with
  | none => entries
  | some bound => entries.take bound

private theorem upTo_concat {α : Type} (limit : Option Nat) (entries : List α) (last : α) :
    upTo limit (entries ++ [last]) =
      if limit.any (· ≤ (upTo limit entries).length) then upTo limit entries else upTo limit entries ++ [last] := by
  cases limit with
  | none => rfl
  | some bound =>
    simp only [upTo, Option.any_some, decide_eq_true_eq, List.length_take]
    split
    next full => rw [List.take_append_of_le_length (by omega)]
    next room =>
      rw [List.take_of_length_le (by rw [List.length_append, List.length_singleton]; omega),
        List.take_of_length_le (by omega)]

/-! ## Findings -/

/-- The findings that messages tell of, each with the URI that it is about. -/
def findings (chosen : InformationSeverity) (messages : List Message) : List (Uri × Diagnostic) :=
  messages.flatMap fun message =>
    match Route.destination message chosen with
    | .diagnostics found => found
    | .log _ _ => []

/-- The findings that are attributed to a document, as far as there may be so many. -/
def Store.share (store : Store) (limit : Option Nat) (found : List (Uri × Diagnostic)) (key : Uri) : List Diagnostic :=
  upTo limit ((found.filter fun finding => store.home? finding.1 == some key).map Prod.snd)

private theorem Store.share_concat (store : Store) (limit : Option Nat) (found : List (Uri × Diagnostic))
    (finding : Uri × Diagnostic) (key : Uri) : store.share limit (found ++ [finding]) key =
      if store.home? finding.1 = some key ∧ limit.any (· ≤ (store.share limit found key).length) = false then
        store.share limit found key ++ [finding.2]
      else store.share limit found key := by
  by_cases here : store.home? finding.1 = some key
  · have more : (found ++ [finding]).filter (fun finding => store.home? finding.1 == some key) =
        found.filter (fun finding => store.home? finding.1 == some key) ++ [finding] := by
      simp only [List.filter_append, List.filter_cons, List.filter_nil, here, beq_self_eq_true, ↓reduceIte]
    rw [share, more, List.map_append, List.map_singleton, upTo_concat, ← share]
    cases limit.any (· ≤ (store.share limit found key).length) <;> simp [here]
  · have same : (found ++ [finding]).filter (fun finding => store.home? finding.1 == some key) =
        found.filter (fun finding => store.home? finding.1 == some key) := by
      simp only [List.filter_append, List.filter_cons, List.filter_nil, beq_eq_false_iff_ne.mpr here,
        Bool.false_eq_true, ↓reduceIte, List.append_nil]
    rw [share, same, ← share, if_neg fun both => here both.1]

namespace Workspace

variable {origin : Store} {limit : Option Nat} {met more : Uri → Prop} {found : List (Uri × Diagnostic)} {round : Round}
  {workspace : Workspace}

/-! ## The course of a pass -/

/-- Whether the documents met so far show their share of the findings so far, and the budget counts these. -/
structure Tallied (origin : Store) (limit : Option Nat) (met : Uri → Prop) (found : List (Uri × Diagnostic))
    (round : Round) (store : Store) : Prop where
  names : store.names = origin.names
  pending : store.pending = []
  bounded : round.budget.limit = limit
  unique : round.touched.Nodup
  touched : ∀ key, key ∈ round.touched ↔ met key
  covers : ∀ finding ∈ found, ∀ key, origin.home? finding.1 = some key → met key
  used : ∀ key, round.budget.usedBy key = (origin.share limit found key).length
  shown : ∀ key, met key → store.shown? key = some (origin.share limit found key)

private theorem Tallied.congr {store : Store} (tallied : Tallied origin limit met found round store)
    (same : ∀ key, met key ↔ more key) : Tallied origin limit more found round store := by
  have equal : met = more := funext fun key => propext (same key)
  exact equal ▸ tallied

private theorem share_of_unmet (covers : ∀ finding ∈ found, ∀ key, origin.home? finding.1 = some key → met key)
    {key : Uri}
    (new : ¬met key) : origin.share limit found key = [] := by
  have none : found.filter (fun finding => origin.home? finding.1 == some key) = [] := by
    rw [List.filter_eq_nil_iff]
    intro finding member here
    exact new (covers finding member key (beq_iff_eq.mp here))
  rw [Store.share, none]
  cases limit with
  | none => rfl
  | some bound => exact List.take_nil

private theorem Tallied.touch (tallied : Tallied origin limit met found round workspace.store) {key : Uri}
    (known : (workspace.store.file? key).isSome) :
    Tallied origin limit (fun other => met other ∨ other = key) found (touch round workspace key).1
      (Workspace.touch round workspace key).2.store := by
  simp only [Workspace.touch]
  split
  next old =>
    have held := (tallied.touched key).mp (List.contains_iff_mem.mp old)
    exact tallied.congr fun other => ⟨.inl, fun either => either.elim id fun same => same ▸ held⟩
  next new =>
    have unmet : ¬met key := fun held => new (List.contains_iff_mem.mpr ((tallied.touched key).mpr held))
    have cleared : (workspace.store.modify key Document.clear).names = workspace.store.names :=
      Store.names_modify workspace.store key fun _ => rfl
    refine
      { names := cleared.trans tallied.names
        pending := tallied.pending
        bounded := tallied.bounded
        unique := ?_
        touched := ?_
        covers := fun finding member other here => .inl (tallied.covers finding member other here)
        used := tallied.used
        shown := ?_ }
    · refine List.nodup_append.mpr ⟨tallied.unique, List.pairwise_singleton _ _, fun other member last same => ?_⟩
      rw [List.mem_singleton.mp same]
      rintro rfl
      exact unmet ((tallied.touched other).mp member)
    · intro other
      rw [List.mem_append, List.mem_singleton, tallied.touched]
    · intro other either
      simp only [modifyFile, Store.shown?, Store.file?_modify]
      by_cases same : other = key
      · subst same
        obtain ⟨document, stored⟩ := Option.isSome_iff_exists.mp known
        rw [if_pos rfl, stored, share_of_unmet tallied.covers unmet]
        rfl
      · rw [if_neg same]
        exact tallied.shown other (either.resolve_right same)

private theorem Tallied.touchAll (tallied : Tallied origin limit met found round workspace.store) {keys : List Uri}
    (known : ∀ key ∈ keys, (workspace.store.file? key).isSome) :
    Tallied origin limit (fun other => met other ∨ other ∈ keys) found (touchAll round workspace keys).1
      (Workspace.touchAll round workspace keys).2.store := by
  induction keys generalizing round workspace met with
  | nil => exact tallied.congr fun other => by simp
  | cons key rest ih =>
    obtain ⟨first, later⟩ := List.forall_mem_cons.mp known
    have retains := (annotated_touch round workspace key).store
    refine (ih (tallied.touch first) fun other member => ?_).congr fun other => ?_
    · have same := congrArg Option.isSome (retains.documents other)
      simp only [Option.isSome_map] at same
      rw [same]
      exact later other member
    · rw [List.mem_cons, or_assoc]

private theorem Tallied.covers_concat {store : Store} (tallied : Tallied origin limit met found round store)
    {finding : Uri × Diagnostic} (covers : ∀ key, origin.home? finding.1 = some key → met key) :
    ∀ other ∈ found ++ [finding], ∀ key, origin.home? other.1 = some key → met key := by
  intro other member key here
  rcases List.mem_append.mp member with earlier | last
  · exact tallied.covers other earlier key here
  · exact covers key (List.mem_singleton.mp last ▸ here)

private theorem Tallied.skip {store : Store} (tallied : Tallied origin limit met found round store)
    {finding : Uri × Diagnostic} (covers : ∀ key, origin.home? finding.1 = some key → met key)
    (same : ∀ key, origin.share limit (found ++ [finding]) key = origin.share limit found key) :
    Tallied origin limit met (found ++ [finding]) round store := by
  refine { tallied with covers := tallied.covers_concat covers, used := fun key => ?_, shown := fun key held => ?_ }
  · rw [same]
    exact tallied.used key
  · rw [same]
    exact tallied.shown key held

/-- A finding that there is room for is added to the share of its document. -/
theorem Tallied.push {store : Store} (tallied : Tallied origin limit met found round store)
    {finding : Uri × Diagnostic} {key : Uri} (here : origin.home? finding.1 = some key)
    (covers : ∀ other, origin.home? finding.1 = some other → met other)
    (room : limit.any (· ≤ (origin.share limit found key).length) = false) {later : Budget}
    (bounded : later.limit = limit) (counts : ∀ other,
      later.usedBy other = if key = other then round.budget.usedBy key + 1 else round.budget.usedBy other) :
    Tallied origin limit met (found ++ [finding]) { round with budget := later }
      (store.modify key fun document => document.push finding.2) := by
  have grown : ∀ other, origin.share limit (found ++ [finding]) other =
      if other = key then origin.share limit found other ++ [finding.2] else origin.share limit found other := by
    intro other
    rw [Store.share_concat]
    by_cases same : other = key
    · subst same
      rw [if_pos ⟨here, room⟩, if_pos rfl]
    · rw [if_neg fun both => same (Option.some.inj (here.symm.trans both.1)).symm, if_neg same]
  have pushed : (store.modify key fun document => document.push finding.2).names = store.names :=
    Store.names_modify store key fun _ => rfl
  refine
    { names := pushed.trans tallied.names
      pending := tallied.pending
      bounded := bounded
      unique := tallied.unique
      touched := tallied.touched
      covers := tallied.covers_concat covers
      used := fun other => ?_
      shown := fun other met => ?_ }
  · rw [counts, grown]
    by_cases same : other = key
    · subst same
      rw [if_pos rfl, if_pos rfl, tallied.used other, List.length_append, List.length_singleton]
    · rw [if_neg (Ne.symm same), if_neg same]
      exact tallied.used other
  · obtain ⟨document, stored, shows⟩ := Option.map_eq_some_iff.mp (tallied.shown other met)
    simp only [Store.shown?, Store.file?_modify, grown, stored, Option.map_some]
    by_cases same : other = key
    · rw [if_pos same, if_pos same, ← shows]
      rfl
    · rw [if_neg same, if_neg same, ← shows]
      rfl

/-- A finding about a document that was met goes to it as long as there is room. -/
theorem Tallied.give (tallied : Tallied origin limit met found round workspace.store) {finding : Uri × Diagnostic}
    {key : Uri} (here : origin.home? finding.1 = some key) (held : met key) :
    Tallied origin limit met (found ++ [finding]) { round with budget := (round.budget.take key).2 }
      (if (round.budget.take key).1 then workspace.modifyFile key fun document => document.push finding.2
        else workspace).store := by
  have covers : ∀ other, origin.home? finding.1 = some other → met other := by
    intro other there
    exact Option.some.inj (here.symm.trans there) ▸ held
  have used := tallied.used key
  cases full : limit.any (· ≤ (origin.share limit found key).length) with
  | true =>
    have same : ∀ other, origin.share limit (found ++ [finding]) other = origin.share limit found other := by
      intro other
      rw [Store.share_concat, if_neg]
      intro ⟨there, room⟩
      obtain rfl := Option.some.inj (here.symm.trans there)
      cases full.symm.trans room
    rw [← used, ← tallied.bounded] at full
    rw [Budget.take_of_full full]
    exact tallied.skip covers same
  | false =>
    have room := full
    rw [← used, ← tallied.bounded] at room
    obtain ⟨later, taken, bounded, counts⟩ := Budget.take_of_room room
    rw [taken]
    exact tallied.push here covers full (bounded.trans tallied.bounded) counts

private theorem Tallied.deliver (keyed : origin.Keyed) (tallied : Tallied origin limit met found round workspace.store)
    (finding : Uri × Diagnostic) :
    Tallied origin limit (fun key => met key ∨ origin.home? finding.1 = some key) (found ++ [finding])
      (deliver round workspace finding).1 (Workspace.deliver round workspace finding).2.store := by
  have home : origin.home? finding.1 = (workspace.store.find? finding.1).map Document.uri := by
    rw [← Store.home?_congr tallied.names]
    rfl
  simp only [Workspace.deliver]
  cases there : workspace.store.find? finding.1 with
  | none =>
    rw [there, Option.map_none] at home
    have same : ∀ key, origin.share limit (found ++ [finding]) key = origin.share limit found key := by
      intro key
      rw [Store.share_concat, home, if_neg (by simp)]
    exact (tallied.skip (by simp [home]) same).congr fun key => by simp [home]
  | some document =>
    rw [there, Option.map_some] at home
    have known : (workspace.store.file? document.uri).isSome := by
      rw [Store.file?_of_find? (Store.keyed_of_names tallied.names keyed) there, Option.isSome_some]
    have same : ∀ key, met key ∨ key = document.uri ↔ met key ∨ origin.home? finding.1 = some key := by
      intro key
      rw [home, Option.some.injEq, eq_comm]
    have given := ((tallied.touch known).give home (.inr rfl)).congr same
    simp only
    split
    next granted =>
      rw [if_pos granted] at given
      exact given
    next refused =>
      rw [if_neg refused] at given
      exact given

private theorem Tallied.deliverAll (keyed : origin.Keyed)
    (tallied : Tallied origin limit met found round workspace.store)
    (findings : List (Uri × Diagnostic)) :
    Tallied origin limit (fun key => met key ∨ ∃ finding ∈ findings, origin.home? finding.1 = some key)
      (found ++ findings) (deliverAll round workspace findings).1
      (Workspace.deliverAll round workspace findings).2.store := by
  induction findings generalizing round workspace met found with
  | nil =>
    rw [List.append_nil]
    exact tallied.congr fun key => by simp
  | cons finding rest ih =>
    rw [List.append_cons]
    refine (ih (tallied.deliver keyed finding)).congr fun key => ?_
    simp only [List.mem_cons, exists_eq_or_imp, or_assoc]

private theorem Tallied.dispatch (keyed : origin.Keyed) (tallied : Tallied origin limit met found round workspace.store)
    (messages : List Message) :
    Tallied origin limit
      (fun key => met key ∨ ∃ finding ∈ findings workspace.settings.informationSeverity messages,
        origin.home? finding.1 = some key)
      (found ++ findings workspace.settings.informationSeverity messages)
      (dispatch round workspace messages).1 (Workspace.dispatch round workspace messages).2.store := by
  induction messages generalizing round workspace met found with
  | nil =>
    rw [findings, List.flatMap_nil, List.append_nil]
    exact tallied.congr fun key => by simp
  | cons message rest ih =>
    simp only [Workspace.dispatch]
    cases goes : Route.destination message workspace.settings.informationSeverity with
    | log line text =>
      have told : findings workspace.settings.informationSeverity (message :: rest) =
          findings workspace.settings.informationSeverity rest := by
        simp only [findings, List.flatMap_cons, goes, List.nil_append]
      have noted : Tallied origin limit met found round (workspace.log (levelOf line) text).store := tallied
      rw [told]
      exact ih noted
    | diagnostics found' =>
      have told : findings workspace.settings.informationSeverity (message :: rest) =
          found' ++ findings workspace.settings.informationSeverity rest := by
        simp only [findings, List.flatMap_cons, goes]
      have settings := (annotated_deliverAll round workspace found').beside.settings
      have next := ih (tallied.deliverAll keyed found')
      rw [settings] at next
      rw [told, ← List.append_assoc]
      refine next.congr fun key => ?_
      simp only [List.mem_append, or_and_right, exists_or, or_assoc]

private theorem Tallied.quiet {store after : Store} (tallied : Tallied origin limit met found round store)
    (names : after.names = store.names) (quiet : store.Quiet after) : Tallied origin limit met found round after := by
  refine
    { tallied with
      names := names.trans tallied.names
      pending := quiet.pending.trans tallied.pending
      shown := fun key held => ?_ }
  obtain ⟨document, stored, shows⟩ := Option.map_eq_some_iff.mp (tallied.shown key held)
  obtain ⟨later, stored', -, same⟩ := quiet.kept key document stored
  rw [Store.shown?, stored', Option.map_some, same, shows]

/-! ## What is sent -/

/-- At its end a pass publishes the documents that it met with what they show then. -/
theorem Tallied.publish (keyed : origin.Keyed) (tallied : Tallied origin limit met found round workspace.store) :
    publications (workspace.publishAll round.touched).forward.events =
      publications workspace.events ++
        round.touched.map fun key => ⟨key.editorForm, origin.share limit found key⟩ := by
  have sent : (workspace.publishAll round.touched).store.pending =
      round.touched.map fun key => ⟨key.editorForm, origin.share limit found key⟩ := by
    rw [publishAll, Store.pending_foldl_flush, tallied.pending, List.nil_append]
    intro key member
    obtain ⟨document, stored, shows⟩ := Option.map_eq_some_iff.mp (tallied.shown key ((tallied.touched key).mp member))
    have named := Store.keyed_iff.mp (Store.keyed_of_names tallied.names keyed) key document stored
    exact ⟨document, stored, by rw [named, shows]⟩
  rw [forward, publications_append, sent, publications_publish]
  rfl

/-- Whether a context is validated in a state: one that is reached in a run, or one on the way through an edit or a
report of changes, whose contexts are validated one after another. -/
inductive Revalidates (disk : Disk) : Workspace → Nat → Prop
  | asked (events : List Event) (id : Nat) : Revalidates disk (reached disk events) id
  | edited (events : List Event) (uri : Uri) (text : String) (settled : Workspace) (home : Nat)
      (resolved : ((reached disk events).opened uri text).resolve uri.normalize = (.ok home, settled))
      (front : List Nat) (id : Nat) (back : List Nat)
      (order : (settled.enlisted home uri.normalize.normalize.normalize).affected home uri.normalize =
        front ++ id :: back) :
    Revalidates disk ((settled.enlisted home uri.normalize.normalize.normalize).revalidateAll front) id
  | reported (events : List Event) (uris : List Uri) (front : List Nat) (id : Nat) (back : List Nat)
      (order : (noteChanges [] (reached disk events) uris).1 = front ++ id :: back) :
    Revalidates disk ((noteChanges [] (reached disk events) uris).2.revalidateAll front) id

/-- What a pass relies on. -/
structure Ready (workspace : Workspace) : Prop where
  accounted : Accounted (fun _ => True) (fun _ => True) workspace
  shown : ∃ earlier, workspace.Shown earlier

private theorem ready_reached (disk : Disk) (events : List Event) : (reached disk events).Ready := by
  obtain ⟨taken, -, shown⟩ := shown_run events (shown_start disk)
  exact ⟨accounted_reached disk events, taken, shown⟩

private theorem Ready.revalidateAll (ready : workspace.Ready) (ids : List Nat) :
    (workspace.revalidateAll ids).Ready := by
  obtain ⟨accounted, earlier, shown⟩ := ready
  exact ⟨accounted.revalidateAll ids, earlier, shown.revalidateAll ids⟩

private theorem Revalidates.ready {disk : Disk} {id : Nat} (revalidates : Revalidates disk workspace id) :
    workspace.Ready := by
  cases revalidates with
  | asked events => exact ready_reached disk events
  | edited events uri text settled home resolved front =>
    have sound := sound_reached disk events
    obtain ⟨accounted, earlier, shown⟩ := ready_reached disk events
    apply Ready.revalidateAll
    refine ⟨?_, earlier, ?_⟩
    · have opened := accounted.turned (turned_opened (reached disk events) uri text trivial)
      exact opened.turned (turned_ready sound uri text (fun _ _ => trivial) resolved)
    · have searched := (shown.silent (tacit_opened _ uri text).toSilent).resolve uri.normalize
      rw [resolved] at searched
      exact searched.silent (tacit_enlisted settled home _).toSilent
  | reported events uris front =>
    have sound := sound_reached disk events
    obtain ⟨accounted, earlier, shown⟩ := ready_reached disk events
    apply Ready.revalidateAll
    refine ⟨?_, earlier, ?_⟩
    · exact accounted.turned ((asked_noteChanges [] _ uris).turned sound.keyed fun _ _ => trivial)
    · exact shown.silent (asked_noteChanges [] _ uris).silent

end Workspace

end SpecServer
