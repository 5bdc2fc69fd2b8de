import SpecServer.Proofs.Engine.Merging
import SpecServer.Proofs.Entries
import SpecServer.Proofs.Json.Display
import SpecServer.Proofs.Workspace.Enduring
set_option autoImplicit false

/-!
What the editor is told about the sources of a merged definition. Each path of a source stands there under its text, and
no two paths have the same text, so that there is one entry for each of them.
-/

namespace SpecServer

/-! ## The order of paths -/

private theorem Segment.lt_trans : ∀ {first second third : Segment}, first < second → second < third → first < third
  | .key _, .key _, .key _, less, further =>
    decide_eq_true (String.lt_trans (of_decide_eq_true less) (of_decide_eq_true further))
  | .key _, .key _, .index _, _, _ => rfl
  | .key _, .index _, .index _, _, _ => rfl
  | .index _, .index _, .index _, less, further =>
    decide_eq_true (Nat.lt_trans (of_decide_eq_true less) (of_decide_eq_true further))

instance Segment.trans_lt : Trans (α := Segment) (· < ·) (· < ·) (· < ·) :=
  ⟨Segment.lt_trans⟩

instance Segment.trichotomous_lt : Std.Trichotomous (α := Segment) (· < ·) where
  trichotomous
    | .key _, .key _, below, above =>
      congrArg Segment.key (Std.Trichotomous.trichotomous (r := (· < ·)) _ _ (below <| decide_eq_true ·)
        (above <| decide_eq_true ·))
    | .key _, .index _, below, _ => absurd rfl below
    | .index _, .key _, _, above => absurd rfl above
    | .index _, .index _, below, above =>
      congrArg Segment.index (Std.Trichotomous.trichotomous (r := (· < ·)) _ _ (below <| decide_eq_true ·)
        (above <| decide_eq_true ·))

instance Segment.irrefl_lt : Std.Irrefl (α := Segment) (· < ·) where
  irrefl
    | .key name, less => String.lt_irrefl name (of_decide_eq_true less)
    | .index i, less => Nat.lt_irrefl i (of_decide_eq_true less)

instance Path.trichotomous_lt : Std.Trichotomous (α := Path) (· < ·) where
  trichotomous _ _ below above := List.le_antisymm above below

namespace Definition

/-! ## The paths of the sources -/

mutual

private theorem ascending_addFields (input : Uri) (path : Path) (merge : Merge) (fields : List (String × Json))
    (ascending : merge.sources.Ascending) : (addFields input path merge fields).sources.Ascending := by
  cases fields with
  | nil => exact ascending
  | cons field rest =>
    rw [addFields]
    exact ascending_addFields input path _ rest (ascending_addField input path merge field ascending)
termination_by structural fields

theorem ascending_addField (input : Uri) (path : Path) (merge : Merge) (field : String × Json)
    (ascending : merge.sources.Ascending) : (addField input path merge field).sources.Ascending := by
  obtain ⟨key, value⟩ := field
  rw [addField]
  split
  · exact ascending.put _ _
  · exact ascending_addInto input (path.key key) key _ merge value ascending
  · exact ascending
termination_by structural field

theorem ascending_addInto (input : Uri) (path : Path) (key : String) (existing : Entries String Json) (merge : Merge)
    (value : Json) (ascending : merge.sources.Ascending) :
    (addInto input path key existing merge value).sources.Ascending := by
  cases value with
  | object fields => exact ascending_addFields input path ⟨existing, merge.sources⟩ fields ascending
  | _ => exact ascending
termination_by structural value

end

/-- The sources of a merged definition are in the order of their paths. -/
theorem ascending_ofDocuments (documents : List (Uri × Entries String Json)) :
    (ofDocuments documents).sources.Ascending := by
  have run : ∀ (rest : List (Uri × Entries String Json)) (merge : Merge), merge.sources.Ascending →
      (rest.foldl (fun merge document => merge.add document.1 (.object document.2)) merge).sources.Ascending := by
    intro rest
    induction rest with
    | nil => exact fun _ ascending => ascending
    | cons document rest ih =>
      intro merge ascending
      exact ih _ (ascending_addFields document.1 Path.root merge document.2 ascending)
  exact run documents .empty .nil

/-- Whether the paths of the sources are all different. -/
def Distinct (definition : Definition) : Prop :=
  (definition.sources.map Prod.fst).Nodup

private theorem distinct_ofDocuments (documents : List (Uri × Entries String Json)) :
    (ofDocuments documents).Distinct := by
  apply List.Pairwise.imp _ (ascending_ofDocuments documents)
  intro path other less same
  subst same
  exact List.lt_irrefl path less

end Definition

private theorem Context.endures_distinct (readable : Texts → Prop) :
    Context.Endures readable fun context => ∀ definition ∈ context.session.definition, definition.Distinct where
  track := by
    intro context key distinct
    simp only [track]
    split <;> exact distinct
  untrack _ distinct := distinct
  activate distinct := distinct
  addInput := by
    intro context uri distinct
    simp only [addInput, Session.addInput]
    split <;> exact distinct
  loaded _ _ distinct := distinct
  passed := by
    intro context texts view _ _ _ _ definition found
    cases found
    rw [Session.ofMerge_merged]
    exact Definition.distinct_ofDocuments _

/-- The sources that a document's merged definition has in a state that is reached have different paths. -/
theorem Workspace.distinct_reached {disk : Disk} {events : List Event} {document : Uri} {definition : Definition}
    (answered : ((reached disk events).definition? document).1 = some definition) : definition.Distinct := by
  have everywhere := everywhere_reached (Context.endures_distinct _)
    (fun _ _ bare _ _ found => nomatch bare.symm.trans found) disk events
  simp only [definition?] at answered
  split at answered
  · cases answered
  next context owner =>
    obtain ⟨id, -, found⟩ := Option.bind_eq_some_iff.mp owner
    split at answered
    next held =>
      cases answered
      exact everywhere.find found _ held
    next => cases answered

namespace Protocol

/-- Paths have different texts, and so the sources of a merged definition are shown with one entry for each of their
paths. The sources of the merged definitions that the workspace keeps have different paths. -/
theorem sources_tell_apart :
    Function.Injective Path.display ∧
      (∀ merged : Definition, merged.Distinct →
        ∃ shown, (definition merged).field? "openapiDefinitionMap" = some (.object shown) ∧
          (shown.map Prod.fst).Nodup ∧
          shown.Perm (merged.sources.map fun entry => (entry.1.display, uri entry.2.editorForm))) ∧
      ∀ disk events document merged,
        ((Workspace.reached disk events).definition? document).1 = some merged → merged.Distinct := by
  refine ⟨Path.display_injective, fun merged distinct => ?_, fun _ _ _ _ => Workspace.distinct_reached⟩
  have apart : ((merged.sources.map fun entry => (entry.1.display, uri entry.2.editorForm)).map Prod.fst).Nodup := by
    rw [List.map_map]
    have displayed := List.Nodup.map Path.display_injective distinct
    rwa [List.map_map] at displayed
  have shown := Entries.ofList_perm apart
  exact ⟨_, rfl, (shown.map Prod.fst).nodup_iff.mpr apart, shown⟩

/-- Two paths of which the text of one starts with the text of the other, though their keys differ from the first one
on. -/
def entwinedSources : Definition :=
  let input : Uri := ⟨"file".toList, some ⟨[], [], none⟩, "/a".toList, none, none⟩
  ⟨.object [], [([.key "a\\", .key "]b"], input), ([.key "a\x27]["], input)]⟩

theorem sources_tell_apart_sample :
    entwinedSources.Distinct ∧
      ∃ shown, (definition entwinedSources).field? "openapiDefinitionMap" = some (.object shown) ∧
        (shown.map Prod.fst).Nodup ∧
        shown.Perm (entwinedSources.sources.map fun entry => (entry.1.display, uri entry.2.editorForm)) := by
  have distinct : entwinedSources.Distinct := by
    unfold Definition.Distinct
    decide
  exact ⟨distinct, sources_tell_apart.2.1 entwinedSources distinct⟩

end Protocol

end SpecServer
