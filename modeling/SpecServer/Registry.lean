import SpecServer.Context
set_option autoImplicit false

/-!
The living contexts and the keys that lead to them. Each context gets a number of its own, which is never used
again. A key may lead to a context that is gone; looking it up then gives nothing.
-/

namespace SpecServer

/-- A way to find a context: by the folder of its configuration, by the configuration, by an input, or by the
configuration generated for it. -/
inductive ContextKey where
  | folder (uri : Uri)
  | configuration (uri : Uri)
  | input (uri : Uri)
  | synthesized (uri : Uri)
deriving DecidableEq, Repr

/-- The contexts in the order of their numbers, the keys, and the next number. -/
structure Registry where
  contexts : Entries Nat Context
  keys : List (ContextKey × Nat)
  nextId : Nat
deriving DecidableEq

namespace Registry

def empty : Registry := ⟨[], [], 0⟩

def get? (registry : Registry) (id : Nat) : Option Context :=
  registry.contexts.get? id

def ids (registry : Registry) : List Nat :=
  registry.contexts.keys

/-- Adds a context under a new number. No key leads to it yet. -/
def insert (registry : Registry) (context : Context) : Nat × Registry :=
  (registry.nextId,
    { registry with contexts := registry.contexts ++ [(registry.nextId, context)], nextId := registry.nextId + 1 })

def modify (registry : Registry) (id : Nat) (change : Context → Context) : Registry :=
  { registry with
    contexts := registry.contexts.map fun entry => if entry.1 = id then (entry.1, change entry.2) else entry }

def set (registry : Registry) (id : Nat) (context : Context) : Registry :=
  registry.modify id fun _ => context

def index (registry : Registry) (key : ContextKey) (id : Nat) : Registry :=
  { registry with keys := (key, id) :: Entries.erase registry.keys key }

/-- The number that a key leads to, whether that context lives or not. -/
def target? (registry : Registry) (key : ContextKey) : Option Nat :=
  Entries.get? registry.keys key

def lookup (registry : Registry) (key : ContextKey) : Option Nat :=
  (registry.target? key).filter registry.contexts.has

def removeKey (registry : Registry) (key : ContextKey) : Registry :=
  { registry with keys := Entries.erase registry.keys key }

/-- The context that a document belongs to: the one it is an input of, or the configuration of, or else the
first one that tracks it. -/
def ownerOf (registry : Registry) (key : Uri) : Option Nat :=
  match registry.lookup (.input key) with
  | some id => some id
  | none =>
    match registry.lookup (.configuration key) with
    | some id => some id
    | none => (registry.contexts.find? fun entry => entry.2.isTracking key).map Prod.fst

def concerned (registry : Registry) (key : Uri) : List Nat :=
  (registry.contexts.filter fun entry => entry.2.concerns key).map Prod.fst

/-- Whether nothing keeps a context alive: no key leads to it, or it is real and none of its documents is
open. -/
def isIdle (registry : Registry) (active : Uri → Bool) (entry : Nat × Context) : Bool :=
  !(registry.keys.any (·.2 == entry.1)) || (!entry.2.isSynthesized && !entry.2.hasActive active)

/-- Removes all idle contexts together with the keys that lead to them, and gives the removed ones. -/
def prune (registry : Registry) (active : Uri → Bool) : List Context × Registry :=
  let idle := registry.contexts.filter (registry.isIdle active)
  let removed := idle.map Prod.fst
  (idle.map Prod.snd,
    { registry with
      contexts := registry.contexts.filter fun entry => !removed.contains entry.1
      keys := registry.keys.filter fun entry => !removed.contains entry.2 })

end Registry

end SpecServer
