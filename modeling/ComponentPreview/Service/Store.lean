import ComponentPreview.Clock
import ComponentPreview.Document.Basic

/-!
# Stored previews

The store keeps for each session the newest document and the session's registry. An older version
never takes the place of a newer one; a session idle for too long is dropped.
-/

namespace ComponentPreview

structure StoredPreview where
  session : String
  version : Int
  document : Option Document
  registry : Registry
  updatedAt : Instant
  deriving DecidableEq, Repr

structure Store where
  entries : List StoredPreview := []
  deriving DecidableEq, Repr

namespace Store

def empty : Store := {}

def size (store : Store) : Nat :=
  store.entries.length

def find? (store : Store) (session : String) : Option StoredPreview :=
  store.entries.find? (·.session == session)

/-- The stored preview of a session that has a document. -/
def latest? (store : Store) (session : String) : Option StoredPreview :=
  (store.find? session).filter fun entry => entry.document.isSome

def fresh (session : String) (now : Instant) : StoredPreview :=
  ⟨session, 0, none, .empty, now⟩

/-- Makes sure that a session has an entry. -/
def ensure (store : Store) (session : String) (now : Instant) : Store :=
  match store.find? session with
  | some _ => store
  | none => ⟨store.entries ++ [fresh session now]⟩

def update (store : Store) (session : String) (change : StoredPreview → StoredPreview) : Store :=
  ⟨store.entries.map fun entry => if entry.session == session then change entry else entry⟩

def registryOf (store : Store) (session : String) : Registry :=
  ((store.find? session).map StoredPreview.registry).getD .empty

def setRegistry (store : Store) (session : String) (registry : Registry) : Store :=
  store.update session fun entry => { entry with registry }

/-- Records a document unless a newer version is present, and answers whether it did. -/
def save (store : Store) (session : String) (version : Int) (document : Document)
    (now : Instant) : Store × Bool :=
  let store := store.ensure session now
  let isStale := (store.find? session).any fun entry => version < entry.version
  if isStale then (store, false)
  else
    (store.update session fun entry =>
      { entry with version, document := some document, updatedAt := now }, true)

/-- Drops the sessions not updated since `cutoff` and counts them. -/
def dropBefore (store : Store) (cutoff : Instant) : Store × Nat :=
  let kept := store.entries.filter fun entry => cutoff ≤ entry.updatedAt
  (⟨kept⟩, store.entries.length - kept.length)

end Store

end ComponentPreview
