import VesselCaller.Operations.Views
import VesselCaller.Lib.Service

/-!
# The offline queue of a browser

`lib/offlineQueue.ts` and the loop of `app/store.tsx` that empties it.  All tabs of a
browser share one IndexedDB object store.  A queue operation is a sequence of IndexedDB
transactions, each of which is atomic and may fail, and nothing holds the store between
two of them; `flushingRef` keeps a tab from flushing twice at once, but not from flushing
beside another tab.

A tab is therefore a small machine (`Flush`) that stands between two transactions, or
waits for the server, and `Browser.handle` moves one tab by one transaction.  The upload
itself is opaque here: its outcome arrives with the event.

## Main definitions

* `QueueStore` — the object store all tabs share;
* `Flush`, `Tab` — the loop of a tab, between two transactions;
* `Browser`, `Event` — all tabs, in any interleaving.
-/

namespace VesselCaller.Client

open Lib Operations

/-! ## Captures -/

/-- A file of a capture, with the checksum of its bytes. -/
structure EvidenceFile where
  name : String
  type : String
  size : ℕ
  checksum : String
  deriving DecidableEq, Repr

inductive QueueOperation where
  | create
  | update
  deriving DecidableEq, Repr

structure QueuedInspection where
  id : String
  organizationId : Id
  userId : Id
  data : InspectionInput
  evidenceFiles : List EvidenceFile
  createdAt : Instant
  attempts : ℕ
  operation : QueueOperation
  inspectionId : Option Id
  finalize : Bool
  lastAttemptAt : Option Instant
  lastError : Option String

instance : Keyed QueuedInspection String := ⟨QueuedInspection.id⟩

/-- `lastError?.startsWith("blocked:")`. -/
def QueuedInspection.blocked (item : QueuedInspection) : Bool :=
  item.lastError.any fun e => "blocked:".toList.isPrefixOf e.toList

/-! ## Transactions -/

/-- The object store, in the order of its keys. -/
abbrev QueueStore := List QueuedInspection

/-- `store.put(item)`. -/
def QueueStore.put (item : QueuedInspection) (store : QueueStore) : QueueStore :=
  (store.filter fun i => i.id ≠ item.id).orderedInsert (fun a b => a.id ≤ b.id) item

/-- `store.delete(id)`. -/
def QueueStore.delete (id : String) (store : QueueStore) : QueueStore :=
  store.filter fun i => i.id ≠ id

/-- `listQueuedInspectionsForOwner`. -/
def listQueuedInspectionsForOwner (organizationId userId : Id) (store : QueueStore) :
    List QueuedInspection :=
  (sortBy QueuedInspection.createdAt store).filter fun item =>
    item.organizationId = organizationId && item.userId = userId

/-- `ownedInspection`: no such item, an item of another owner, or the item. -/
inductive Owned where
  | absent
  | mismatch
  | found (item : QueuedInspection)

def ownedInspection (id : String) (organizationId userId : Id) (store : QueueStore) : Owned :=
  match Table.get id store with
  | none => .absent
  | some item =>
      if item.organizationId ≠ organizationId ∨ item.userId ≠ userId then .mismatch
      else .found item

/-- The item `markQueuedInspectionAttempt` writes back, from the one it read. -/
def QueuedInspection.attempted (item : QueuedInspection) (now : Instant) (error : String) :
    QueuedInspection :=
  { item with
    attempts := item.attempts + 1
    lastAttemptAt := some now
    lastError := some error }

/-! ## A flush -/

/-- What `persistInspection` came to. -/
inductive Outcome where
  | confirmed
  /-- An error, and whether it is an `ApiError` of a status from 400 to 499. -/
  | failed (rejected : Bool) (detail : String)
  deriving DecidableEq, Repr

/-- Where `flushQueue` stands in a tab. -/
inductive Flush where
  | idle
  | listing (force : Bool)
  | uploading (force : Bool) (item : QueuedInspection) (rest : List QueuedInspection)
  /-- `removeQueuedInspection` is about to read the item. -/
  | removing (force : Bool) (item : QueuedInspection) (rest : List QueuedInspection)
  /-- It has read the item and is about to delete it. -/
  | deleting (force : Bool) (item : QueuedInspection) (rest : List QueuedInspection)
  /-- `markQueuedInspectionAttempt` is about to read the item. -/
  | marking (item : QueuedInspection) (error : String)
  /-- It has read the item and is about to write it back. -/
  | rewriting (item : QueuedInspection)

/-- The head of the loop: blocked items are passed over unless the flush is forced. -/
def Flush.next (force : Bool) (items : List QueuedInspection) : Flush :=
  match items.dropWhile fun item => !force && item.blocked with
  | [] => .idle
  | item :: rest => .uploading force item rest

/-- The text `flushQueue` records. -/
def errorText (rejected : Bool) (detail : String) : String :=
  (if rejected then "blocked:" else "retryable:") ++ detail

structure Tab where
  organizationId : Id
  userId : Id
  flush : Flush

/-- A browser: its object store and its tabs. -/
structure Browser where
  store : QueueStore
  tabs : List Tab

/-- What moves a tab. -/
inductive Move where
  /-- `flushQueue(force)`: at start, on a timer, when the network returns, by hand. -/
  | start (force : Bool)
  /-- The server answered, or did not. -/
  | uploaded (outcome : Outcome)
  /-- The transaction the tab stands before commits, or fails with the message. -/
  | transaction (failure : Option String) (now : Instant)
  /-- The tab is closed or reloaded. -/
  | closed

inductive Event where
  /-- `queueInspection` by `addInspection`, under the key of a new capture. -/
  | capture (item : QueuedInspection)
  | move (tab : ℕ) (m : Move)

/-- One transaction of a tab: the store after it, and where the tab then stands.  What
`removeQueuedInspection` throws is caught by the loop, what
`markQueuedInspectionAttempt` throws ends the flush. -/
def Tab.transact (tab : Tab) (store : QueueStore) (failure : Option String) (now : Instant) :
    Option (QueueStore × Flush) :=
  match tab.flush, failure with
  | .idle, _ | .uploading .., _ => none
  | .listing force, none => some (store, .next force
      (listQueuedInspectionsForOwner tab.organizationId tab.userId store))
  | .removing force item rest, none =>
      match ownedInspection item.id tab.organizationId tab.userId store with
      | .absent => some (store, .next force rest)
      | .mismatch =>
          some (store, .marking item (errorText false "Offline capture ownership mismatch"))
      | .found _ => some (store, .deleting force item rest)
  | .deleting force item rest, none => some (QueueStore.delete item.id store, .next force rest)
  | .marking item error, none =>
      match ownedInspection item.id tab.organizationId tab.userId store with
      | .absent | .mismatch => some (store, .idle)
      | .found read => some (store, .rewriting (read.attempted now error))
  | .rewriting item, none => some (QueueStore.put item store, .idle)
  | .removing _ item _, some message | .deleting _ item _, some message =>
      some (store, .marking item (errorText false message))
  | .listing _, some _ | .marking .., some _ | .rewriting _, some _ => some (store, .idle)

/-- One move of a tab. -/
def Tab.move (tab : Tab) (store : QueueStore) (m : Move) : Option (QueueStore × Flush) :=
  match m, tab.flush with
  | .start force, .idle => some (store, .listing force)
  | .uploaded .confirmed, .uploading force item rest => some (store, .removing force item rest)
  | .uploaded (.failed rejected detail), .uploading _ item _ =>
      some (store, .marking item (errorText rejected detail))
  | .transaction failure now, _ => tab.transact store failure now
  | .closed, _ => some (store, .idle)
  | _, _ => none

/-- One event of the browser; a move the tab cannot make is refused. -/
def Browser.handle (b : Browser) : Event → Except Unit (Browser × Unit)
  | .capture item => .ok ({ b with store := QueueStore.put item b.store }, ())
  | .move i m =>
      match b.tabs[i]? with
      | none => .error ()
      | some tab =>
          match tab.move b.store m with
          | none => .error ()
          | some (store, flush) =>
              .ok ({ store := store, tabs := b.tabs.set i { tab with flush := flush } }, ())

end VesselCaller.Client
