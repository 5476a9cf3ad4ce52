import ModalNotes.Link.Store

/-! Saving links in one transaction. The note comes first, then updates, insertions and deletions, each
attempted even after another has failed; the transaction is committed if nothing failed and rolled back
otherwise, and only a commit settles the store. -/
namespace ModalNotes

structure Backend (ω : Type) where
  start : ω → ω
  update : Int → List Link → Run ω Unit
  insert : Int → List Link → Run ω Unit
  delete : Int → List Link → Run ω Unit
  commit : Run ω Unit
  rollback : ω → ω
  close : ω → ω

structure Ledger (ω : Type) where
  store : LinkStore
  world : ω

structure SyncReport where
  updated : Nat := 0
  inserted : Nat := 0
  deleted : Nat := 0
  deriving DecidableEq, Repr

def SyncReport.writes (r : SyncReport) : Nat := r.updated + r.inserted + r.deleted

namespace Ledger

variable {ω α : Type}

def onWorld (m : Run ω α) : Run (Ledger ω) α :=
  Run.on (·.world) (fun world l => { l with world }) m

def onStore (m : Run LinkStore α) : Run (Ledger ω) α :=
  Run.on (·.store) (fun store l => { l with store }) m

def warn (line : Text) : Run (Ledger ω) Unit :=
  Run.log { level := Level.warning, logger := Logger.linkSync, head := line }

def tryLeg (leg : Leg) (links : List Link) (m : Run ω Unit) : Run (Ledger ω) (List (Leg × Fault)) := do
  if links.isEmpty then pure []
  else
    match ← Run.attempt (onWorld m) with
    | .ok _ => pure []
    | .error fault =>
      warn ("link ".toList ++ leg.name ++ " leg failed: ".toList ++ fault.reason)
      pure [(leg, fault)]

def tryCommit (backend : Backend ω) : Run (Ledger ω) (List (Leg × Fault)) := do
  match ← Run.attempt (onWorld backend.commit) with
  | .ok _ => pure []
  | .error fault =>
    warn ("link commit failed: ".toList ++ fault.reason)
    pure [(.commit, fault)]

def abort (backend : Backend ω) (fault : Fault) : Run (Ledger ω) α := do
  onWorld (Run.modify backend.rollback)
  Run.fail fault

def runLegs (backend : Backend ω) (parent : Int) (d : LinkDiff) : Run (Ledger ω) Unit := do
  let updates ← tryLeg .update d.toUpdate (backend.update parent d.toUpdate)
  let inserts ← tryLeg .insert d.toInsert (backend.insert parent d.toInsert)
  let deletes ← tryLeg .delete d.toDelete (backend.delete parent d.toDelete)
  let failures := updates ++ inserts ++ deletes
  let failures ← if failures.isEmpty then tryCommit backend else pure failures
  if failures.isEmpty then pure () else abort backend (.syncFailed failures)

def runNoteLeg (backend : Backend ω) (noteLeg : Option (Run (Ledger ω) Unit)) :
    Run (Ledger ω) Unit := do
  match noteLeg with
  | none => pure ()
  | some leg =>
    match ← Run.attempt leg with
    | .ok _ => pure ()
    | .error fault =>
      warn ("note leg failed: ".toList ++ fault.reason)
      abort backend (.syncFailed [(.note, fault)])

def transact (backend : Backend ω) (noteLeg : Option (Run (Ledger ω) Unit)) (d : LinkDiff) :
    Run (Ledger ω) Unit := do
  runNoteLeg backend noteLeg
  let l ← Run.get
  match l.store.parent with
  | none => abort backend .unboundNote
  | some parent => runLegs backend parent d

def inTransaction (backend : Backend ω) (m : Run (Ledger ω) α) : Run (Ledger ω) α := fun l =>
  let o := m { l with world := backend.start l.world }
  { o with state := { o.state with world := backend.close o.state.world } }

def syncNotes (r : Except Fault Unit) : List (Text × Value) :=
  match r with
  | .ok _ => [("committed".toList, .truth true)]
  | .error _ => []

def parentValue (s : LinkStore) : Text × Value :=
  ("note_id".toList, Value.optional .int s.parent)

def sync (backend : Backend ω) (noteLeg : Option (Run (Ledger ω) Unit)) :
    Run (Ledger ω) SyncReport := do
  let l ← Run.get
  let d := l.store.classify
  if d.isEmpty && noteLeg.isNone then
    onStore (Run.modify (·.settle d))
    pure {}
  else if noteLeg.isNone && l.store.parent.isNone then Run.fail .unsavedNote
  else
    let span := Span.make Logger.linkSync "links::sync".toList "links".toList
      (parentValue l.store :: d.counts)
    Run.spannedWith span syncNotes (inTransaction backend (transact backend noteLeg d))
    onStore (Run.modify (·.settle d))
    let l ← Run.get
    Run.log (Entry.event Level.info Logger.linkSync "links.synced".toList
      (parentValue l.store :: d.counts))
    pure ⟨d.toUpdate.length, d.toInsert.length, d.toDelete.length⟩

end Ledger

end ModalNotes
