import ModalNotes.Link.Basic
import ModalNotes.Run

/-! The links of one note, by anchor. `reconcile` brings them up to date with the anchors; `classify`
says what a save has to write, and `settle` marks it as written. -/
namespace ModalNotes

structure LinkDiff where
  toUpdate : List Link := []
  toInsert : List Link := []
  toDelete : List Link := []
  deriving DecidableEq, Repr

namespace LinkDiff

def isEmpty (d : LinkDiff) : Bool := d.toUpdate.isEmpty && d.toInsert.isEmpty && d.toDelete.isEmpty

def counts (d : LinkDiff) : List (Text × Value) :=
  [("update".toList, .nat d.toUpdate.length), ("insert".toList, .nat d.toInsert.length),
    ("delete".toList, .nat d.toDelete.length)]

end LinkDiff

/-- Links are numbered as they come in, so that one that takes a removed one's anchor is another link. -/
structure LinkStore where
  parent : Option Int := none
  links : Table Int Link := {}
  nextSerial : Nat := 0
  deriving DecidableEq, Repr

namespace LinkStore

def all (s : LinkStore) : List Link := s.links.values

def live (s : LinkStore) : List Link := s.all.filter (!·.deleted)

def insert (s : LinkStore) (l : Link) : Except Fault (LinkStore × Link) :=
  if s.links.contains l.anchor then .error (.anchorLinked l.anchor)
  else
    let l := { l with parent := l.parent.or s.parent, serial := s.nextSerial }
    .ok ({ s with links := s.links.put l.anchor l, nextSerial := s.nextSerial + 1 }, l)

def insertAll (s : LinkStore) : List Link → Except Fault LinkStore
  | [] => .ok s
  | l :: rest => do
    let (s, _) ← s.insert l
    insertAll s rest

def insertRows (s : LinkStore) (parent : Int) : List LinkRow → Except Fault LinkStore
  | [] => .ok s
  | r :: rest => do
    if r.parent ≠ parent then .error (.foreignRow r.anchor r.parent)
    else
      let (s, _) ← s.insert (Link.ofRow r)
      insertRows s parent rest

def ofRows (parent : Int) (rows : List LinkRow) : Except Fault LinkStore :=
  insertRows { parent := some parent } parent rows

def mapLinks (s : LinkStore) (f : Link → Link) : LinkStore :=
  { s with links := ⟨s.links.entries.map fun (id, l) => (id, f l)⟩ }

def bindParent (s : LinkStore) (parent : Option Int) : LinkStore :=
  { s with parent }.mapLinks fun l => { l with parent }

def reconcileLink (anchors : AnchorTable) (l : Link) : Except Fault (Link × Bool) :=
  match anchors.get? l.anchor with
  | none => .error (.anchorLost l.anchor)
  | some a =>
    if a.deleted then .ok ({ l with deleted := true }, !l.deleted)
    else if l.geometry = a.geometry then .ok (l, false)
    else .ok (l.follow a, true)

def reconcileIn (anchors : AnchorTable) :
    List (Int × Link) → List (Int × Link) × Except Fault Nat
  | [] => ([], .ok 0)
  | (id, l) :: rest =>
    match reconcileLink anchors l with
    | .error fault => ((id, l) :: rest, .error fault)
    | .ok (l, changed) =>
      let (more, result) := reconcileIn anchors rest
      ((id, l) :: more, result.map fun n => if changed then n + 1 else n)

def reconcile (anchors : AnchorTable) : Run LinkStore Nat := do
  let s ← Run.get
  let (entries, result) := reconcileIn anchors s.links.entries
  Run.put { s with links := ⟨entries⟩ }
  let changed ← Run.ofExcept result
  if 0 < changed then
    let line := "reconciled ".toList ++ Text.ofNat changed ++ " link(s)".toList
    Run.log { level := Level.debug, logger := Logger.linkStore, head := line }
  pure changed

def classify (s : LinkStore) : LinkDiff where
  toUpdate := s.all.filter fun l => !l.deleted && l.saved && l.updated
  toInsert := s.all.filter fun l => !l.deleted && !l.saved
  toDelete := s.all.filter fun l => l.deleted && l.saved

/-- Folds a written diff back in: its links are marked, and anchors whose links it deletes are freed.
Links that were deleted before they were ever saved go too. -/
def settle (s : LinkStore) (d : LinkDiff) : LinkStore :=
  let written := (d.toInsert ++ d.toUpdate).map Link.serial
  let gone := d.toDelete.map Link.anchor
  let marked := s.mapLinks fun l =>
    if written.contains l.serial then { l with saved := true, updated := false } else l
  { marked with links := ⟨marked.links.entries.filter fun (id, l) =>
      !gone.contains id && !(l.deleted && !l.saved)⟩ }

def linkAt (s : LinkStore) (p : Point) : Option Link := s.live.find? (·.covers p)

def rows (s : LinkStore) : Except Fault (List LinkRow) := s.live.mapM Link.toRow

end LinkStore

end ModalNotes
