import ModalNotes.Link.Store
import ModalNotes.Proofs.Run
import ModalNotes.Proofs.Table

/-! Links beside their anchors. A table of links mirrors a table of anchors when every link has its
anchor, is deleted exactly when the anchor is, and otherwise has its span. -/
namespace ModalNotes

structure Mirrors (links : Table Int Link) (anchors : AnchorTable) : Prop where
  own : ∀ id l, (id, l) ∈ links.entries → l.anchor = id
  present : ∀ id l, (id, l) ∈ links.entries → ∃ a, anchors.get? id = some a ∧
    l.deleted = a.deleted ∧ (a.deleted = false → l.geometry = a.geometry)

namespace LinkStore

def Owned (s : LinkStore) : Prop := ∀ id l, (id, l) ∈ s.links.entries → l.parent = s.parent

def refreshed (anchors : AnchorTable) (l : Link) : Link :=
  match reconcileLink anchors l with
  | .ok (l, _) => l
  | .error _ => l

theorem reconcileLinkOk {anchors : AnchorTable} {l : Link} {a : Anchor}
    (found : anchors.get? l.anchor = some a) :
    ∃ changed, reconcileLink anchors l = .ok (refreshed anchors l, changed) := by
  simp only [refreshed, reconcileLink, found]
  split
  · exact ⟨_, rfl⟩
  · split <;> exact ⟨_, rfl⟩

theorem reconcileInOk {anchors : AnchorTable} (es : List (Int × Link))
    (present : ∀ id l, (id, l) ∈ es → ∃ a, anchors.get? l.anchor = some a) :
    ∃ n, reconcileIn anchors es = (es.map fun e => (e.1, refreshed anchors e.2), .ok n) := by
  induction es with
  | nil => exact ⟨0, rfl⟩
  | cons e rest ih =>
    obtain ⟨id, l⟩ := e
    obtain ⟨a, found⟩ := present id l List.mem_cons_self
    obtain ⟨changed, first⟩ := reconcileLinkOk found
    obtain ⟨n, others⟩ := ih fun id' l' member => present id' l' (List.mem_cons_of_mem _ member)
    simp only [reconcileIn, first, others, List.map_cons, Except.map]
    exact ⟨_, rfl⟩

theorem reconcileEnds {s : LinkStore} {anchors : AnchorTable}
    (present : ∀ id l, (id, l) ∈ s.links.entries → ∃ a, anchors.get? l.anchor = some a) :
    (reconcile anchors).Ends s fun _ later =>
      later = { s with links := s.links.mapValues (refreshed anchors) } := by
  obtain ⟨n, ok⟩ := reconcileInOk s.links.entries present
  unfold reconcile
  simp only [Run.endsBind, Run.endsGet, Run.endsPut, Run.endsOfExcept, ok]
  refine ⟨n, rfl, ?_⟩
  split
  · rw [Run.endsBind, Run.endsLog, Run.endsPure]
    rfl
  · exact Run.endsPure.mpr rfl

theorem refreshedSame (anchors : AnchorTable) (l : Link) :
    (refreshed anchors l).anchor = l.anchor ∧ (refreshed anchors l).parent = l.parent ∧
      (refreshed anchors l).linked = l.linked ∧ (refreshed anchors l).saved = l.saved ∧
      (refreshed anchors l).serial = l.serial := by
  simp only [refreshed, reconcileLink]
  split
  · rename_i l' changed ok
    split at ok
    · contradiction
    · split at ok
      · cases ok
        exact ⟨rfl, rfl, rfl, rfl, rfl⟩
      · split at ok <;> cases ok <;> exact ⟨rfl, rfl, rfl, rfl, rfl⟩
  · exact ⟨rfl, rfl, rfl, rfl, rfl⟩

theorem refreshedStill {anchors : AnchorTable} {l : Link}
    (still : (refreshed anchors l).updated = false) :
    l.updated = false ∧ (refreshed anchors l).geometry = l.geometry := by
  unfold refreshed at still ⊢
  unfold reconcileLink at still ⊢
  cases found : anchors.get? l.anchor with
  | none =>
    rw [found] at still
    exact ⟨still, rfl⟩
  | some a =>
    rw [found] at still
    dsimp only at still ⊢
    by_cases gone : a.deleted = true
    · rw [if_pos gone] at still ⊢
      exact ⟨still, rfl⟩
    · by_cases same : l.geometry = a.geometry
      · rw [if_neg gone, if_pos same] at still ⊢
        exact ⟨still, rfl⟩
      · rw [if_neg gone, if_neg same] at still
        contradiction

theorem refreshedMirrors {l : Link} {anchors : AnchorTable} {a : Anchor}
    (found : anchors.get? l.anchor = some a) (gone : l.deleted = true → a.deleted = true) :
    (refreshed anchors l).deleted = a.deleted ∧
      (a.deleted = false → (refreshed anchors l).geometry = a.geometry) := by
  simp only [refreshed, reconcileLink, found]
  split
  · rename_i l' changed ok
    split at ok
    · rename_i deleted
      cases ok
      exact ⟨deleted.symm, fun live => absurd (deleted.symm.trans live) (by decide)⟩
    · rename_i kept
      have live : l.deleted = a.deleted := by
        cases mark : l.deleted with
        | true => exact absurd (gone mark) kept
        | false => simpa using kept
      split at ok
      · rename_i same
        cases ok
        exact ⟨live, fun _ => same⟩
      · cases ok
        exact ⟨live, fun _ => rfl⟩
  · rename_i fault failed
    split at failed
    · contradiction
    · split at failed <;> contradiction

/- Following keeps the mirror, if no deleted anchor has come back to life. -/
theorem mirrorsRefreshed {links : Table Int Link} {anchors later : AnchorTable}
    (mirrors : Mirrors links anchors)
    (kept : ∀ id a, anchors.get? id = some a →
      ∃ a', later.get? id = some a' ∧ (a.deleted = true → a'.deleted = true)) :
    Mirrors (links.mapValues (refreshed later)) later where
  own id l member := by
    obtain ⟨⟨id', l'⟩, old, same⟩ := List.mem_map.mp member
    cases same
    exact (refreshedSame later l').1.trans (mirrors.own id' l' old)
  present id l member := by
    obtain ⟨⟨id', l'⟩, old, same⟩ := List.mem_map.mp member
    cases same
    obtain ⟨a, found, gone, -⟩ := mirrors.present id' l' old
    obtain ⟨a', found', gone'⟩ := kept id' a found
    have anchor := mirrors.own id' l' old
    refine ⟨a', found', refreshedMirrors (by rw [anchor]; exact found') ?_⟩
    exact fun deleted => gone' (gone ▸ deleted)

theorem mirrorsSame {links : Table Int Link} {anchors later : AnchorTable}
    (mirrors : Mirrors links anchors)
    (same : ∀ id ∈ links.keys, later.get? id = anchors.get? id) : Mirrors links later where
  own := mirrors.own
  present id l member := by
    obtain ⟨a, found, rest⟩ := mirrors.present id l member
    exact ⟨a, (same id (List.mem_map.mpr ⟨(id, l), member, rfl⟩)).trans found, rest⟩

theorem mirrorsKeys {links : Table Int Link} {anchors : AnchorTable} (mirrors : Mirrors links anchors)
    {id : Int} (member : id ∈ links.keys) : id ∈ anchors.keys := by
  obtain ⟨⟨id', l⟩, entry, rfl⟩ := List.mem_map.mp member
  obtain ⟨a, found, -⟩ := mirrors.present id' l entry
  exact Table.memOfSome found

theorem insertOk {s : LinkStore} {l : Link} (fresh : l.anchor ∉ s.links.keys) :
    s.insert l = .ok ({ s with
      links := s.links.put l.anchor { l with parent := l.parent.or s.parent, serial := s.nextSerial }
      nextSerial := s.nextSerial + 1 },
      { l with parent := l.parent.or s.parent, serial := s.nextSerial }) := by
  have absent : s.links.contains l.anchor ≠ true := fun h => fresh (Table.containsIff.mp h)
  simp only [insert, if_neg absent]

theorem mirrorsPut {links : Table Int Link} {anchors : AnchorTable} (mirrors : Mirrors links anchors)
    {l : Link} {a : Anchor} (fresh : l.anchor ∉ links.keys) (found : anchors.get? l.anchor = some a)
    (gone : l.deleted = a.deleted) (span : l.geometry = a.geometry) :
    Mirrors (links.put l.anchor l) anchors where
  own id l' member := by
    rw [Table.putNew fresh] at member
    rcases List.mem_append.mp member with old | new
    · exact mirrors.own id l' old
    · cases List.mem_singleton.mp new
      rfl
  present id l' member := by
    rw [Table.putNew fresh] at member
    rcases List.mem_append.mp member with old | new
    · exact mirrors.present id l' old
    · cases List.mem_singleton.mp new
      exact ⟨a, found, gone, fun _ => span⟩

theorem mirrorsPart {links part : Table Int Link} {anchors : AnchorTable}
    (mirrors : Mirrors links anchors)
    (from' : ∀ id l, (id, l) ∈ part.entries → ∃ old, (id, old) ∈ links.entries ∧
      l.anchor = old.anchor ∧ l.deleted = old.deleted ∧ l.geometry = old.geometry) :
    Mirrors part anchors where
  own id l member := by
    obtain ⟨old, inside, anchor, -⟩ := from' id l member
    exact anchor.trans (mirrors.own id old inside)
  present id l member := by
    obtain ⟨old, inside, -, gone, span⟩ := from' id l member
    obtain ⟨a, found, gone', span'⟩ := mirrors.present id old inside
    exact ⟨a, found, gone.trans gone', fun live => span.trans (span' live)⟩

theorem mirrorsBind {s : LinkStore} {anchors : AnchorTable} (mirrors : Mirrors s.links anchors)
    (parent : Option Int) : Mirrors (s.bindParent parent).links anchors := by
  refine mirrorsPart mirrors ?_
  intro id l member
  obtain ⟨⟨id', l'⟩, old, same⟩ := List.mem_map.mp member
  cases same
  exact ⟨l', old, rfl, rfl, rfl⟩

def marked (d : LinkDiff) (l : Link) : Link :=
  if ((d.toInsert ++ d.toUpdate).map Link.serial).contains l.serial
  then { l with saved := true, updated := false } else l

theorem markedSame (d : LinkDiff) (l : Link) :
    (marked d l).anchor = l.anchor ∧ (marked d l).parent = l.parent ∧
      (marked d l).linked = l.linked ∧ (marked d l).geometry = l.geometry ∧
      (marked d l).deleted = l.deleted ∧ (marked d l).serial = l.serial := by
  unfold marked
  split <;> exact ⟨rfl, rfl, rfl, rfl, rfl, rfl⟩

theorem settleEntries (s : LinkStore) (d : LinkDiff) :
    (s.settle d).links.entries = (s.links.mapValues (marked d)).entries.filter fun e =>
      !(d.toDelete.map Link.anchor).contains e.1 && !(e.2.deleted && !e.2.saved) := rfl

theorem settleMem {s : LinkStore} {d : LinkDiff} {id : Int} {l : Link}
    (h : (id, l) ∈ (s.settle d).links.entries) :
    ∃ old, (id, old) ∈ s.links.entries ∧ l = marked d old := by
  rw [settleEntries] at h
  obtain ⟨⟨id', old⟩, inside, same⟩ := List.mem_map.mp (List.mem_filter.mp h).1
  cases same
  exact ⟨old, inside, rfl⟩

theorem settleKeys {s : LinkStore} {d : LinkDiff} {id : Int} (h : id ∈ (s.settle d).links.keys) :
    id ∈ s.links.keys := by
  obtain ⟨⟨_, l⟩, member, rfl⟩ := List.mem_map.mp h
  obtain ⟨old, inside, -⟩ := settleMem member
  exact List.mem_map.mpr ⟨_, inside, rfl⟩

theorem settleOwned {s : LinkStore} (owned : s.Owned) (d : LinkDiff) : (s.settle d).Owned := by
  intro k l member
  obtain ⟨old, inside, rfl⟩ := settleMem member
  exact (markedSame d old).2.1.trans (owned k old inside)

theorem mirrorsSettle {s : LinkStore} {anchors : AnchorTable} (mirrors : Mirrors s.links anchors)
    (d : LinkDiff) : Mirrors (s.settle d).links anchors := by
  refine mirrorsPart mirrors ?_
  intro id l member
  obtain ⟨old, inside, rfl⟩ := settleMem member
  obtain ⟨anchor, -, -, span, gone, -⟩ := markedSame d old
  exact ⟨old, inside, anchor, gone, span⟩

end LinkStore

end ModalNotes
