import ModalNotes.Proofs.Session.Age

/-! The note of a session and of its links. No input changes it, whatever rows the session was opened with:
links are taken over with their note, and a new one gets the note of its store. -/
namespace ModalNotes

namespace LinkStore

def bonds (s : LinkStore) : Option Int × List (Option Int) :=
  (s.parent, s.links.entries.map fun e => e.2.parent)

theorem ownedBonds {s : LinkStore} : s.Owned ↔ ∀ p ∈ s.bonds.2, p = s.bonds.1 := by
  simp only [Owned, bonds, List.mem_map]
  constructor
  · rintro owned _ ⟨⟨id, l⟩, member, rfl⟩
    exact owned id l member
  · exact fun all id l member => all l.parent ⟨(id, l), member, rfl⟩

theorem reconcileInParents (anchors : AnchorTable) (es : List (Int × Link)) :
    (reconcileIn anchors es).1.map (fun e => e.2.parent) = es.map fun e => e.2.parent := by
  induction es with
  | nil => rfl
  | cons e rest ih =>
    obtain ⟨id, l⟩ := e
    cases found : reconcileLink anchors l with
    | error fault => simp [reconcileIn, found]
    | ok r =>
      have same := (refreshedSame anchors l).2.1
      simp only [refreshed, found] at same
      simp [reconcileIn, found, same, ih]

theorem bondsReconcile (anchors : AnchorTable) (s : LinkStore) :
    Run.Leaves bonds (reconcile anchors) s := by
  unfold reconcile
  refine Run.leavesGet ?_
  have taken : bonds { s with links := ⟨(reconcileIn anchors s.links.entries).1⟩ } = s.bonds :=
    congrArg (Prod.mk s.parent) (reconcileInParents anchors s.links.entries)
  refine Run.leavesBind (Run.leavesPut taken) fun _ t => Run.leavesReads fun n => ?_
  split
  · exact Run.leavesBind (Run.leavesLog _ t) fun _ u => Run.leavesPure n u
  · exact Run.leavesPure n t

theorem insertOwned {s t : LinkStore} {l m : Link} (owned : s.Owned)
    (parent : l.parent = s.parent ∨ l.parent = none) (inserted : s.insert l = .ok (t, m)) :
    t.parent = s.parent ∧ t.Owned := by
  by_cases fresh : l.anchor ∈ s.links.keys
  · simp [insert, Table.containsIff.mpr fresh] at inserted
  · rw [insertOk fresh] at inserted
    cases inserted
    refine ⟨rfl, fun id l' member => ?_⟩
    rw [Table.putNew fresh] at member
    rcases List.mem_append.mp member with old | new
    · exact owned id l' old
    · cases List.mem_singleton.mp new
      rcases parent with same | none
      · rw [same]
        cases s.parent <;> rfl
      · rw [none, Option.none_or]

end LinkStore

namespace Session

def bonds (s : Session) : Option Int × List (Option Int) := s.links.bonds

theorem bondsKey (name : Text) (modifiers : List Text) (s : Session) :
    (key name modifiers s).state.bonds = s.bonds :=
  keyView (fun t _ _ => LinkStore.bondsReconcile t.buffer.anchors t.links) (fun _ => rfl)
    (fun t => congrArg (fun b : LinkStore × Nat => b.1.bonds) (booksCancelLink t)) fun _ _ => rfl

theorem attachBound {s : Session} (owned : s.links.Owned) (linked : Int) :
    (attachLink linked s).state.noteId = s.noteId ∧ (attachLink linked s).state.links.Owned := by
  change (attachLink linked).After s fun _ later => later.noteId = s.noteId ∧ later.links.Owned
  unfold attachLink
  refine Run.afterBindEnds (Run.endsGet.mpr (Run.afterBindEnds (Run.endsPut.mpr ?_)))
  cases s.pendingAnchor with
  | none => exact ⟨rfl, owned⟩
  | some id =>
    dsimp only
    cases (s.buffer.anchors.get? id).filter (!·.deleted) with
    | none => exact ⟨rfl, owned⟩
    | some a =>
      dsimp only
      cases inserted : s.links.insert {
          parent := s.noteId, anchor := id, linked, row := a.row, startCol := a.startCol,
          endCol := a.endCol } with
      | error fault => exact ⟨rfl, owned⟩
      | ok r => exact LinkStore.insertOwned owned (.inl rfl) inserted

theorem inputBound {s : Session} (owned : s.links.Owned) (input : Input) :
    (input.run s).state.noteId = s.noteId ∧ (input.run s).state.links.Owned := by
  have kept : ∀ later : Session, later.bonds = s.bonds →
      later.noteId = s.noteId ∧ later.links.Owned := by
    intro later same
    refine ⟨congrArg Prod.fst same, LinkStore.ownedBonds.mpr ?_⟩
    rw [show later.links.bonds = s.links.bonds from same]
    exact LinkStore.ownedBonds.mp owned
  have books : ∀ later : Session, later.books = s.books → later.noteId = s.noteId ∧ later.links.Owned :=
    fun later same => kept later (congrArg (fun b => b.1.bonds) same)
  cases input with
  | key name modifiers =>
    exact kept _ ((congrArg bonds (Run.ignoredState _ s)).trans (bondsKey name modifiers s))
  | search pattern =>
    exact books _ ((congrArg Session.books (Run.ignoredState _ s)).trans (booksSearch pattern s))
  | attach linked =>
    have run : (Input.run (.attach linked) s).state = (attachLink linked s).state := Run.ignoredState _ s
    rw [run]
    exact attachBound owned linked
  | cancel => exact books _ (booksCancelLink s)

end Session

end ModalNotes
