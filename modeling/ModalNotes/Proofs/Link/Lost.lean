import ModalNotes.Proofs.Link.Settle

/-! Links whose rows are gone although they are marked as saved. As no row is left for their anchors, a
diff writes the same rows with them and without them. -/
namespace ModalNotes

namespace Link

theorem touchAllPart {id : Int} {links : List Link} {r : LinkRow} {p : Link → Bool}
    (others : ∀ l ∈ links, p l = false → l.anchor ≠ r.anchor) :
    (links.filter p).foldl (touch id) r = links.foldl (touch id) r := by
  induction links generalizing r with
  | nil => rfl
  | cons l rest ih =>
    have rest' : ∀ m ∈ rest, p m = false → m.anchor ≠ (touch id r l).anchor := by
      intro m member out
      rw [(touchKept id r l).2.1]
      exact others m (List.mem_cons_of_mem l member) out
    cases kept : p l with
    | true =>
      rw [List.filter_cons_of_pos kept, List.foldl_cons, List.foldl_cons]
      exact ih rest'
    | false =>
      have other : touch id r l = r := touchOther (others l List.mem_cons_self kept)
      rw [other] at rest'
      rw [List.filter_cons_of_neg (by simp [kept]), List.foldl_cons, other]
      exact ih rest'

end Link

namespace LinkDiff

theorem ofNoteOnRows (id : Int) (d : LinkDiff) (rows : List LinkRow) :
    LinkRow.ofNote id (d.onRows id rows) =
      ((LinkRow.ofNote id rows).map (d.toUpdate.foldl (Link.touch id)) ++
        d.toInsert.map (Link.rowOf id)).filter
          fun r => !(d.toDelete.map Link.anchor).contains r.anchor := by
  have inserts : (d.toInsert.map (Link.rowOf id)).filter (·.parent == id) =
      d.toInsert.map (Link.rowOf id) := by
    refine List.filter_eq_self.mpr fun r member => ?_
    obtain ⟨l, -, rfl⟩ := List.mem_map.mp member
    simp [Link.rowOf]
  have parents : (fun r : LinkRow => r.parent == id) ∘ d.toUpdate.foldl (Link.touch id) =
      fun r => r.parent == id :=
    funext fun r => by simp only [Function.comp_apply, (Link.touchAllKept id d.toUpdate r).1]
  have swap : ∀ r : LinkRow, (r.parent == id && (r.parent != id ||
      !(d.toDelete.map Link.anchor).contains r.anchor)) =
        (!(d.toDelete.map Link.anchor).contains r.anchor && r.parent == id) := by
    intro r
    cases mine : r.parent == id <;> simp [bne, mine]
  rw [LinkRow.ofNote, onRows, List.filter_filter, List.filter_congr fun r _ => swap r,
    ← List.filter_filter, List.filter_append, inserts, List.filter_map, parents, LinkRow.ofNote]

end LinkDiff

theorem Synced.cut {rows : List LinkRow} {links : List Link} (synced : Synced rows links)
    (ordered : Ordered links) (id : Int) :
    Synced (rows.filter (·.linked != id)) (links.filter fun l => !(l.saved && l.linked == id)) where
  distinct := synced.distinct.sublist (List.filter_sublist.map LinkRow.anchor)
  row r member := by
    obtain ⟨stored, other⟩ := List.mem_filter.mp member
    obtain ⟨l, inside, anchor, saved, linked, span⟩ := synced.row r stored
    have other' : r.linked ≠ id := by simpa using other
    exact ⟨l, List.mem_filter.mpr ⟨inside, by simp [linked, other']⟩, anchor, saved, linked, span⟩
  saved l member saved := by
    obtain ⟨inside, kept⟩ := List.mem_filter.mp member
    obtain ⟨r, stored, anchor⟩ := List.mem_map.mp (synced.saved l inside saved)
    obtain ⟨m, known, anchor', -, linked, -⟩ := synced.row r stored
    cases ordered.same known inside (anchor'.trans anchor)
    have other : l.linked ≠ id := by simpa [saved] using kept
    exact List.mem_map.mpr ⟨r, List.mem_filter.mpr ⟨stored, by simpa [← linked] using other⟩, anchor⟩

namespace LinkStore

def isLost (lost : List Int) (l : Link) : Bool := lost.contains l.anchor

/- The store without its lost links. -/
def without (lost : List Int) (s : LinkStore) : LinkStore :=
  { s with links := ⟨s.links.entries.filter fun e => !isLost lost e.2⟩ }

section
variable {s : LinkStore} {lost : List Int}

theorem withoutAll (lost : List Int) (s : LinkStore) :
    (s.without lost).all = s.all.filter fun l => !isLost lost l := by
  rw [all, all, Table.values, Table.values, List.filter_map]
  rfl

theorem withoutLive (lost : List Int) (s : LinkStore) :
    (s.without lost).live = s.live.filter fun l => !isLost lost l := by
  rw [live, live, withoutAll]
  exact List.filter_comm _ _ _

theorem withoutNone (s : LinkStore) : (s.without []).all = s.all := by
  rw [withoutAll]
  exact List.filter_eq_self.mpr fun _ _ => rfl

theorem withoutAppend (lost more : List Int) (s : LinkStore) :
    (s.without (lost ++ more)).all = (s.without lost).all.filter fun l => !isLost more l := by
  rw [withoutAll, withoutAll, List.filter_filter]
  refine List.filter_congr fun l _ => ?_
  simp [isLost, Bool.and_comm]

theorem withoutOrdered (ordered : Ordered s.all) : Ordered (s.without lost).all := by
  rw [withoutAll]
  exact ordered.part _

theorem withoutInserts (saved : ∀ l ∈ s.all, isLost lost l = true → l.saved = true) :
    (s.without lost).classify.toInsert = s.classify.toInsert := by
  simp only [classify, withoutAll]
  rw [List.filter_comm]
  refine List.filter_eq_self.mpr fun l member => ?_
  obtain ⟨inside, marks⟩ := List.mem_filter.mp member
  cases out : isLost lost l with
  | false => rfl
  | true => simp [saved l inside out] at marks

theorem withoutUpdates (lost : List Int) (s : LinkStore) : (s.without lost).classify.toUpdate =
    s.classify.toUpdate.filter fun l => !isLost lost l := by
  simp only [classify, withoutAll]
  exact List.filter_comm _ _ _

theorem withoutDeletes (lost : List Int) (s : LinkStore) : (s.without lost).classify.toDelete =
    s.classify.toDelete.filter fun l => !isLost lost l := by
  simp only [classify, withoutAll]
  exact List.filter_comm _ _ _

theorem lostUnlike {l : Link} {k : Int} (found : lost.contains k = false) (out : isLost lost l = true) :
    l.anchor ≠ k := by
  intro same
  rw [isLost, same, found] at out
  contradiction

theorem keptAnchor {l : Link} (member : l ∈ (s.without lost).all) : lost.contains l.anchor = false := by
  rw [withoutAll] at member
  simpa [isLost] using (List.mem_filter.mp member).2

theorem touchedWithout {id : Int} {r : LinkRow} (kept : lost.contains r.anchor = false) :
    (s.without lost).classify.toUpdate.foldl (Link.touch id) r =
      s.classify.toUpdate.foldl (Link.touch id) r := by
  rw [withoutUpdates]
  exact Link.touchAllPart fun l _ out => lostUnlike kept (by simpa using out)

theorem deletedWithout {k : Int} (kept : lost.contains k = false) :
    ((s.without lost).classify.toDelete.map Link.anchor).contains k =
      (s.classify.toDelete.map Link.anchor).contains k := by
  refine Bool.eq_iff_iff.mpr ?_
  rw [withoutDeletes, List.contains_iff_mem, List.contains_iff_mem, List.mem_map, List.mem_map]
  constructor
  · intro post
    obtain ⟨l, inside, anchor⟩ := post
    exact ⟨l, (List.mem_filter.mp inside).1, anchor⟩
  · intro post
    obtain ⟨l, inside, anchor⟩ := post
    refine ⟨l, List.mem_filter.mpr ⟨inside, ?_⟩, anchor⟩
    cases out : isLost lost l with
    | false => rfl
    | true => exact absurd anchor (lostUnlike kept out)

theorem onRowsWithout {id : Int} {rows : List LinkRow}
    (saved : ∀ l ∈ s.all, isLost lost l = true → l.saved = true)
    (synced : Synced (LinkRow.ofNote id rows) (s.without lost).all) :
    LinkRow.ofNote id ((s.without lost).classify.onRows id rows) =
      LinkRow.ofNote id (s.classify.onRows id rows) := by
  have stored : ∀ r ∈ LinkRow.ofNote id rows, lost.contains r.anchor = false := by
    intro r member
    obtain ⟨l, inside, anchor, -⟩ := synced.row r member
    exact anchor ▸ keptAnchor inside
  have inserted : ∀ l ∈ s.classify.toInsert, lost.contains l.anchor = false := by
    intro l member
    rw [← withoutInserts saved] at member
    exact keptAnchor (List.mem_filter.mp member).1
  have touched : (LinkRow.ofNote id rows).map
      ((s.without lost).classify.toUpdate.foldl (Link.touch id)) =
        (LinkRow.ofNote id rows).map (s.classify.toUpdate.foldl (Link.touch id)) :=
    List.map_congr_left fun r member => touchedWithout (stored r member)
  have anchors : ∀ r ∈ (LinkRow.ofNote id rows).map (s.classify.toUpdate.foldl (Link.touch id)) ++
      s.classify.toInsert.map (Link.rowOf id), lost.contains r.anchor = false := by
    intro r member
    rcases List.mem_append.mp member with old | new
    · obtain ⟨r₀, inside, rfl⟩ := List.mem_map.mp old
      rw [(Link.touchAllKept id _ r₀).2.1]
      exact stored r₀ inside
    · obtain ⟨l, inside, rfl⟩ := List.mem_map.mp new
      exact inserted l inside
  rw [LinkDiff.ofNoteOnRows, LinkDiff.ofNoteOnRows, touched, withoutInserts saved]
  exact List.filter_congr fun r member => congrArg (!·) (deletedWithout (anchors r member))

end

end LinkStore

end ModalNotes
