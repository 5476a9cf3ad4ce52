import Mathlib.Data.List.Nodup
import ModalNotes.Proofs.Link.Store

/-! Link rows against links. The rows of a note agree with its links when there is a row for every saved
link and no other, and each row has its link's span unless the link says that it has moved. A save makes
the rows agree with the live links altogether. -/
namespace ModalNotes

namespace LinkRow

def geometry (r : LinkRow) : Int × Int × Int := (r.row, r.startCol, r.endCol)

def ofNote (id : Int) (rows : List LinkRow) : List LinkRow := rows.filter (·.parent == id)

theorem ofNoteParent {id : Int} {rows : List LinkRow} {r : LinkRow} (member : r ∈ ofNote id rows) :
    r.parent = id := by
  simpa using (List.mem_filter.mp member).2

def byAnchor (rows : List LinkRow) : List LinkRow :=
  rows.mergeSort fun a b => decide (a.anchor ≤ b.anchor)

theorem byAnchorPerm (rows : List LinkRow) : (byAnchor rows).Perm rows := List.mergeSort_perm _ _

theorem byAnchorAscends {rows : List LinkRow} (distinct : (rows.map anchor).Nodup) :
    (byAnchor rows).Pairwise fun r r' => r.anchor < r'.anchor := by
  have sorted : (byAnchor rows).Pairwise fun r r' => decide (r.anchor ≤ r'.anchor) = true :=
    List.pairwise_mergeSort (fun a b c => by simpa using Int.le_trans)
      (fun a b => by simpa using Int.le_total _ _) rows
  have differ := List.pairwise_map.mp (((byAnchorPerm rows).map anchor).nodup_iff.mpr distinct)
  refine (sorted.and differ).imp ?_
  intro r r' post
  obtain ⟨below, other⟩ := post
  have below' : r.anchor ≤ r'.anchor := by simpa using below
  omega

theorem ascendingUnique {rows rows' : List LinkRow}
    (ascend : rows.Pairwise fun r r' => r.anchor < r'.anchor)
    (ascend' : rows'.Pairwise fun r r' => r.anchor < r'.anchor) (perm : rows.Perm rows') :
    rows = rows' := by
  refine perm.eq_of_pairwise ?_ ascend ascend'
  intro r r' _ _ below above
  omega

end LinkRow

namespace Link

def rowOf (id : Int) (l : Link) : LinkRow := ⟨id, l.anchor, l.row, l.startCol, l.endCol, l.linked⟩

def names (id : Int) (l : Link) (r : LinkRow) : Bool :=
  r.parent = id && r.linked = l.linked && r.anchor = l.anchor

def touch (id : Int) (r : LinkRow) (l : Link) : LinkRow :=
  if l.names id r then { r with row := l.row, startCol := l.startCol, endCol := l.endCol } else r

def written (id : Int) (l : Link) : Link :=
  { l with parent := some id, saved := true, updated := false }

theorem namesIff {id : Int} {l : Link} {r : LinkRow} :
    l.names id r = true ↔ r.parent = id ∧ r.linked = l.linked ∧ r.anchor = l.anchor := by
  simp [names, and_assoc]

theorem touchKept (id : Int) (r : LinkRow) (l : Link) :
    (touch id r l).parent = r.parent ∧ (touch id r l).anchor = r.anchor ∧
      (touch id r l).linked = r.linked := by
  unfold touch
  split <;> exact ⟨rfl, rfl, rfl⟩

theorem touchNamed {id : Int} {l : Link} {r : LinkRow} (named : l.names id r = true) :
    touch id r l = l.rowOf id := by
  obtain ⟨parent, linked, anchor⟩ := namesIff.mp named
  rw [touch, if_pos named, rowOf, ← parent, ← linked, ← anchor]

theorem touchOther {id : Int} {l : Link} {r : LinkRow} (other : l.anchor ≠ r.anchor) :
    touch id r l = r := by
  refine if_neg fun named => ?_
  obtain ⟨-, -, anchor⟩ := namesIff.mp named
  exact other anchor.symm

theorem touchAllKept (id : Int) (links : List Link) (r : LinkRow) :
    (links.foldl (touch id) r).parent = r.parent ∧ (links.foldl (touch id) r).anchor = r.anchor ∧
      (links.foldl (touch id) r).linked = r.linked := by
  induction links generalizing r with
  | nil => exact ⟨rfl, rfl, rfl⟩
  | cons l rest ih =>
    obtain ⟨parent, anchor, linked⟩ := touchKept id r l
    obtain ⟨parent', anchor', linked'⟩ := ih (touch id r l)
    exact ⟨parent'.trans parent, anchor'.trans anchor, linked'.trans linked⟩

theorem touchAllForeign {id : Int} (links : List Link) {r : LinkRow} (foreign : r.parent ≠ id) :
    links.foldl (touch id) r = r := by
  induction links with
  | nil => rfl
  | cons l rest ih =>
    have unnamed : ¬ l.names id r = true := fun named => foreign (namesIff.mp named).1
    rw [List.foldl_cons, touch, if_neg unnamed]
    exact ih

theorem touchAllOther {id : Int} {links : List Link} {r : LinkRow}
    (others : ∀ l ∈ links, l.anchor ≠ r.anchor) : links.foldl (touch id) r = r := by
  induction links with
  | nil => rfl
  | cons l rest ih =>
    rw [List.foldl_cons, touchOther (others l List.mem_cons_self)]
    exact ih fun l' member => others l' (List.mem_cons_of_mem l member)

theorem touchAllNamed {id : Int} {links : List Link} {r : LinkRow} {l : Link}
    (distinct : (links.map anchor).Nodup) (member : l ∈ links) (named : l.names id r = true) :
    links.foldl (touch id) r = l.rowOf id := by
  have same : l.anchor = r.anchor := (namesIff.mp named).2.2.symm
  induction links with
  | nil => contradiction
  | cons m rest ih =>
    obtain ⟨absent, distinct'⟩ := List.nodup_cons.mp distinct
    rw [List.foldl_cons]
    rcases List.mem_cons.mp member with rfl | later
    · rw [touchNamed named]
      refine touchAllOther fun l' inside anchor => absent (List.mem_map.mpr ⟨l', inside, anchor⟩)
    · have other : m.anchor ≠ r.anchor := fun anchor =>
        absent (List.mem_map.mpr ⟨l, later, same.trans anchor.symm⟩)
      rw [touchOther other]
      exact ih distinct' later

end Link

namespace LinkDiff

def onRows (id : Int) (d : LinkDiff) (rows : List LinkRow) : List LinkRow :=
  (rows.map (d.toUpdate.foldl (Link.touch id)) ++ d.toInsert.map (Link.rowOf id)).filter
    fun r => r.parent != id || !(d.toDelete.map Link.anchor).contains r.anchor

end LinkDiff

structure Distinct (links : List Link) : Prop where
  anchors : (links.map Link.anchor).Nodup
  serials : (links.map Link.serial).Nodup

theorem Distinct.same {links : List Link} (h : Distinct links) {l m : Link} (left : l ∈ links)
    (right : m ∈ links) (anchor : l.anchor = m.anchor) : l = m :=
  List.inj_on_of_nodup_map h.anchors left right anchor

structure Ordered (links : List Link) : Prop where
  ascending : links.Pairwise fun l m => l.anchor < m.anchor
  serials : (links.map Link.serial).Nodup

theorem Ordered.anchors {links : List Link} (h : Ordered links) : (links.map Link.anchor).Nodup :=
  List.pairwise_map.mpr (h.ascending.imp Int.ne_of_lt)

theorem Ordered.distinct {links : List Link} (h : Ordered links) : Distinct links :=
  ⟨h.anchors, h.serials⟩

theorem Ordered.same {links : List Link} (h : Ordered links) {l m : Link} (left : l ∈ links)
    (right : m ∈ links) (anchor : l.anchor = m.anchor) : l = m :=
  h.distinct.same left right anchor

theorem Ordered.part {links : List Link} (h : Ordered links) (p : Link → Bool) :
    Ordered (links.filter p) :=
  ⟨h.ascending.filter p, h.serials.sublist (List.filter_sublist.map Link.serial)⟩

theorem Ordered.mapped {links : List Link} (h : Ordered links) {f : Link → Link}
    (kept : ∀ l, (f l).anchor = l.anchor ∧ (f l).serial = l.serial) : Ordered (links.map f) where
  ascending := by
    refine List.pairwise_map.mpr (h.ascending.imp ?_)
    intro l m below
    rw [(kept l).1, (kept m).1]
    exact below
  serials := by
    rw [List.map_map]
    have same : Link.serial ∘ f = Link.serial := funext fun l => (kept l).2
    rw [same]
    exact h.serials

structure Synced (rows : List LinkRow) (links : List Link) : Prop where
  distinct : (rows.map LinkRow.anchor).Nodup
  row : ∀ r ∈ rows, ∃ l ∈ links, l.anchor = r.anchor ∧ l.saved = true ∧ l.linked = r.linked ∧
    (l.updated = false → l.geometry = r.geometry)
  saved : ∀ l ∈ links, l.saved = true → l.anchor ∈ rows.map LinkRow.anchor

theorem Synced.mapped {rows : List LinkRow} {links : List Link} (h : Synced rows links) {f : Link → Link}
    (kept : ∀ l, (f l).anchor = l.anchor ∧ (f l).saved = l.saved ∧ (f l).linked = l.linked ∧
      ((f l).updated = false → l.updated = false ∧ (f l).geometry = l.geometry)) :
    Synced rows (links.map f) where
  distinct := h.distinct
  row r member := by
    obtain ⟨l, inside, anchor, saved, linked, span⟩ := h.row r member
    obtain ⟨anchor', saved', linked', still⟩ := kept l
    refine ⟨f l, List.mem_map_of_mem inside, anchor'.trans anchor, saved'.trans saved,
      linked'.trans linked, fun unmoved => ?_⟩
    obtain ⟨unmoved', same⟩ := still unmoved
    exact same.trans (span unmoved')
  saved l member marked := by
    obtain ⟨old, inside, rfl⟩ := List.mem_map.mp member
    obtain ⟨anchor', saved', -⟩ := kept old
    rw [anchor']
    exact h.saved old inside (saved'.symm.trans marked)

theorem Synced.added {rows : List LinkRow} {links : List Link} (h : Synced rows links) {l : Link}
    (unsaved : l.saved = false) : Synced rows (links ++ [l]) where
  distinct := h.distinct
  row r member := by
    obtain ⟨m, inside, rest⟩ := h.row r member
    exact ⟨m, List.mem_append_left _ inside, rest⟩
  saved m member marked := by
    rcases List.mem_append.mp member with inside | new
    · exact h.saved m inside marked
    · cases List.mem_singleton.mp new
      rw [unsaved] at marked
      contradiction

namespace LinkStore

section
variable {s : LinkStore} {id : Int} {rows : List LinkRow}

theorem rewritten (ordered : Ordered s.all) (synced : Synced (LinkRow.ofNote id rows) s.all) {r : LinkRow}
    (member : r ∈ LinkRow.ofNote id rows) {l : Link} (inside : l ∈ s.all) (anchor : l.anchor = r.anchor)
    (live : l.deleted = false) : s.classify.toUpdate.foldl (Link.touch id) r = l.rowOf id := by
  obtain ⟨l', inside', anchor', saved, linked, span⟩ := synced.row r member
  cases ordered.same inside' inside (anchor'.trans anchor.symm)
  have parent := LinkRow.ofNoteParent member
  cases moved : l.updated with
  | true =>
    have update : l ∈ s.classify.toUpdate :=
      List.mem_filter.mpr ⟨inside, by simp [live, saved, moved]⟩
    exact Link.touchAllNamed (ordered.part _).anchors update
      (Link.namesIff.mpr ⟨parent, linked.symm, anchor.symm⟩)
  | false =>
    have others : ∀ m ∈ s.classify.toUpdate, m.anchor ≠ r.anchor := by
      intro m update same
      obtain ⟨known, marks⟩ := List.mem_filter.mp update
      cases ordered.same known inside (same.trans anchor.symm)
      simp [moved] at marks
    have geometry := span moved
    simp only [Link.geometry, LinkRow.geometry, Prod.mk.injEq] at geometry
    obtain ⟨row, start, stop⟩ := geometry
    rw [Link.touchAllOther others, Link.rowOf, row, start, stop, linked, anchor, ← parent]

theorem goneIff (distinct : Distinct s.all) {l : Link} (inside : l ∈ s.all) :
    (s.classify.toDelete.map Link.anchor).contains l.anchor = true ↔
      l.deleted = true ∧ l.saved = true := by
  rw [List.contains_iff_mem]
  constructor
  · intro member
    obtain ⟨m, gone, same⟩ := List.mem_map.mp member
    obtain ⟨known, marks⟩ := List.mem_filter.mp gone
    cases distinct.same known inside same
    simpa using marks
  · intro marks
    exact List.mem_map_of_mem (List.mem_filter.mpr ⟨inside, by simpa using marks⟩)

theorem liveIff {l : Link} : l ∈ s.live ↔ l ∈ s.all ∧ l.deleted = false := by
  simp [live]

theorem memOnRows (ordered : Ordered s.all) (synced : Synced (LinkRow.ofNote id rows) s.all) {r : LinkRow} :
    r ∈ LinkRow.ofNote id (s.classify.onRows id rows) ↔ ∃ l ∈ s.live, l.rowOf id = r := by
  have stays : ∀ {l : Link}, l ∈ s.all → l.deleted = false →
      ¬ (s.classify.toDelete.map Link.anchor).contains l.anchor = true := by
    intro l inside live gone
    rw [((goneIff ordered.distinct inside).mp gone).1] at live
    contradiction
  constructor
  · intro member
    obtain ⟨whole, mine⟩ := List.mem_filter.mp member
    obtain ⟨before, kept⟩ := List.mem_filter.mp whole
    have parent : r.parent = id := by simpa using mine
    have kept' : ¬ (s.classify.toDelete.map Link.anchor).contains r.anchor = true := by
      simpa [parent] using kept
    rcases List.mem_append.mp before with old | new
    · obtain ⟨r₀, stored, rfl⟩ := List.mem_map.mp old
      obtain ⟨parent', anchor', -⟩ := Link.touchAllKept id s.classify.toUpdate r₀
      have member₀ : r₀ ∈ LinkRow.ofNote id rows :=
        List.mem_filter.mpr ⟨stored, by simpa using parent'.symm.trans parent⟩
      obtain ⟨l, inside, anchor, saved, -⟩ := synced.row r₀ member₀
      rw [anchor', ← anchor, goneIff ordered.distinct inside] at kept'
      have live : l.deleted = false := by
        cases gone : l.deleted with
        | false => rfl
        | true => exact absurd ⟨gone, saved⟩ kept'
      exact ⟨l, liveIff.mpr ⟨inside, live⟩,
        (rewritten ordered synced member₀ inside anchor live).symm⟩
    · obtain ⟨l, insert, rfl⟩ := List.mem_map.mp new
      obtain ⟨inside, marks⟩ := List.mem_filter.mp insert
      exact ⟨l, liveIff.mpr ⟨inside, by simp at marks; exact marks.1⟩, rfl⟩
  · intro post
    obtain ⟨l, member, rfl⟩ := post
    obtain ⟨inside, live⟩ := liveIff.mp member
    have kept : ((l.rowOf id).parent != id ||
        !(s.classify.toDelete.map Link.anchor).contains (l.rowOf id).anchor) = true := by
      have still := stays inside live
      simpa [Link.rowOf] using still
    refine List.mem_filter.mpr
      ⟨List.mem_filter.mpr ⟨List.mem_append.mpr ?_, kept⟩, by simp [Link.rowOf]⟩
    cases saved : l.saved with
    | false =>
      have insert : l ∈ s.classify.toInsert := List.mem_filter.mpr ⟨inside, by simp [live, saved]⟩
      exact .inr (List.mem_map_of_mem insert)
    | true =>
      obtain ⟨r₀, stored, anchor⟩ := List.mem_map.mp (synced.saved l inside saved)
      refine .inl (List.mem_map.mpr ⟨r₀, (List.mem_filter.mp stored).1, ?_⟩)
      exact rewritten ordered synced stored inside anchor.symm live

theorem onRowsOthers (d : LinkDiff) {other : Int} (differs : other ≠ id) :
    LinkRow.ofNote other (d.onRows id rows) = LinkRow.ofNote other rows := by
  have free : ∀ r : LinkRow, (r.parent == other && (r.parent != id ||
      !(d.toDelete.map Link.anchor).contains r.anchor)) = (r.parent == other) := by
    intro r
    by_cases same : r.parent = other
    · have foreign : r.parent ≠ id := fun mine => differs (same.symm.trans mine)
      simp [same, same ▸ foreign]
    · simp [same]
  have inserts : (d.toInsert.map (Link.rowOf id)).filter (·.parent == other) = [] := by
    refine List.filter_eq_nil_iff.mpr fun r member => ?_
    obtain ⟨l, -, rfl⟩ := List.mem_map.mp member
    simpa [Link.rowOf] using Ne.symm differs
  have parents : (fun r : LinkRow => r.parent == other) ∘ d.toUpdate.foldl (Link.touch id) =
      fun r => r.parent == other :=
    funext fun r => by simp only [Function.comp_apply, (Link.touchAllKept id d.toUpdate r).1]
  have still : (LinkRow.ofNote other rows).map (d.toUpdate.foldl (Link.touch id)) =
      LinkRow.ofNote other rows := by
    refine (List.map_congr_left fun r member => ?_).trans (List.map_id _)
    exact Link.touchAllForeign _ fun mine => differs ((LinkRow.ofNoteParent member).symm.trans mine)
  rw [LinkRow.ofNote, LinkDiff.onRows, List.filter_filter, List.filter_congr fun r _ => free r,
    List.filter_append, inserts, List.append_nil, List.filter_map, parents]
  exact still

theorem onRowsDistinct (ordered : Ordered s.all) (synced : Synced (LinkRow.ofNote id rows) s.all) :
    ((LinkRow.ofNote id (s.classify.onRows id rows)).map LinkRow.anchor).Nodup := by
  have parts : (LinkRow.ofNote id (rows.map (s.classify.toUpdate.foldl (Link.touch id)) ++
      s.classify.toInsert.map (Link.rowOf id))).map LinkRow.anchor =
        (LinkRow.ofNote id rows).map LinkRow.anchor ++ s.classify.toInsert.map Link.anchor := by
    have inserts : (s.classify.toInsert.map (Link.rowOf id)).filter (·.parent == id) =
        s.classify.toInsert.map (Link.rowOf id) := by
      refine List.filter_eq_self.mpr fun r member => ?_
      obtain ⟨l, -, rfl⟩ := List.mem_map.mp member
      simp [Link.rowOf]
    have kept := Link.touchAllKept id s.classify.toUpdate
    simp only [LinkRow.ofNote, List.filter_append, List.map_append, inserts, List.filter_map, List.map_map,
      Function.comp_def, kept, Link.rowOf]
  have less : ((LinkRow.ofNote id (s.classify.onRows id rows)).map LinkRow.anchor).Sublist
      ((LinkRow.ofNote id rows).map LinkRow.anchor ++ s.classify.toInsert.map Link.anchor) := by
    rw [← parts]
    exact ((List.filter_sublist).filter _).map _
  refine List.Nodup.sublist less (List.nodup_append.mpr ⟨synced.distinct,
    (ordered.part _).anchors, ?_⟩)
  intro a old b new same
  obtain ⟨r, stored, rfl⟩ := List.mem_map.mp old
  obtain ⟨m, insert, rfl⟩ := List.mem_map.mp new
  obtain ⟨l, inside, anchor, saved, -⟩ := synced.row r stored
  obtain ⟨known, marks⟩ := List.mem_filter.mp insert
  cases ordered.same inside known (anchor.trans same)
  simp [saved] at marks

theorem liveRowsAscend (ordered : Ordered s.all) :
    (s.live.map (Link.rowOf id)).Pairwise fun r r' => r.anchor < r'.anchor :=
  List.pairwise_map.mpr (ordered.part _).ascending

theorem onRowsPerm (ordered : Ordered s.all) (synced : Synced (LinkRow.ofNote id rows) s.all) :
    (LinkRow.ofNote id (s.classify.onRows id rows)).Perm (s.live.map (Link.rowOf id)) := by
  refine (List.perm_ext_iff_of_nodup (List.Nodup.of_map _ (onRowsDistinct ordered synced))
    ((liveRowsAscend ordered).imp fun below same => ?_)).mpr fun r => ?_
  · rw [same] at below
    exact Int.lt_irrefl _ below
  · rw [memOnRows ordered synced, List.mem_map]

theorem onRowsSorted (ordered : Ordered s.all) (synced : Synced (LinkRow.ofNote id rows) s.all) :
    LinkRow.byAnchor (LinkRow.ofNote id (s.classify.onRows id rows)) =
      s.live.map (Link.rowOf id) := by
  refine LinkRow.ascendingUnique (LinkRow.byAnchorAscends (onRowsDistinct ordered synced))
    (liveRowsAscend ordered) ?_
  exact (LinkRow.byAnchorPerm _).trans (onRowsPerm ordered synced)

theorem onRowsSynced (ordered : Ordered s.all) (synced : Synced (LinkRow.ofNote id rows) s.all) :
    Synced (LinkRow.ofNote id (s.classify.onRows id rows)) (s.live.map (Link.written id)) where
  distinct := onRowsDistinct ordered synced
  row r member := by
    obtain ⟨l, live, rfl⟩ := (memOnRows ordered synced).mp member
    exact ⟨l.written id, List.mem_map_of_mem live, rfl, rfl, rfl, fun _ => rfl⟩
  saved l member _ := by
    obtain ⟨m, live, rfl⟩ := List.mem_map.mp member
    exact List.mem_map.mpr ⟨m.rowOf id, (memOnRows ordered synced).mpr ⟨m, live, rfl⟩, rfl⟩

end

end LinkStore

end ModalNotes
