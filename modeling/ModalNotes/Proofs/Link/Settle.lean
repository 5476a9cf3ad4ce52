import ModalNotes.Proofs.Link.Rows
import ModalNotes.Proofs.Storage.Sync

/-! Links after a save. The live ones remain, all of them written, and the report counts the rows that were
rewritten, added and taken out. -/
namespace ModalNotes

theorem Synced.count {rows : List LinkRow} {links : List Link} (synced : Synced rows links)
    (ordered : Ordered links) {p : LinkRow → Bool} {q : Link → Bool}
    (agree : ∀ r ∈ rows, ∀ l ∈ links, l.anchor = r.anchor → l.saved = true → l.linked = r.linked →
      p r = q l) :
    (rows.filter p).length = (links.filter fun l => q l && l.saved).length := by
  have anchors : (rows.map LinkRow.anchor).Perm ((links.filter Link.saved).map Link.anchor) := by
    refine (List.perm_ext_iff_of_nodup synced.distinct (ordered.part _).anchors).mpr fun k => ?_
    constructor
    · intro member
      obtain ⟨r, stored, rfl⟩ := List.mem_map.mp member
      obtain ⟨l, inside, anchor, saved, -⟩ := synced.row r stored
      exact List.mem_map.mpr ⟨l, List.mem_filter.mpr ⟨inside, saved⟩, anchor⟩
    · intro member
      obtain ⟨l, inside, rfl⟩ := List.mem_map.mp member
      obtain ⟨known, saved⟩ := List.mem_filter.mp inside
      exact synced.saved l known saved
  let chosen (k : Int) : Bool := links.any fun l => l.anchor == k && q l
  have ofLink : ∀ l ∈ links, chosen l.anchor = q l := by
    intro l inside
    cases yes : q l with
    | true => exact List.any_eq_true.mpr ⟨l, inside, by simp [yes]⟩
    | false =>
      refine List.any_eq_false.mpr fun m known both => ?_
      simp only [Bool.and_eq_true, beq_iff_eq] at both
      cases ordered.same known inside both.1
      simp [yes] at both
  have ofRow : ∀ r ∈ rows, p r = chosen r.anchor := by
    intro r stored
    obtain ⟨l, inside, anchor, saved, linked, -⟩ := synced.row r stored
    rw [agree r stored l inside anchor saved linked, ← anchor, ofLink l inside]
  calc (rows.filter p).length
      = ((rows.map LinkRow.anchor).filter chosen).length := by
        rw [List.filter_map, List.length_map, List.filter_congr ofRow]
        rfl
    _ = (((links.filter Link.saved).map Link.anchor).filter chosen).length :=
        (anchors.filter chosen).length_eq
    _ = (links.filter fun l => q l && l.saved).length := by
        rw [List.filter_map, List.length_map, List.filter_filter]
        refine congrArg List.length (List.filter_congr fun l inside => ?_)
        rw [Function.comp_apply, ofLink l inside]

structure SyncReport.Counts (report : SyncReport) (id : Int) (d : LinkDiff)
    (before after : List LinkRow) : Prop where
  updated : report.updated = (before.filter fun r => d.toUpdate.any (·.names id r)).length
  inserted : report.inserted = ((LinkRow.ofNote id after).filter fun r =>
    !((LinkRow.ofNote id before).map LinkRow.anchor).contains r.anchor).length
  deleted : report.deleted = ((LinkRow.ofNote id before).filter fun r =>
    !((LinkRow.ofNote id after).map LinkRow.anchor).contains r.anchor).length
  others : ∀ other, other ≠ id → LinkRow.ofNote other after = LinkRow.ofNote other before

namespace LinkStore

section
variable {s : LinkStore} {id : Int} {rows : List LinkRow}

theorem updatedCount (ordered : Ordered s.all) (synced : Synced (LinkRow.ofNote id rows) s.all) :
    s.classify.toUpdate.length =
      (rows.filter fun r => s.classify.toUpdate.any (·.names id r)).length := by
  have mine : rows.filter (fun r => s.classify.toUpdate.any (·.names id r)) =
      (LinkRow.ofNote id rows).filter fun r => s.classify.toUpdate.any (·.names id r) := by
    rw [LinkRow.ofNote, List.filter_filter]
    refine List.filter_congr fun r _ => ?_
    cases named : s.classify.toUpdate.any (·.names id r) with
    | false => rfl
    | true =>
      obtain ⟨l, -, names⟩ := List.any_eq_true.mp named
      simp [(Link.namesIff.mp names).1]
  rw [mine, synced.count ordered (q := fun l => !l.deleted && l.updated)]
  · refine congrArg List.length (List.filter_congr fun l _ => ?_)
    cases l.deleted <;> cases l.saved <;> cases l.updated <;> rfl
  · intro r member l inside anchor saved linked
    refine Bool.eq_iff_iff.mpr ⟨fun named => ?_, fun marks => ?_⟩
    · obtain ⟨m, update, names⟩ := List.any_eq_true.mp named
      obtain ⟨known, marks⟩ := List.mem_filter.mp update
      cases ordered.same known inside ((Link.namesIff.mp names).2.2.symm.trans anchor.symm)
      simp at marks
      simp [marks]
    · have update : l ∈ s.classify.toUpdate := by
        refine List.mem_filter.mpr ⟨inside, ?_⟩
        simp at marks
        simp [marks, saved]
      exact List.any_eq_true.mpr ⟨l, update,
        Link.namesIff.mpr ⟨LinkRow.ofNoteParent member, linked.symm, anchor.symm⟩⟩

theorem memAnchors {r : LinkRow} (ordered : Ordered s.all)
    (synced : Synced (LinkRow.ofNote id rows) s.all) :
    r.anchor ∈ (LinkRow.ofNote id (s.classify.onRows id rows)).map LinkRow.anchor ↔
      ∃ l ∈ s.live, l.anchor = r.anchor := by
  rw [((onRowsPerm ordered synced).map LinkRow.anchor).mem_iff, List.map_map, List.mem_map]
  rfl

theorem deletedCount (ordered : Ordered s.all) (synced : Synced (LinkRow.ofNote id rows) s.all) :
    s.classify.toDelete.length = ((LinkRow.ofNote id rows).filter fun r =>
      !((LinkRow.ofNote id (s.classify.onRows id rows)).map LinkRow.anchor).contains
        r.anchor).length := by
  rw [synced.count ordered (q := Link.deleted)]
  · rfl
  · intro r member l inside anchor _ _
    refine Bool.eq_iff_iff.mpr ?_
    rw [Bool.not_eq_true', ← Bool.not_eq_true, List.contains_iff_mem, memAnchors ordered synced]
    constructor
    · intro gone
      cases live : l.deleted with
      | true => rfl
      | false => exact absurd ⟨l, liveIff.mpr ⟨inside, live⟩, anchor⟩ gone
    · intro deleted post
      obtain ⟨m, live, same⟩ := post
      obtain ⟨known, kept⟩ := liveIff.mp live
      cases ordered.same known inside (same.trans anchor.symm)
      simp [deleted] at kept

theorem insertedCount (ordered : Ordered s.all) (synced : Synced (LinkRow.ofNote id rows) s.all) :
    s.classify.toInsert.length = ((LinkRow.ofNote id (s.classify.onRows id rows)).filter fun r =>
      !((LinkRow.ofNote id rows).map LinkRow.anchor).contains r.anchor).length := by
  rw [((onRowsPerm ordered synced).filter _).length_eq, List.filter_map, List.length_map, live,
    List.filter_filter]
  refine congrArg List.length (List.filter_congr fun l inside => ?_)
  have stored : ((LinkRow.ofNote id rows).map LinkRow.anchor).contains l.anchor = l.saved := by
    refine Bool.eq_iff_iff.mpr ?_
    rw [List.contains_iff_mem]
    refine ⟨fun member => ?_, synced.saved l inside⟩
    obtain ⟨r, stored, anchor⟩ := List.mem_map.mp member
    obtain ⟨m, known, anchor', saved, -⟩ := synced.row r stored
    cases ordered.same known inside (anchor'.trans anchor)
    exact saved
  simp only [Function.comp_apply, Link.rowOf, stored]
  exact Bool.and_comm _ _

theorem countsReport (ordered : Ordered s.all) (synced : Synced (LinkRow.ofNote id rows) s.all) :
    (Ledger.report s).Counts id s.classify rows (s.classify.onRows id rows) where
  updated := updatedCount ordered synced
  inserted := insertedCount ordered synced
  deleted := deletedCount ordered synced
  others _ differs := onRowsOthers s.classify differs

theorem entriesOf (own : ∀ k l, (k, l) ∈ s.links.entries → l.anchor = k) :
    s.links.entries = s.all.map fun l => (l.anchor, l) := by
  rw [all, Table.values, List.map_map]
  refine ((List.map_congr_left fun e member => ?_).trans (List.map_id _)).symm
  obtain ⟨k, l⟩ := e
  simp [own k l member]

theorem markedClassified (distinct : Distinct s.all) {l : Link} (inside : l ∈ s.all) :
    marked s.classify l = if l.deleted then l else { l with saved := true, updated := false } := by
  have writtenIff : ((s.classify.toInsert ++ s.classify.toUpdate).map Link.serial).contains l.serial =
      (!l.deleted && (!l.saved || l.updated)) := by
    refine Bool.eq_iff_iff.mpr ?_
    rw [List.contains_iff_mem]
    constructor
    · intro member
      obtain ⟨m, listed, same⟩ := List.mem_map.mp member
      have known : m ∈ s.all := by
        rcases List.mem_append.mp listed with insert | update
        · exact (List.mem_filter.mp insert).1
        · exact (List.mem_filter.mp update).1
      cases List.inj_on_of_nodup_map distinct.serials known inside same
      rcases List.mem_append.mp listed with insert | update
      · have marks := (List.mem_filter.mp insert).2
        simp at marks
        simp [marks]
      · have marks := (List.mem_filter.mp update).2
        simp at marks
        simp [marks]
    · intro marks
      refine List.mem_map_of_mem (List.mem_append.mpr ?_)
      cases saved : l.saved with
      | false => exact .inl (List.mem_filter.mpr ⟨inside, by simp at marks; simp [saved, marks]⟩)
      | true => exact .inr (List.mem_filter.mpr ⟨inside, by simp [saved] at marks; simp [saved, marks]⟩)
  obtain ⟨parent, anchor, linked, row, start, stop, saved, updated, deleted, serial⟩ := l
  rw [marked, writtenIff]
  cases deleted <;> cases saved <;> cases updated <;> rfl

theorem settleAll (distinct : Distinct s.all)
    (own : ∀ k l, (k, l) ∈ s.links.entries → l.anchor = k) :
    (s.settle s.classify).all = s.live.map fun l => { l with saved := true, updated := false } := by
  have kept : ∀ l ∈ s.all, (!(s.classify.toDelete.map Link.anchor).contains l.anchor &&
      !((marked s.classify l).deleted && !(marked s.classify l).saved)) = !l.deleted := by
    intro l inside
    have gone := goneIff distinct inside
    rw [markedClassified distinct inside]
    cases deleted : l.deleted with
    | true =>
      rw [if_pos rfl, deleted]
      cases saved : l.saved with
      | true => rw [gone.mpr ⟨deleted, saved⟩]; rfl
      | false => simp
    | false =>
      have absent : (s.classify.toDelete.map Link.anchor).contains l.anchor = false := by
        rw [← Bool.not_eq_true, gone, deleted]
        simp
      rw [if_neg Bool.false_ne_true, absent]
      simp
  have entries : (s.links.mapValues (marked s.classify)).entries =
      s.all.map fun l => (l.anchor, marked s.classify l) := by
    rw [Table.mapValues, entriesOf own, List.map_map]
    rfl
  rw [all, Table.values, settleEntries, entries, List.filter_map, List.map_map]
  simp only [Function.comp_def]
  rw [List.filter_congr kept, live]
  refine List.map_congr_left fun l member => ?_
  obtain ⟨inside, alive⟩ := List.mem_filter.mp member
  rw [markedClassified distinct inside, if_neg (by simpa using alive)]

theorem bindAll (parent : Option Int) :
    (s.bindParent parent).all = s.all.map fun l => { l with parent } := by
  simp only [all, Table.values, bindParent, mapLinks, List.map_map]
  rfl

theorem settleBound (parent : Option Int) :
    (s.bindParent parent).settle s.classify =
      (s.bindParent parent).settle (s.bindParent parent).classify := by
  have serials : ((s.bindParent parent).classify.toInsert ++
      (s.bindParent parent).classify.toUpdate).map Link.serial =
        (s.classify.toInsert ++ s.classify.toUpdate).map Link.serial := by
    simp only [classify, bindAll, List.filter_map, List.map_append, List.map_map, Function.comp_def]
  have anchors : (s.bindParent parent).classify.toDelete.map Link.anchor =
      s.classify.toDelete.map Link.anchor := by
    simp only [classify, bindAll, List.filter_map, List.map_map, Function.comp_def]
  rw [settle, settle, serials, anchors]

theorem savedAll (ordered : Ordered s.all) (owned : s.Owned)
    (own : ∀ k l, (k, l) ∈ s.links.entries → l.anchor = k)
    (same : ∀ n, s.parent = some n → n = id) :
    ((Ledger.bound s id).settle s.classify).all = s.live.map (Link.written id) := by
  unfold Ledger.bound
  cases parent : s.parent with
  | none =>
    have own' : ∀ k l, (k, l) ∈ (s.bindParent (some id)).links.entries → l.anchor = k := by
      intro k l member
      obtain ⟨⟨k', l'⟩, old, eq⟩ := List.mem_map.mp member
      cases eq
      exact own _ l' old
    have ordered' : Ordered (s.bindParent (some id)).all := by
      rw [bindAll]
      exact ordered.mapped fun _ => ⟨rfl, rfl⟩
    rw [if_pos Option.isNone_none, settleBound, settleAll ordered'.distinct own', live, bindAll, List.filter_map,
      List.map_map]
    rfl
  | some n =>
    cases same n parent
    rw [if_neg (by simp), settleAll ordered.distinct own]
    refine List.map_congr_left fun l member => ?_
    have mine : l.parent = some id := by
      obtain ⟨⟨k, _⟩, entry, rfl⟩ := List.mem_map.mp (liveIff.mp member).1
      exact (owned k _ entry).trans parent
    rw [Link.written, ← mine]

theorem writtenLive {id : Int} {links : List Link} {t : LinkStore}
    (saved : t.all = links.map (Link.written id)) (live : ∀ l ∈ links, l.deleted = false) :
    t.live = links.map (Link.written id) := by
  rw [LinkStore.live, saved]
  refine List.filter_eq_self.mpr fun l member => ?_
  obtain ⟨m, inside, rfl⟩ := List.mem_map.mp member
  simpa [Link.written] using live m inside

theorem writtenRows (id : Int) (links : List Link) :
    (links.map (Link.written id)).mapM Link.toRow = .ok (links.map (Link.rowOf id)) := by
  induction links with
  | nil => rfl
  | cons l rest ih =>
    rw [List.map_cons, List.mapM_cons, ih]
    rfl

end

end LinkStore

end ModalNotes
