import ModalNotes.Proofs.Link.Lost
import ModalNotes.Proofs.Notebook.Step
import ModalNotes.Proofs.Storage.Tables

/-! Sessions abreast of the tables they are saved in. The rows of a session's note agree with its links as
far as these are marked as saved, but for links that are known to be lost: inputs keep that by their marks,
and a save renews it. -/
namespace ModalNotes

namespace Anchor

theorem spansGeometry {a b : Anchor} {d : Document} (spans : a.Spans d) (same : b.geometry = a.geometry) :
    b.Spans d := by
  simp only [geometry, Prod.mk.injEq] at same
  obtain ⟨row, start, stop⟩ := same
  obtain ⟨above, below, start', nonempty, inside⟩ := spans
  exact ⟨row ▸ above, row ▸ below, start ▸ start', by rw [start, stop]; exact nonempty,
    by rw [row, stop]; exact inside⟩

end Anchor

namespace LinkStore

theorem isLostIff {lost : List Int} {l : Link} : isLost lost l = true ↔ l.anchor ∈ lost :=
  List.contains_iff_mem

theorem withoutMapped {s t : LinkStore} {lost : List Int} {f : Link → Link}
    (kept : ∀ l, (f l).anchor = l.anchor) (all : t.all = s.all.map f) :
    (t.without lost).all = (s.without lost).all.map f := by
  rw [withoutAll, withoutAll, all, List.filter_map]
  refine congrArg (List.map f) (List.filter_congr fun l _ => ?_)
  rw [Function.comp_apply, isLost, kept]
  rfl

end LinkStore

namespace Session

def rowsIn (s : Session) (d : Database) : List LinkRow :=
  match s.noteId with
  | none => []
  | some id => d.rowsIn id

theorem rowsInBound {s : Session} {id : Int} (bound : s.noteId = some id) (d : Database) :
    s.rowsIn d = d.rowsIn id := by
  rw [rowsIn, bound]

structure Tidy (s : Session) : Prop where
  sound : s.Sound
  ordered : Ordered s.links.all
  below : ∀ l ∈ s.links.all, l.serial < s.links.nextSerial

/- The anchors of lost links are taken: they stay in the table, and no other link gets them. -/
structure Abreast (d : Database) (lost : List Int) (s : Session) : Prop where
  tidy : s.Tidy
  known : ∀ id, s.noteId = some id → (d.noteOf id).isSome = true
  synced : Synced (s.rowsIn d) (s.links.without lost).all
  saved : ∀ l ∈ s.links.all, LinkStore.isLost lost l = true → l.saved = true
  taken : ∀ id ∈ lost, id ∈ s.buffer.anchors.keys ∧ s.pendingAnchor ≠ some id

theorem keysOf {s : Session} (sound : s.Sound) : s.links.links.keys = s.links.all.map Link.anchor := by
  rw [Table.keys, LinkStore.entriesOf sound.mirrors.own, List.map_map]
  rfl

theorem servedNote {s later : Session} (links : Tracks s later ∨ Attaches s later) :
    later.noteId = s.noteId := by
  rcases links with (same | ⟨anchors, tracked⟩) | ⟨id, a, linked, -, -, -, put⟩
  · rw [noteId, same, noteId]
  · rw [noteId, tracked, noteId]
  · rw [noteId, put, noteId]

theorem tracksAll {s later : Session} (tracks : Tracks s later) : ∃ f : Link → Link,
    later.links.all = s.links.all.map f ∧ later.links.nextSerial = s.links.nextSerial ∧
      ∀ l, (f l).anchor = l.anchor ∧ (f l).saved = l.saved ∧ (f l).linked = l.linked ∧
        (f l).serial = l.serial ∧
        ((f l).updated = false → l.updated = false ∧ (f l).geometry = l.geometry) := by
  rcases tracks with same | ⟨anchors, tracked⟩
  · rw [same]
    exact ⟨id, (List.map_id _).symm, rfl, fun l => ⟨rfl, rfl, rfl, rfl, fun still => ⟨still, rfl⟩⟩⟩
  · rw [tracked]
    refine ⟨LinkStore.refreshed anchors, ?_, rfl, fun l => ?_⟩
    · simp only [LinkStore.all, Table.values, Table.mapValues, List.map_map]
      rfl
    · obtain ⟨anchor, -, linked, saved, serial⟩ := LinkStore.refreshedSame anchors l
      exact ⟨anchor, saved, linked, serial, LinkStore.refreshedStill⟩

theorem attachesAll {s later : Session} (sound : s.Sound) (attaches : Attaches s later) : ∃ l : Link,
    later.links.all = s.links.all ++ [l] ∧ later.links.nextSerial = s.links.nextSerial + 1 ∧
      l.saved = false ∧ l.serial = s.links.nextSerial ∧ s.pendingAnchor = some l.anchor ∧
      ∀ m ∈ s.links.all, m.anchor < l.anchor := by
  obtain ⟨id, a, linked, waiting, -, -, put⟩ := attaches
  obtain ⟨-, above⟩ := sound.pending id waiting
  have fresh : id ∉ s.links.links.keys := fun member => Int.lt_irrefl id (above id member)
  rw [put]
  refine ⟨{
      parent := s.links.parent, anchor := id, linked, row := a.row, startCol := a.startCol,
      endCol := a.endCol, serial := s.links.nextSerial }, ?_, rfl, rfl, rfl, waiting,
    fun m member => above m.anchor (keysOf sound ▸ List.mem_map_of_mem member)⟩
  simp only [LinkStore.all, Table.values, Table.putNew fresh, List.map_append, List.map_cons,
    List.map_nil]

theorem tidyTracks {s later : Session} (tidy : s.Tidy) (sound : later.Sound) (tracks : Tracks s later) :
    later.Tidy := by
  obtain ⟨f, all, next, kept⟩ := tracksAll tracks
  refine ⟨sound, ?_, ?_⟩
  · rw [all]
    exact tidy.ordered.mapped fun l => ⟨(kept l).1, (kept l).2.2.2.1⟩
  · rw [all, next]
    intro l member
    obtain ⟨old, inside, rfl⟩ := List.mem_map.mp member
    rw [(kept old).2.2.2.1]
    exact tidy.below old inside

theorem tidyAttaches {s later : Session} (tidy : s.Tidy) (sound : later.Sound)
    (attaches : Attaches s later) : later.Tidy := by
  obtain ⟨l, all, next, -, serial, -, above⟩ := attachesAll tidy.sound attaches
  refine ⟨sound, ⟨?_, ?_⟩, ?_⟩
  · rw [all]
    refine List.pairwise_append.mpr ⟨tidy.ordered.ascending, List.pairwise_singleton _ _, ?_⟩
    intro m member l new
    cases List.mem_singleton.mp new
    exact above m member
  · rw [all, List.map_append]
    refine List.nodup_append.mpr ⟨tidy.ordered.serials, List.nodup_singleton _, ?_⟩
    intro k old other new same
    obtain ⟨m, member, rfl⟩ := List.mem_map.mp old
    have low := tidy.below m member
    rw [same, List.mem_singleton.mp new, serial] at low
    exact Nat.lt_irrefl _ low
  · rw [all, next]
    intro m member
    rcases List.mem_append.mp member with old | new
    · exact Nat.lt_succ_of_lt (tidy.below m old)
    · cases List.mem_singleton.mp new
      rw [serial]
      exact Nat.lt_succ_self _

theorem tidyServed {s later : Session} (tidy : s.Tidy) (served : Served s later) : later.Tidy := by
  rcases served.links with tracks | attaches
  · exact tidyTracks tidy served.sound tracks
  · exact tidyAttaches tidy served.sound attaches

section
variable {d : Database} {lost : List Int} {s later : Session}

theorem abreastTables {d' : Database} (abreast : Abreast d lost s)
    (rows : ∀ id, s.noteId = some id → d'.rowsIn id = d.rowsIn id)
    (notes : ∀ id, s.noteId = some id → (d'.noteOf id).isSome = true) : Abreast d' lost s := by
  have same : s.rowsIn d' = s.rowsIn d := by
    unfold rowsIn
    split
    · rfl
    · rename_i id saved
      exact rows id saved
  exact ⟨abreast.tidy, notes, same ▸ abreast.synced, abreast.saved, abreast.taken⟩

theorem takenServed (abreast : Abreast d lost s) (anchors : Extends s later) :
    ∀ id ∈ lost, id ∈ later.buffer.anchors.keys ∧ later.pendingAnchor ≠ some id := by
  intro id member
  obtain ⟨inside, other⟩ := abreast.taken id member
  obtain ⟨a, found⟩ := Table.someOfMem inside
  obtain ⟨a', found', -⟩ := anchors.kept id a found other
  exact ⟨Table.memOfSome found', anchors.waiting id inside other⟩

theorem abreastTracks (abreast : Abreast d lost s) (served : Served s later) (tracks : Tracks s later) :
    Abreast d lost later := by
  have noteId := servedNote (.inl tracks)
  obtain ⟨f, all, -, kept⟩ := tracksAll tracks
  refine ⟨tidyServed abreast.tidy served, noteId ▸ abreast.known, ?_, ?_,
    takenServed abreast served.anchors⟩
  · rw [rowsIn, noteId, LinkStore.withoutMapped (fun l => (kept l).1) all]
    exact abreast.synced.mapped fun l =>
      ⟨(kept l).1, (kept l).2.1, (kept l).2.2.1, (kept l).2.2.2.2⟩
  · rw [all]
    intro l member out
    obtain ⟨old, inside, rfl⟩ := List.mem_map.mp member
    rw [(kept old).2.1]
    rw [LinkStore.isLost, (kept old).1] at out
    exact abreast.saved old inside out

theorem abreastAttaches (abreast : Abreast d lost s) (served : Served s later)
    (attaches : Attaches s later) : Abreast d lost later := by
  have noteId := servedNote (.inr attaches)
  obtain ⟨l, all, -, unsaved, -, waiting, -⟩ := attachesAll abreast.tidy.sound attaches
  have found : LinkStore.isLost lost l = false := by
    rw [← Bool.not_eq_true, LinkStore.isLostIff]
    exact fun member => (abreast.taken l.anchor member).2 waiting
  refine ⟨tidyServed abreast.tidy served, noteId ▸ abreast.known, ?_, ?_,
    takenServed abreast served.anchors⟩
  · have last : [l].filter (fun l => !LinkStore.isLost lost l) = [l] :=
      List.filter_eq_self.mpr (List.forall_mem_singleton.mpr (by rw [found]; rfl))
    rw [rowsIn, noteId, LinkStore.withoutAll, all, List.filter_append, last, ← LinkStore.withoutAll]
    exact abreast.synced.added unsaved
  · rw [all]
    intro m member out
    rcases List.mem_append.mp member with old | new
    · exact abreast.saved m old out
    · cases List.mem_singleton.mp new
      rw [found] at out
      contradiction

theorem abreastServed (abreast : Abreast d lost s) (served : Served s later) : Abreast d lost later := by
  rcases served.links with tracks | attaches
  · exact abreastTracks abreast served tracks
  · exact abreastAttaches abreast served attaches

end

section
variable {d later : Database} {lost : List Int} {s : Session} {id : Int} {title : Text} {hasLinks : Bool}

theorem linksSaved (tidy : s.Tidy)
    (saves : d.Saves later s.links.parent ⟨id, title, s.text, hasLinks⟩ s.links.classify) :
    (Notebook.savedSession s id).links.all = s.links.live.map (Link.written id) :=
  LinkStore.savedAll tidy.ordered tidy.sound.owned tidy.sound.mirrors.own saves.same

theorem noteSaved
    (saves : d.Saves later s.links.parent ⟨id, title, s.text, hasLinks⟩ s.links.classify) :
    (Notebook.savedSession s id).noteId = some id := Ledger.boundParent saves.same

theorem tidySaved (tidy : s.Tidy)
    (saves : d.Saves later s.links.parent ⟨id, title, s.text, hasLinks⟩ s.links.classify) :
    (Notebook.savedSession s id).Tidy := by
  have all := linksSaved tidy saves
  refine ⟨Notebook.savedSound tidy.sound id, ?_, ?_⟩
  · rw [all]
    exact (tidy.ordered.part _).mapped fun _ => ⟨rfl, rfl⟩
  · rw [all]
    intro l member
    obtain ⟨old, live, rfl⟩ := List.mem_map.mp member
    have low := tidy.below old (LinkStore.liveIff.mp live).1
    have next : (Notebook.savedSession s id).links.nextSerial = s.links.nextSerial := by
      simp only [Notebook.savedSession, LinkStore.settle, LinkStore.mapLinks, Ledger.bound]
      split <;> rfl
    rw [next]
    exact low

theorem syncedBefore (rooted : d.Rooted) (abreast : Abreast d lost s)
    (saves : d.Saves later s.links.parent ⟨id, title, s.text, hasLinks⟩ s.links.classify) :
    Synced (d.rowsIn id) (s.links.without lost).all := by
  have synced := abreast.synced
  rw [rowsIn, noteId] at synced
  cases parent : s.links.parent with
  | none =>
    rw [parent] at synced
    rw [Database.noRows rooted (saves.fresh parent)]
    exact synced
  | some n =>
    rw [parent] at synced
    cases saves.same n parent
    exact synced

theorem rowsWritten (rooted : d.Rooted) (abreast : Abreast d lost s)
    (saves : d.Saves later s.links.parent ⟨id, title, s.text, hasLinks⟩ s.links.classify) :
    later.rowsIn id =
      LinkRow.ofNote id ((s.links.without lost).classify.onRows id (d.links.getD [])) := by
  rw [saves.rows, LinkStore.onRowsWithout abreast.saved (syncedBefore rooted abreast saves)]

theorem rowsSorted (rooted : d.Rooted) (abreast : Abreast d lost s)
    (saves : d.Saves later s.links.parent ⟨id, title, s.text, hasLinks⟩ s.links.classify) :
    LinkRow.byAnchor (later.rowsIn id) =
      (s.links.live.filter fun l => !LinkStore.isLost lost l).map (Link.rowOf id) := by
  rw [rowsWritten rooted abreast saves, LinkStore.onRowsSorted
    (LinkStore.withoutOrdered abreast.tidy.ordered) (syncedBefore rooted abreast saves),
    LinkStore.withoutLive]

theorem abreastSaved (rooted : d.Rooted) (abreast : Abreast d lost s)
    (saves : d.Saves later s.links.parent ⟨id, title, s.text, hasLinks⟩ s.links.classify) :
    Abreast later lost (Notebook.savedSession s id) := by
  have all := linksSaved abreast.tidy saves
  have noteId := noteSaved saves
  refine ⟨tidySaved abreast.tidy saves, ?_, ?_, ?_, abreast.taken⟩
  · intro n same
    cases noteId.symm.trans same
    rw [saves.writes.found]
    rfl
  · have written : ((Notebook.savedSession s id).links.without lost).all =
        (s.links.without lost).live.map (Link.written id) := by
      rw [LinkStore.withoutAll, all, List.filter_map, LinkStore.withoutLive]
      rfl
    rw [rowsInBound noteId, rowsWritten rooted abreast saves, written]
    exact LinkStore.onRowsSynced (LinkStore.withoutOrdered abreast.tidy.ordered)
      (syncedBefore rooted abreast saves)
  · rw [all]
    intro l member _
    obtain ⟨old, -, rfl⟩ := List.mem_map.mp member
    rfl

theorem liveSpans (sound : s.Sound) {l : Link} (member : l ∈ s.links.live) :
    (Link.ofRow (l.rowOf id)).toAnchor.Spans (Document.ofText s.text) := by
  obtain ⟨inside, live⟩ := LinkStore.liveIff.mp member
  obtain ⟨⟨k, _⟩, entry, rfl⟩ := List.mem_map.mp inside
  obtain ⟨a, found, gone, same⟩ := sound.mirrors.present k _ entry
  have buffer := sound.editor.buffer
  have alive : a.deleted = false := gone.symm.trans live
  have spans := buffer.anchors k a (Table.memOfGet found) alive
  have lines : (Document.ofText s.text).lines = s.buffer.document.lines :=
    Text.linesUnlines buffer.document.nonempty buffer.document.clean
  exact Anchor.spansGeometry (Anchor.spansLines spans lines) (same alive)

theorem storedSaved (rooted : d.Rooted) (abreast : Abreast d lost s)
    (saves : d.Saves later s.links.parent ⟨id, title, s.text, hasLinks⟩ s.links.classify) :
    LinkRow.Stored id s.text (later.rowsIn id) := by
  have synced := syncedBefore rooted abreast saves
  have ordered : Ordered (s.links.without lost).all := LinkStore.withoutOrdered abreast.tidy.ordered
  rw [rowsWritten rooted abreast saves]
  refine ⟨fun r member => LinkRow.ofNoteParent member, LinkStore.onRowsDistinct ordered synced, ?_⟩
  intro r member
  obtain ⟨l, live, rfl⟩ := (LinkStore.memOnRows ordered synced).mp member
  rw [LinkStore.withoutLive] at live
  exact liveSpans abreast.tidy.sound (List.mem_filter.mp live).1

end

end Session

end ModalNotes
