import ModalNotes.Session
import ModalNotes.Proofs.Editor.Keys
import ModalNotes.Proofs.Link.Store

/-! Sound sessions: a sound editor whose anchors the links mirror, and at most one anchor that waits for
its note, under an id above those of all links. -/
namespace ModalNotes.Session

structure Sound (s : Session) : Prop where
  editor : s.editor.Sound
  taken : s.buffer.newAnchor = none
  mirrors : Mirrors s.links.links s.buffer.anchors
  owned : s.links.Owned
  pending : ∀ id, s.pendingAnchor = some id → id ∈ s.buffer.anchors.keys ∧ ∀ k ∈ s.links.links.keys, k < id

/- Anchors may come and go, but for those that wait no longer: they stay, and a deleted one is deleted.
An anchor can only come under the next free id. -/
structure Extends (s later : Session) : Prop where
  kept : ∀ id a, s.buffer.anchors.get? id = some a → s.pendingAnchor ≠ some id →
    ∃ a', later.buffer.anchors.get? id = some a' ∧ (a.deleted = true → a'.deleted = true)
  waiting : ∀ id, id ∈ s.buffer.anchors.keys → s.pendingAnchor ≠ some id → later.pendingAnchor ≠ some id
  same : ∀ id a a', s.buffer.anchors.get? id = some a → later.buffer.anchors.get? id = some a' →
    a.deleted = true → a'.deleted = true
  grown : ∀ id ∈ later.buffer.anchors.keys,
    id ∈ s.buffer.anchors.keys ∨ id = s.buffer.anchors.nextId

theorem endsOnEditor {α : Type} {m : Run Editor α} {s : Session} {Q : α → Session → Prop} :
    (onEditor m).Ends s Q ↔ m.Ends s.editor fun a editor => Q a { s with editor } := Iff.rfl

theorem endsOnBuffer {α : Type} {m : Run Buffer α} {s : Session} {Q : α → Session → Prop} :
    (onBuffer m).Ends s Q ↔ m.Ends s.buffer fun a buffer =>
      Q a { s with editor := { s.editor with buffer } } := Iff.rfl

theorem endsOnLinks {α : Type} {m : Run LinkStore α} {s : Session} {Q : α → Session → Prop} :
    (onLinks m).Ends s Q ↔ m.Ends s.links fun a links => Q a { s with links } := Iff.rfl

theorem soundSteady {s later : Session} (sound : s.Sound) (editor : later.editor.Sound)
    (steady : s.buffer.Steady later.buffer) (links : later.links = s.links)
    (pending : later.pendingAnchor = s.pendingAnchor) : later.Sound where
  editor := editor
  taken := steady.drawn.trans sound.taken
  mirrors := by rw [links, steady.anchors]; exact sound.mirrors
  owned := links ▸ sound.owned
  pending := by rw [links, pending, steady.anchors]; exact sound.pending

theorem extendsOfAnchors {s later : Session} (anchors : later.buffer.anchors = s.buffer.anchors)
    (pending : later.pendingAnchor = s.pendingAnchor ∨ later.pendingAnchor = none) :
    Extends s later where
  kept id a found _ := ⟨a, anchors ▸ found, fun gone => gone⟩
  waiting id _ other := by
    rcases pending with same | none
    · exact same ▸ other
    · simp [none]
  same id a a' found found' gone := by
    rw [anchors, found] at found'
    cases found'
    exact gone
  grown id member := .inl (anchors ▸ member)

theorem extendsRefl (s : Session) : Extends s s := extendsOfAnchors rfl (.inl rfl)

theorem editorWith {e : Editor} {b : Buffer} (sound : e.Sound) (buffer : b.Sound)
    (document : b.document = e.buffer.document) (selection : b.selectionStart = e.buffer.selectionStart)
    (hops : b.hopMatches = e.buffer.hopMatches) : Editor.Sound { e with buffer := b } where
  registry := sound.registry
  buffer := buffer
  selects c start := by
    rw [document]
    exact sound.selects c (selection ▸ start)
  unselected other := selection.trans (sound.unselected other)
  hops hop c member := by
    rw [document]
    exact sound.hops hop c (hops ▸ member)
  inserting := sound.inserting
  visual := sound.visual

theorem cancelLinkEnds {s : Session} (sound : s.Sound) :
    cancelLink.Ends s fun _ later => later.Sound ∧ Extends s later ∧ later.pendingAnchor = none ∧
      later.links = s.links ∧ later.title = s.title ∧ (∀ id, s.pendingAnchor ≠ some id →
        later.buffer.anchors.get? id = s.buffer.anchors.get? id) ∧
      ∀ id ∈ later.buffer.anchors.keys, id ∈ s.buffer.anchors.keys := by
  unfold cancelLink
  rw [Run.endsBind, Run.endsGet]
  cases waiting : s.pendingAnchor with
  | none =>
    rw [Run.endsPure]
    exact ⟨sound, extendsRefl s, waiting, rfl, rfl, fun _ _ => rfl, fun _ member => member⟩
  | some id =>
    obtain ⟨-, above⟩ := sound.pending id waiting
    dsimp only
    rw [Run.endsBind, endsOnBuffer]
    refine Run.endsMono (Buffer.removeAnchorEnds sound.editor.buffer id) ?_
    intro _ b post
    obtain ⟨rfl, buffer⟩ := post
    rw [Run.endsModify]
    have others : ∀ other, some id ≠ some other →
        (s.buffer.anchors.erase id).get? other = s.buffer.anchors.get? other := by
      intro other differs
      rw [Table.get?_erase, if_neg fun same => differs (congrArg some same.symm)]
    have shrunk : ∀ other ∈ (s.buffer.anchors.erase id).keys, other ∈ s.buffer.anchors.keys := by
      intro other member
      rw [Table.keysErase] at member
      exact (List.mem_filter.mp member).1
    refine ⟨⟨editorWith sound.editor buffer rfl rfl rfl, sound.taken, ?_, sound.owned, ?_⟩,
      ⟨?_, ?_, ?_, fun other member => .inl (shrunk other member)⟩, rfl, rfl, rfl, others, shrunk⟩
    · refine LinkStore.mirrorsSame sound.mirrors ?_
      intro k member
      refine others k ?_
      intro same
      cases same
      exact Int.lt_irrefl id (above id member)
    · intro other none
      contradiction
    · intro other a found differs
      exact ⟨a, (others other (waiting ▸ differs)).trans found, fun gone => gone⟩
    · intro other _ _ none
      contradiction
    · intro other a a' found found' gone
      by_cases same : other = id
      · have erased : (s.buffer.anchors.erase id).get? other = none := by
          rw [Table.get?_erase, if_pos same]
        cases erased.symm.trans found'
      · have kept := others other fun h => same (Option.some.inj h).symm
        cases found.symm.trans (kept.symm.trans found')
        exact gone

theorem searchEnds {s : Session} (sound : s.Sound) (pattern : Option Text) :
    (search pattern).Ends s fun _ later => later.Sound ∧ s.buffer.Steady later.buffer ∧
      later.links = s.links ∧ later.pendingAnchor = s.pendingAnchor := by
  have moved : Editor.Along Editor.Moved (do
      Editor.onBuffer (Buffer.setSearchPattern pattern)
      let found ← Editor.onBuffer Buffer.searchForward
      if found then Editor.recordColumn
      pure found) :=
    Editor.alongBind Editor.movedProgress
      (Editor.movesBuffer (Buffer.calmSetSearchPattern pattern)) fun _ =>
        Editor.movesSearch Buffer.calmSearchForward
  have run := moved s.editor sound.editor.buffer
  have settled : ∀ e : Editor, Editor.Moved s.editor e →
      ∀ later : Session, later.editor = e → later.links = s.links →
        later.pendingAnchor = s.pendingAnchor → later.Sound ∧ s.buffer.Steady later.buffer ∧
          later.links = s.links ∧ later.pendingAnchor = s.pendingAnchor := by
    intro e moved later same links pending
    obtain rfl := same
    have editor : later.editor.Sound := by
      obtain ⟨registry, mode, command⟩ := moved.controls
      have same := editorWith sound.editor (moved.edited sound.editor.buffer).follows.sound
        moved.steady.document moved.selection moved.hops
      exact ⟨registry.trans sound.editor.registry, same.buffer, same.selects,
        fun other => same.unselected (mode ▸ other), fun hop => same.hops (command ▸ hop),
        fun insert => command.trans (same.inserting (mode ▸ insert)),
        fun visual => command ▸ same.visual (mode ▸ visual)⟩
    exact ⟨soundSteady sound editor moved.steady links pending, moved.steady, links, pending⟩
  unfold search
  simp only [Run.endsBind, Editor.endsOnBuffer] at run
  simp only [Run.endsBind, endsOnBuffer]
  refine Run.endsMono run ?_
  intro _ b run'
  refine Run.endsMono run' ?_
  intro found b' run''
  cases found with
  | false =>
    rw [if_neg Bool.false_ne_true, Run.endsPure] at run'' ⊢
    exact settled _ run'' _ rfl rfl rfl
  | true =>
    rw [if_pos rfl, Run.endsBind] at run'' ⊢
    rw [endsOnEditor]
    refine Run.endsMono run'' ?_
    intro _ e moved
    rw [Run.endsPure] at moved ⊢
    exact settled e moved _ rfl rfl rfl

def attached (s : Session) (linked : Int) : Option Link :=
  s.pendingAnchor.bind fun id => ((s.buffer.anchors.get? id).filter (!·.deleted)).map fun a => {
    parent := s.links.parent, anchor := id, linked, row := a.row, startCol := a.startCol, endCol := a.endCol
    serial := s.links.nextSerial }

theorem attachLinkEnds {s : Session} (sound : s.Sound) (linked : Int) :
    (attachLink linked).Ends s fun link later => later.Sound ∧ later.editor = s.editor ∧
      later.pendingAnchor = none ∧ (later.links = s.links ∨ ∃ id a, s.pendingAnchor = some id ∧
        s.buffer.anchors.get? id = some a ∧ a.deleted = false ∧
        later.links = { s.links with
          links := s.links.links.put id {
            parent := s.links.parent, anchor := id, linked, row := a.row, startCol := a.startCol,
            endCol := a.endCol, serial := s.links.nextSerial }
          nextSerial := s.links.nextSerial + 1 }) ∧ link = s.attached linked ∧
      ∀ l, link = some l → (l.anchor, l) ∈ later.links.links.entries := by
  have dropped : Sound { s with pendingAnchor := none } :=
    ⟨sound.editor, sound.taken, sound.mirrors, sound.owned, fun _ none => by contradiction⟩
  unfold attachLink
  rw [Run.endsBind, Run.endsGet, Run.endsBind, Run.endsPut]
  cases waiting : s.pendingAnchor with
  | none =>
    exact Run.endsPure.mpr
      ⟨dropped, rfl, rfl, .inl rfl, by simp [attached, waiting], fun l none => nomatch none⟩
  | some id =>
    dsimp only
    cases chosen : (s.buffer.anchors.get? id).filter (!·.deleted) with
    | none =>
      dsimp only
      rw [Run.endsBind, Run.endsLog, Run.endsPure]
      exact ⟨dropped, rfl, rfl, .inl rfl, by simp [attached, waiting, chosen], fun l none => nomatch none⟩
    | some a =>
      obtain ⟨found, live⟩ := Option.filter_eq_some_iff.mp chosen
      have live' : a.deleted = false := by simpa using live
      obtain ⟨-, above⟩ := sound.pending id waiting
      have fresh : id ∉ s.links.links.keys := fun member => Int.lt_irrefl id (above id member)
      dsimp only
      rw [Run.endsBind, Run.endsOfExcept]
      refine ⟨_, LinkStore.insertOk fresh, ?_⟩
      simp only [Run.endsBind, Run.endsModify, Run.endsLog, Run.endsPure]
      have parent : s.noteId.or s.links.parent = s.links.parent := by
        rw [noteId]
        cases s.links.parent <;> rfl
      refine ⟨⟨sound.editor, sound.taken, ?_, ?_, fun _ none => by contradiction⟩, trivial, trivial,
        .inr ⟨id, a, rfl, found, live', by rw [parent]⟩, by simp [attached, waiting, chosen, parent],
        fun l made => ?_⟩
      · have link := LinkStore.mirrorsPut sound.mirrors (l := {
          parent := s.noteId.or s.links.parent, anchor := id, linked, row := a.row,
          startCol := a.startCol, endCol := a.endCol, serial := s.links.nextSerial }) fresh found
        exact link live'.symm rfl
      · intro id' l member
        rw [Table.putNew fresh] at member
        rcases List.mem_append.mp member with old | new
        · exact sound.owned id' l old
        · cases List.mem_singleton.mp new
          exact parent
      · cases made
        exact Table.putNew fresh _ ▸ List.mem_append_right _ (List.mem_singleton_self _)

end ModalNotes.Session
