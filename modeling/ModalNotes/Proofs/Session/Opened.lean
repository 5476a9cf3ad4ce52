import ModalNotes.Proofs.Session.Sound

/-! Sessions as they are opened: new ones, and stored notes whose rows lie in their text. -/
namespace ModalNotes

structure LinkRow.Stored (noteId : Int) (body : Text) (rows : List LinkRow) : Prop where
  own : ∀ r ∈ rows, r.parent = noteId
  distinct : (rows.map LinkRow.anchor).Nodup
  spans : ∀ r ∈ rows, (Link.ofRow r).toAnchor.Spans (Document.ofText body)

instance (noteId : Int) (body : Text) (rows : List LinkRow) : Decidable (LinkRow.Stored noteId body rows) :=
  decidable_of_iff ((∀ r ∈ rows, r.parent = noteId) ∧ (rows.map LinkRow.anchor).Nodup ∧
      ∀ r ∈ rows, (Link.ofRow r).toAnchor.Spans (Document.ofText body))
    ⟨fun ⟨own, distinct, spans⟩ => ⟨own, distinct, spans⟩,
      fun stored => ⟨stored.own, stored.distinct, stored.spans⟩⟩

namespace LinkStore

def numbered (first : Nat) : List LinkRow → List (Int × Link)
  | [] => []
  | r :: rest => (r.anchor, { Link.ofRow r with serial := first }) :: numbered (first + 1) rest

theorem numberedMem {first : Nat} {rows : List LinkRow} {id : Int} {l : Link}
    (h : (id, l) ∈ numbered first rows) :
    ∃ r ∈ rows, ∃ serial, id = r.anchor ∧ l = { Link.ofRow r with serial } := by
  induction rows generalizing first with
  | nil => simp [numbered] at h
  | cons r rest ih =>
    rcases List.mem_cons.mp h with first' | later
    · cases first'
      exact ⟨r, List.mem_cons_self, first, rfl, rfl⟩
    · obtain ⟨r', member, serial, same⟩ := ih later
      exact ⟨r', List.mem_cons_of_mem r member, serial, same⟩

theorem insertRowsOk (s : LinkStore) (noteId : Int) {rows : List LinkRow}
    (own : ∀ r ∈ rows, r.parent = noteId)
    (distinct : (s.links.keys ++ rows.map LinkRow.anchor).Nodup) :
    s.insertRows noteId rows = .ok { s with
      links := ⟨s.links.entries ++ numbered s.nextSerial rows⟩
      nextSerial := s.nextSerial + rows.length } := by
  induction rows generalizing s with
  | nil => simp [insertRows, numbered]
  | cons r rest ih =>
    have mine := own r List.mem_cons_self
    rw [List.map_cons] at distinct
    have fresh : r.anchor ∉ s.links.keys := fun member =>
      (List.nodup_append.mp distinct).2.2 r.anchor member r.anchor List.mem_cons_self rfl
    have inserted := insertOk (l := Link.ofRow r) fresh
    have parent : (Link.ofRow r).parent.or s.parent = (Link.ofRow r).parent := rfl
    rw [parent] at inserted
    have keys : (s.links.put r.anchor { Link.ofRow r with serial := s.nextSerial }).keys =
        s.links.keys ++ [r.anchor] := by
      rw [Table.keys_put, if_neg fresh]
    have rest' := ih { s with
        links := s.links.put r.anchor { Link.ofRow r with serial := s.nextSerial }
        nextSerial := s.nextSerial + 1 }
      (fun r' member => own r' (List.mem_cons_of_mem r member))
      (by rw [keys]; simpa using distinct)
    simp only [insertRows, mine, ne_eq, not_true_eq_false, if_false, bind, Except.bind]
    rw [inserted]
    dsimp only
    refine rest'.trans ?_
    have entries := Table.putNew fresh { Link.ofRow r with serial := s.nextSerial }
    simp only [entries, numbered, List.append_assoc, List.cons_append, List.nil_append,
      List.length_cons, Except.ok.injEq, LinkStore.mk.injEq, true_and]
    exact Nat.add_right_comm _ _ _

theorem insertRowsTwice (s : LinkStore) (noteId : Int) {rows : List LinkRow}
    (own : ∀ r ∈ rows, r.parent = noteId) (keys : s.links.keys.Nodup)
    (twice : ¬ (s.links.keys ++ rows.map LinkRow.anchor).Nodup) :
    ∃ anchor, s.insertRows noteId rows = .error (.anchorLinked anchor) := by
  induction rows generalizing s with
  | nil => exact absurd (by simpa using keys) twice
  | cons r rest ih =>
    have mine := own r List.mem_cons_self
    simp only [insertRows, mine, ne_eq, not_true_eq_false, if_false, bind, Except.bind]
    by_cases fresh : r.anchor ∈ s.links.keys
    · refine ⟨r.anchor, ?_⟩
      have refused : s.insert (Link.ofRow r) = .error (.anchorLinked r.anchor) :=
        if_pos (Table.containsIff.mpr fresh)
      rw [refused]
    · rw [insertOk (l := Link.ofRow r) fresh]
      have added : ∀ l, (s.links.put (Link.ofRow r).anchor l).keys = s.links.keys ++ [r.anchor] :=
        fun l => (Table.keys_put _ _ _).trans (if_neg fresh)
      refine ih _ (fun r' member => own r' (List.mem_cons_of_mem r member)) ?_ ?_
      · rw [added]
        refine List.nodup_append.mpr ⟨keys, List.pairwise_singleton _ _, ?_⟩
        intro k old k' new same
        exact fresh (List.mem_singleton.mp new ▸ same ▸ old)
      · rw [added, List.append_assoc]
        exact twice

theorem ofRowsOk {noteId : Int} {rows : List LinkRow} (own : ∀ r ∈ rows, r.parent = noteId)
    (distinct : (rows.map LinkRow.anchor).Nodup) :
    ofRows noteId rows = .ok ⟨some noteId, ⟨numbered 0 rows⟩, rows.length⟩ := by
  have rows' := insertRowsOk { parent := some noteId } noteId own
    (by simpa [Table.keys] using distinct)
  simpa [ofRows] using rows'

end LinkStore

namespace Session

inductive Opened : Session → Prop
  | fresh (title text : Text) (maxHistory : Int) {s : Session}
      (opened : ((fresh title text maxHistory : Run Unit Session) ()).result = .ok s) : Opened s
  | stored {noteId : Int} {title body : Text} {rows : List LinkRow} (maxHistory : Int) {s : Session}
      (rows' : LinkRow.Stored noteId body rows)
      (opened : ((reopen noteId title body rows maxHistory : Run Unit Session) ()).result = .ok s) :
      Opened s

def reopened (noteId : Int) (title body : Text) (rows : List LinkRow) (maxHistory : Int) : Session :=
  let links : LinkStore := ⟨some noteId, ⟨LinkStore.numbered 0 rows⟩, rows.length⟩
  let anchors : AnchorTable := ⟨links.all.map fun l => (l.anchor, l.toAnchor)⟩
  ofBuffer Keymap.standard.state
    { Buffer.ofDocument (Document.ofText body) maxHistory anchors with
      name := "note-".toList ++ Text.ofInt noteId } title links

theorem reopenRows {σ : Type} {noteId : Int} {rows : List LinkRow} (own : ∀ r ∈ rows, r.parent = noteId)
    (distinct : (rows.map LinkRow.anchor).Nodup) (title body : Text) (maxHistory : Int) {t : σ} :
    (reopen noteId title body rows maxHistory).Ends t fun s last =>
      s = reopened noteId title body rows maxHistory ∧ last = t := by
  unfold reopen
  rw [Run.endsBind, Run.endsOfExcept]
  refine ⟨_, LinkStore.ofRowsOk own distinct, ?_⟩
  exact ⟨_, rfl, rfl, rfl⟩

theorem reopenTwice {σ : Type} {noteId : Int} {rows : List LinkRow} (own : ∀ r ∈ rows, r.parent = noteId)
    (twice : ¬ (rows.map LinkRow.anchor).Nodup) (title body : Text) (maxHistory : Int) (t : σ) :
    (reopen noteId title body rows maxHistory).After t fun r last =>
      (∃ anchor, r = .error (.anchorLinked anchor)) ∧ last = t := by
  obtain ⟨anchor, failed⟩ := LinkStore.insertRowsTwice { parent := some noteId } noteId own
    List.nodup_nil (by simpa [Table.keys] using twice)
  unfold reopen
  rw [Run.afterBind]
  simp only [Run.After, Run.ofExcept, LinkStore.ofRows, failed]
  exact ⟨⟨anchor, rfl⟩, trivial⟩

theorem reopenOk {σ : Type} {noteId : Int} {title body : Text} {rows : List LinkRow}
    (stored : LinkRow.Stored noteId body rows) (maxHistory : Int) {t : σ} :
    (reopen noteId title body rows maxHistory).Ends t fun s last =>
      s = reopened noteId title body rows maxHistory ∧ last = t :=
  reopenRows stored.own stored.distinct title body maxHistory

/- The keymap is a variable here, so that nothing has to look into it. -/
theorem openedEditor {registry : Registry Action} (standard : registry = Keymap.standard.state)
    {b : Buffer} (sound : b.Sound) (selection : b.selectionStart = none) :
    Editor.Sound { buffer := b, registry } where
  registry := standard
  buffer := sound
  selects := Editor.selectsNone selection
  unselected _ := selection
  hops hop := nomatch (hop : Command.none = .executeHop)
  inserting insert := nomatch (insert : Mode.normal = .insert)
  visual visual := nomatch (visual : Mode.normal = .visual)

theorem topHolds {d : Document} (sound : d.Sound) : d.Holds {} :=
  ⟨Document.lineCountPos sound, Nat.zero_le _⟩

theorem reopenedAnchors (rows : List LinkRow) :
    ((LinkStore.mk none ⟨LinkStore.numbered 0 rows⟩ 0).all.map fun l => (l.anchor, l.toAnchor)) =
      rows.map fun r => (r.anchor, (Link.ofRow r).toAnchor) := by
  generalize 0 = first
  induction rows generalizing first with
  | nil => rfl
  | cons r rest ih =>
    have others := ih (first + 1)
    simp only [LinkStore.all, Table.values, LinkStore.numbered, List.map_cons] at others ⊢
    rw [others]
    rfl

theorem reopenedSound {noteId : Int} {title body : Text} {rows : List LinkRow}
    (stored : LinkRow.Stored noteId body rows) (maxHistory : Int) :
    (reopened noteId title body rows maxHistory).Sound := by
  have anchors : (reopened noteId title body rows maxHistory).buffer.anchors =
      ⟨rows.map fun r => (r.anchor, (Link.ofRow r).toAnchor)⟩ :=
    congrArg Table.mk (reopenedAnchors rows)
  have found : ∀ r ∈ rows, (reopened noteId title body rows maxHistory).buffer.anchors.get? r.anchor =
      some (Link.ofRow r).toAnchor := by
    intro r member
    rw [anchors]
    refine Table.getOfMem ?_ (List.mem_map.mpr ⟨r, member, rfl⟩)
    simpa [Table.keys, Function.comp_def] using stored.distinct
  have document := Document.soundOfText body
  have buffer : (reopened noteId title body rows maxHistory).buffer.Sound := by
    refine ⟨document, topHolds document, ?_⟩
    rw [anchors]
    intro id a member
    obtain ⟨r, inside, same⟩ := List.mem_map.mp member
    cases same
    exact fun _ => stored.spans r inside
  refine ⟨openedEditor rfl buffer rfl, rfl, ⟨?_, ?_⟩, ?_, fun id pending => by contradiction⟩
  · intro id l member
    obtain ⟨r, -, serial, rfl, rfl⟩ := LinkStore.numberedMem member
    rfl
  · intro id l member
    obtain ⟨r, inside, serial, rfl, rfl⟩ := LinkStore.numberedMem member
    exact ⟨_, found r inside, rfl, fun _ => rfl⟩
  · intro id l member
    obtain ⟨r, inside, serial, rfl, rfl⟩ := LinkStore.numberedMem member
    exact congrArg some (stored.own r inside)

theorem freshSound (title text : Text) (maxHistory : Int) :
    (ofBuffer Keymap.standard.state (Buffer.ofText text maxHistory) title {}).Sound := by
  exact ⟨openedEditor rfl (Buffer.ofTextSound text maxHistory) rfl, rfl,
    ⟨fun id l member => absurd member List.not_mem_nil,
      fun id l member => absurd member List.not_mem_nil⟩,
    fun id l member => absurd member List.not_mem_nil, fun id pending => by contradiction⟩

theorem openedSound {s : Session} (h : Opened s) : s.Sound := by
  cases h with
  | fresh title text maxHistory opened =>
    cases opened
    exact freshSound title text maxHistory
  | stored maxHistory rows' opened =>
    obtain ⟨rfl, -⟩ := Run.endsAt (reopenOk rows' maxHistory) opened
    exact reopenedSound rows' maxHistory

end Session

end ModalNotes
