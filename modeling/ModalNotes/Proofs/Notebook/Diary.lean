import ModalNotes.Proofs.Notebook.Deed

/-! A diary of what was done behind the back of sessions and notes, which nothing in the program reads. A
session goes astray when its note is saved by another one or deleted, and is astray from the first when the
note it opens is crossed; its links are lost with the notes they lead to. A note is crossed by the save of a
session that is astray, and robbed when rows go of links that its last save took for stored. Whoever is not
astray is abreast of the tables but for its lost links, and a note that is not crossed has its rows in its
text. -/
namespace ModalNotes

namespace Session

def linksTo (s : Session) (id : Int) : List Int :=
  (s.links.all.filter fun l => l.saved && l.linked == id).map Link.anchor

theorem linksToIff {s : Session} (ordered : Ordered s.links.all) {l : Link} (inside : l ∈ s.links.all)
    (id : Int) : LinkStore.isLost (s.linksTo id) l = (l.saved && l.linked == id) := by
  refine Bool.eq_iff_iff.mpr ?_
  rw [LinkStore.isLostIff, linksTo, List.mem_map]
  constructor
  · rintro ⟨m, member, anchor⟩
    obtain ⟨known, marks⟩ := List.mem_filter.mp member
    cases ordered.same known inside anchor
    exact marks
  · exact fun marks => ⟨l, List.mem_filter.mpr ⟨inside, marks⟩, rfl⟩

theorem rowsCut {d later : Database} {s : Session} {id : Int} (deletes : d.Deletes later id)
    (other : s.noteId ≠ some id) : s.rowsIn later = (s.rowsIn d).filter (·.linked != id) := by
  unfold rowsIn
  split
  · rfl
  · rename_i n bound
    exact deletes.rows fun same => other (same ▸ bound)

theorem abreastDeleted {d later : Database} {lost : List Int} {s : Session} {id : Int}
    (abreast : Abreast d lost s) (deletes : d.Deletes later id) (other : s.noteId ≠ some id) :
    Abreast later (lost ++ s.linksTo id) s := by
  have ordered := abreast.tidy.ordered
  have sound := abreast.tidy.sound
  have inStore : ∀ l ∈ (s.links.without lost).all, l ∈ s.links.all := by
    rw [LinkStore.withoutAll]
    exact fun l member => (List.mem_filter.mp member).1
  refine ⟨abreast.tidy, fun n bound => ?_, ?_, fun l inside out => ?_, fun k member => ?_⟩
  · rw [deletes.others fun same => other (same ▸ bound)]
    exact abreast.known n bound
  · have parts : (s.links.without (lost ++ s.linksTo id)).all =
        (s.links.without lost).all.filter fun l => !(l.saved && l.linked == id) := by
      rw [LinkStore.withoutAppend]
      exact List.filter_congr fun l member => congrArg (!·) (linksToIff ordered (inStore l member) id)
    rw [rowsCut deletes other, parts]
    exact abreast.synced.cut (LinkStore.withoutOrdered ordered) id
  · rcases List.mem_append.mp (LinkStore.isLostIff.mp out) with old | new
    · exact abreast.saved l inside (LinkStore.isLostIff.mpr old)
    · have marks := linksToIff ordered inside id
      rw [LinkStore.isLostIff.mpr new] at marks
      simp only [eq_comm (a := true), Bool.and_eq_true] at marks
      exact marks.1
  · rcases List.mem_append.mp member with old | new
    · exact abreast.taken k old
    · obtain ⟨l, listed, rfl⟩ := List.mem_map.mp new
      have linked : l.anchor ∈ s.links.links.keys :=
        keysOf sound ▸ List.mem_map_of_mem (List.mem_filter.mp listed).1
      exact ⟨LinkStore.mirrorsKeys sound.mirrors linked, linkedNotWaiting sound linked⟩

end Session

namespace Workspace

structure Diary where
  astray : Nat → Bool := fun _ => false
  lost : Nat → List Int := fun _ => []
  crossed : Int → Bool := fun _ => false
  robbed : Int → Bool := fun _ => false

namespace Diary

def note (y : Diary) (w : Workspace) : Happening → Diary
  | .nothing => y
  | .opened desk note => { y with
      astray := Function.update y.astray desk (note.any y.crossed)
      lost := Function.update y.lost desk [] }
  | .saved desk id => { y with
      astray := fun other => y.astray other ||
        (other != desk && (w.sessions other).any (·.noteId == some id))
      crossed := Function.update y.crossed id (y.astray desk)
      robbed := Function.update y.robbed id
        ((w.sessions desk).any fun s => s.links.live.any (LinkStore.isLost (y.lost desk))) }
  | .deleted id => {
      astray := fun desk => y.astray desk || (w.sessions desk).any (·.noteId == some id)
      lost := fun desk => y.lost desk ++ (w.sessions desk).elim [] (·.linksTo id)
      crossed := Function.update y.crossed id false
      robbed := Function.update (fun other => y.robbed other ||
        (w.storage.committed.rowsIn other).any (·.linked == id)) id false }

def along (y : Diary) (w : Workspace) : List Deed → Diary
  | [] => y
  | deed :: rest => (y.note w (w.happens deed)).along (w.advance deed) rest

theorem alongAppend (y : Diary) (w : Workspace) (before behind : List Deed) :
    y.along w (before ++ behind) = (y.along w before).along (w.through before) behind := by
  induction before generalizing y w with
  | nil => rfl
  | cons deed rest ih => exact ih (y.note w (w.happens deed)) (w.advance deed)

end Diary

structure Watched (w : Workspace) (y : Diary) : Prop where
  based : w.Based
  abreast : ∀ desk s, w.sessions desk = some s → y.astray desk = false →
    s.Abreast w.storage.committed (y.lost desk)
  stored : ∀ id n, w.storage.committed.noteOf id = some n → y.crossed id = false →
    LinkRow.Stored id n.body (w.storage.committed.rowsIn id)

section
variable {w : Workspace} {y : Diary}

theorem watchedSeat {y' : Diary} {storage : Storage} {desk : Nat} {s : Session}
    (mine : y'.astray desk = false → s.Abreast storage.committed (y'.lost desk))
    (others : ∀ other t, other ≠ desk → w.sessions other = some t → y'.astray other = false →
      t.Abreast storage.committed (y'.lost other)) :
    ∀ other t, ({ w with storage }.seat desk s).sessions other = some t → y'.astray other = false →
      t.Abreast storage.committed (y'.lost other) := by
  intro other t there abreast
  rcases seatCases there with ⟨rfl, rfl⟩ | ⟨differs, was⟩
  · exact mine abreast
  · exact others other t differs was abreast

theorem watchedOpened (watched : w.Watched y) {storage : Storage}
    (same : storage.committed = w.storage.committed) {desk : Nat} {s : Session} {note : Option Int}
    (based : ({ w with storage }.seat desk s).Based)
    (held : note.any y.crossed = false → s.Held w.storage.committed) :
    ({ w with storage }.seat desk s).Watched (y.note w (.opened desk note)) where
  based := based
  abreast := by
    refine watchedSeat (fun abreast => ?_) fun other t differs was abreast => ?_
    · simp only [Diary.note, Function.update_self] at abreast ⊢
      exact same ▸ Session.heldIff.mp (held abreast)
    · simp only [Diary.note, Function.update_of_ne differs] at abreast ⊢
      exact same ▸ watched.abreast other t was abreast
  stored id n found straight := by
    have tables : ({ w with storage }.seat desk s).storage.committed = w.storage.committed := same
    rw [tables] at found ⊢
    exact watched.stored id n found straight

theorem watchedWent (watched : w.Watched y) {desk : Nat} {s t : Session} {storage : Storage}
    (here : w.sessions desk = some s) (based : ({ w with storage }.seat desk t).Based)
    (served : s.Sound → s.Served t) (created : w.storage.Created storage) :
    ({ w with storage }.seat desk t).Watched y where
  based := based
  abreast := by
    have later : ∀ {lost : List Int} {u : Session}, u.Abreast w.storage.committed lost →
        u.Abreast storage.committed lost := by
      intro lost u abreast
      refine Session.abreastTables abreast (fun id _ => Storage.createdRows created id) fun id bound => ?_
      have known := abreast.known id bound
      rw [Storage.createdNote created known]
      exact known
    refine watchedSeat (fun abreast => later ?_) fun other u _ was abreast => ?_
    · have before := watched.abreast desk s here abreast
      exact Session.abreastServed before (served before.tidy.sound)
    · exact later (watched.abreast other u was abreast)
  stored id n found straight := by
    change storage.committed.noteOf id = some n at found
    change LinkRow.Stored id n.body (storage.committed.rowsIn id)
    rw [Storage.createdRows created]
    cases was : w.storage.committed.noteOf id with
    | none =>
      rw [Database.noRows watched.based.tables was]
      exact LinkRow.storedNone id n.body
    | some m =>
      have known : (w.storage.committed.noteOf id).isSome = true := congrArg Option.isSome was
      have same := Storage.createdNote created known
      rw [was] at same
      cases same.symm.trans found
      exact watched.stored id n was straight

theorem watchedSaved (watched : w.Watched y) {desk : Nat} {s : Session} {id : Int} {storage : Storage}
    (here : w.sessions desk = some s)
    (based : ({ w with storage }.seat desk (Notebook.savedSession s id)).Based)
    (saves : w.storage.committed.Saves storage.committed s.links.parent
      ⟨id, Text.strip s.title, s.text, !s.links.live.isEmpty⟩ s.links.classify) :
    ({ w with storage }.seat desk (Notebook.savedSession s id)).Watched (y.note w (.saved desk id)) where
  based := based
  abreast := by
    refine watchedSeat (fun abreast => ?_) fun other t differs was abreast => ?_
    · simp only [Diary.note, bne_self_eq_false, Bool.false_and, Bool.or_false] at abreast ⊢
      exact Session.abreastSaved watched.based.tables (watched.abreast desk s here abreast) saves
    · simp only [Diary.note, was, Option.any_some, Bool.or_eq_false_iff, Bool.and_eq_false_imp,
        bne_iff_ne, ne_eq, differs, not_false_eq_true, forall_const, beq_eq_false_iff_ne] at abreast ⊢
      obtain ⟨abreast, unlike⟩ := abreast
      have before := watched.abreast other t was abreast
      have apart : ∀ k, t.noteId = some k → k ≠ id := fun k bound same => unlike (same ▸ bound)
      refine Session.abreastTables before (fun k bound => saves.rowsOthers (apart k bound)) fun k bound => ?_
      rw [saves.writes.others k (apart k bound)]
      exact before.known k bound
  stored k n found straight := by
    change storage.committed.noteOf k = some n at found
    change LinkRow.Stored k n.body (storage.committed.rowsIn k)
    by_cases mine : k = id
    · cases mine
      simp only [Diary.note, Function.update_self] at straight
      cases saves.writes.found.symm.trans found
      exact Session.storedSaved watched.based.tables (watched.abreast desk s here straight) saves
    · simp only [Diary.note, Function.update_of_ne mine] at straight
      rw [saves.rowsOthers mine]
      exact watched.stored k n ((saves.writes.others k mine).symm.trans found) straight

theorem watchedDeleted (watched : w.Watched y) {id : Int} {storage : Storage}
    (based : ({ w with storage } : Workspace).Based)
    (deletes : w.storage.committed.Deletes storage.committed id) :
    ({ w with storage } : Workspace).Watched (y.note w (.deleted id)) where
  based := based
  abreast desk s here abreast := by
    change w.sessions desk = some s at here
    simp only [Diary.note, here, Option.any_some, Bool.or_eq_false_iff, beq_eq_false_iff_ne, ne_eq,
      Option.elim_some] at abreast ⊢
    exact Session.abreastDeleted (watched.abreast desk s here abreast.1) deletes abreast.2
  stored k n found straight := by
    change storage.committed.noteOf k = some n at found
    change LinkRow.Stored k n.body (storage.committed.rowsIn k)
    have other : k ≠ id := by
      rintro rfl
      rw [deletes.gone] at found
      contradiction
    simp only [Diary.note, Function.update_of_ne other] at straight
    rw [deletes.others other] at found
    have stored := watched.stored k n found straight
    have less := deletes.rowsLess k
    exact ⟨fun r member => stored.own r (less.subset member),
      stored.distinct.sublist (less.map LinkRow.anchor),
      fun r member => stored.spans r (less.subset member)⟩

theorem watchedTurn {later : Workspace} {h : Happening} (watched : w.Watched y) (turn : w.Turn h later) :
    later.Watched (y.note w h) := by
  have based := basedTurn watched.based turn
  cases turn with
  | still same =>
    exact ⟨based, fun desk s here abreast => same ▸ watched.abreast desk s here abreast,
      fun id n found straight => by
        dsimp only at found ⊢
        rw [same] at found ⊢
        exact watched.stored id n found straight⟩
  | created desk title text maxHistory =>
    exact watchedOpened watched rfl based fun _ => Session.heldFresh _ title text maxHistory
  | @loaded desk id note maxHistory storage same found narrow =>
    refine watchedOpened watched same based fun straight => ?_
    exact Session.heldReopened found (watched.stored id note found straight) maxHistory
  | went here note owned served created => exact watchedWent watched here based served created
  | saved here saves => exact watchedSaved watched here based saves
  | deleted deletes => exact watchedDeleted watched based deletes

theorem watchedOfStorage {storage : Storage} (tables : storage.committed.Sound) :
    (ofStorage storage).Watched {} :=
  ⟨basedOfStorage tables.rooted, fun _ _ none => by contradiction,
    fun id n found _ => tables.stored id n found⟩

/- The induction goes over workspace and diary together. -/
theorem watchedThrough (watched : w.Watched y) (deeds : List Deed) :
    (w.through deeds).Watched (y.along w deeds) := by
  induction deeds generalizing w y with
  | nil => exact watched
  | cons deed rest ih => exact ih (watchedTurn watched (turns watched.based deed))

end

/- No session comes to a note that another one has, and no note is deleted while it is open. -/
def Happening.Apart (w : Workspace) : Happening → Prop
  | .opened desk (some id) =>
    ∀ other t, other ≠ desk → w.sessions other = some t → t.noteId ≠ some id
  | .deleted id => ∀ desk s, w.sessions desk = some s → s.noteId ≠ some id
  | .opened _ none | .saved _ _ | .nothing => True

def KeptApart (w : Workspace) : List Deed → Prop
  | [] => True
  | deed :: rest => (w.happens deed).Apart w ∧ KeptApart (w.advance deed) rest

structure Straight (w : Workspace) (y : Diary) : Prop where
  sole : w.Sole
  astray : ∀ desk, y.astray desk = false
  crossed : ∀ id, y.crossed id = false

section
variable {w : Workspace} {y : Diary}

theorem savedApart (watched : w.Watched y) (straight : w.Straight y) {desk other : Nat} {s t : Session}
    {db : Database} {note : NoteRow} {diff : LinkDiff} (here : w.sessions desk = some s)
    (saves : w.storage.committed.Saves db s.noteId note diff) (differs : other ≠ desk)
    (there : w.sessions other = some t) : t.noteId ≠ some note.id := by
  intro bound
  cases mine : s.noteId with
  | none =>
    have known := (watched.abreast other t there (straight.astray other)).known note.id bound
    rw [(saves.above mine).free] at known
    contradiction
  | some id =>
    cases saves.same id mine
    exact differs (straight.sole other desk t s note.id there here bound mine)

theorem straightTurn {later : Workspace} {h : Happening} (straight : w.Straight y) (watched : w.Watched y)
    (turn : w.Turn h later) (apart : h.Apart w) : later.Straight (y.note w h) := by
  obtain ⟨sole, astray, crossed⟩ := straight
  cases turn with
  | still same => exact ⟨sole, astray, crossed⟩
  | created desk title text maxHistory =>
    refine ⟨soleSeat sole fun _ _ _ _ _ none => by contradiction, fun other => ?_, crossed⟩
    by_cases mine : other = desk <;> simp [Diary.note, mine, astray]
  | loaded desk maxHistory same found narrow =>
    refine ⟨soleSeat sole fun other t differs there id bound => ?_, fun other => ?_, crossed⟩
    · cases bound
      exact apart other t differs there
    · by_cases mine : other = desk <;> simp [Diary.note, mine, astray, crossed]
  | @went desk s t storage here note owned served created =>
    refine ⟨soleSeat sole fun other u differs there id bound mine => ?_, astray, crossed⟩
    exact differs (sole other desk u s id there here mine (note.symm.trans bound))
  | @saved desk s n storage here saves =>
    have others : ∀ other t, other ≠ desk → w.sessions other = some t → t.noteId ≠ some n :=
      fun other t => savedApart watched ⟨sole, astray, crossed⟩ here saves
    refine ⟨soleSeat sole fun other t differs there id bound => ?_, fun other => ?_, fun id => ?_⟩
    · cases (Session.noteSaved saves).symm.trans bound
      exact others other t differs there
    · by_cases mine : other = desk
      · simp [Diary.note, mine, astray]
      · cases there : w.sessions other with
        | none => simp [Diary.note, there, astray]
        | some t =>
          have unlike := others other t mine there
          simp [Diary.note, there, astray, unlike]
    · by_cases mine : id = n <;> simp [Diary.note, mine, astray, crossed]
  | @deleted n storage deletes =>
    refine ⟨sole, fun desk => ?_, fun id => ?_⟩
    · cases here : w.sessions desk with
      | none => simp [Diary.note, here, astray]
      | some s =>
        have unlike := apart desk s here
        simp [Diary.note, here, astray, unlike]
    · by_cases mine : id = n <;> simp [Diary.note, mine, crossed]

theorem straightThrough (straight : w.Straight y) (watched : w.Watched y) {deeds : List Deed}
    (apart : w.KeptApart deeds) : (w.through deeds).Straight (y.along w deeds) := by
  induction deeds generalizing w y with
  | nil => exact straight
  | cons deed rest ih =>
    have turn := turns watched.based deed
    exact ih (straightTurn straight watched turn apart.1) (watchedTurn watched turn) apart.2

end

theorem straightOfStorage (storage : Storage) : (ofStorage storage).Straight {} :=
  ⟨fun _ _ _ _ _ none => by contradiction, fun _ => rfl, fun _ => rfl⟩

end Workspace

end ModalNotes
