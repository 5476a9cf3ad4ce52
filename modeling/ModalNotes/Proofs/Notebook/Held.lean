import ModalNotes.Proofs.Notebook.Abreast

/-! Sessions against tables from which nothing was taken behind their backs: no link is lost, so every saved
link has its row. -/
namespace ModalNotes.Session

structure Held (d : Database) (s : Session) : Prop where
  sound : s.Sound
  ordered : Ordered s.links.all
  below : ∀ l ∈ s.links.all, l.serial < s.links.nextSerial
  known : ∀ id, s.noteId = some id → (d.noteOf id).isSome = true
  synced : Synced (s.rowsIn d) s.links.all

theorem Held.tidy {d : Database} {s : Session} (held : Held d s) : s.Tidy :=
  ⟨held.sound, held.ordered, held.below⟩

theorem heldIff {d : Database} {s : Session} : Held d s ↔ Abreast d [] s := by
  constructor
  · intro held
    refine ⟨held.tidy, held.known, ?_, fun _ _ out => by contradiction,
      fun _ member => absurd member List.not_mem_nil⟩
    rw [LinkStore.withoutNone]
    exact held.synced
  · intro abreast
    have synced := abreast.synced
    rw [LinkStore.withoutNone] at synced
    exact ⟨abreast.tidy.sound, abreast.tidy.ordered, abreast.tidy.below, abreast.known, synced⟩

theorem heldTables {d d' : Database} {s : Session} (held : Held d s)
    (rows : ∀ id, s.noteId = some id → d'.rowsIn id = d.rowsIn id)
    (notes : ∀ id, s.noteId = some id → (d'.noteOf id).isSome = true) : Held d' s :=
  heldIff.mpr (abreastTables (heldIff.mp held) rows notes)

theorem heldServed {d : Database} {s later : Session} (held : Held d s) (served : Served s later) :
    Held d later :=
  heldIff.mpr (abreastServed (heldIff.mp held) served)

theorem heldFresh (d : Database) (title text : Text) (maxHistory : Int) :
    Held d (ofBuffer Keymap.standard.state (Buffer.ofText text maxHistory) title {}) where
  sound := freshSound title text maxHistory
  ordered := ⟨.nil, .nil⟩
  below _ member := absurd member List.not_mem_nil
  known _ none := by contradiction
  synced := ⟨.nil, fun _ member => absurd member List.not_mem_nil,
    fun _ member => absurd member List.not_mem_nil⟩

section
variable {d later : Database} {s : Session} {id : Int} {title : Text} {hasLinks : Bool}

theorem syncedSaved (sound : d.Sound) (held : Held d s)
    (saves : d.Saves later s.links.parent ⟨id, title, s.text, hasLinks⟩ s.links.classify) :
    Synced (d.rowsIn id) s.links.all := by
  have synced := syncedBefore sound.rooted (heldIff.mp held) saves
  rw [LinkStore.withoutNone] at synced
  exact synced

theorem heldSaved (sound : d.Sound) (held : Held d s)
    (saves : d.Saves later s.links.parent ⟨id, title, s.text, hasLinks⟩ s.links.classify) :
    Held later (Notebook.savedSession s id) :=
  heldIff.mpr (abreastSaved sound.rooted (heldIff.mp held) saves)

theorem soundSaved (sound : d.Sound) (held : Held d s)
    (saves : d.Saves later s.links.parent ⟨id, title, s.text, hasLinks⟩ s.links.classify) :
    later.Sound where
  notes := saves.writes.notes
  links := (saves.rooted sound.rooted).links
  parents := (saves.rooted sound.rooted).parents
  stored k n found := by
    by_cases mine : k = id
    · cases mine
      cases saves.writes.found.symm.trans found
      exact storedSaved sound.rooted (heldIff.mp held) saves
    · rw [saves.rowsOthers mine]
      exact sound.stored k n ((saves.writes.others k mine).symm.trans found)

end

end ModalNotes.Session
