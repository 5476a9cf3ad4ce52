import ModalNotes.Buffer.Find
import ModalNotes.Proofs.Buffer.Basic
import ModalNotes.Proofs.Motion

/-! Motions, searches and hops lead to positions of the document and leave the text as it is. -/
namespace ModalNotes.Buffer

def Calm {α : Type} (m : Run Buffer α) : Prop :=
  ∀ b, b.Sound → m.Ends b fun _ later => Steady b later ∧
    later.selectionStart = b.selectionStart ∧ later.hopMatches = b.hopMatches

theorem calmPure {α : Type} (a : α) : Calm (pure a : Run Buffer α) :=
  fun _ sound => Run.endsPure.mpr ⟨steadyRefl sound, rfl, rfl⟩

theorem steadyCursor {b : Buffer} {c : Cursor} (h : b.document.Holds c) :
    Steady b { b with cursor := c } := ⟨rfl, h, rfl, rfl⟩

theorem calmJump (row col : Int) : Calm (jump row col) := by
  intro b sound
  exact Run.endsModify.mpr ⟨steadyCursor (Document.clampHolds sound.document row col), rfl, rfl⟩

theorem calmMove (m : Motion) : Calm (move m) := by
  intro b sound
  obtain ⟨target, ok, holds⟩ := m.targetHolds sound.document sound.cursor
  unfold move
  simp only [Run.endsBind, Run.endsGet, Run.endsOfExcept, Run.endsPut, Run.endsPure]
  exact ⟨target, ok, steadyCursor holds, trivial, trivial⟩

theorem calmSetSearchPattern (pattern : Option Text) : Calm (setSearchPattern pattern) :=
  fun _ sound => Run.endsModify.mpr ⟨⟨rfl, sound.cursor, rfl, rfl⟩, rfl, rfl⟩

theorem calmClearSearch : Calm clearSearch :=
  fun _ sound => Run.endsModify.mpr ⟨⟨rfl, sound.cursor, rfl, rfl⟩, rfl, rfl⟩

theorem calmSearchWith (choose : Text → Text → Nat → Option Nat) : Calm (searchWith choose) := by
  intro b sound
  unfold searchWith
  rw [Run.endsBind, Run.endsGet]
  split
  · exact calmPure false b sound
  · rw [Run.endsBind, Run.endsOfExcept]
    refine ⟨_, offsetCursor sound, ?_⟩
    split
    · exact calmPure false b sound
    · rw [Run.endsBind, Run.endsPut, Run.endsPure]
      exact ⟨steadyCursor (Document.locateHolds sound.document _), rfl, rfl⟩

theorem calmSearchForward : Calm searchForward := calmSearchWith _

theorem calmSearchBack : Calm searchBack := calmSearchWith _

theorem calmAlign (alignment : Alignment) : Calm (Run.modify fun b => { b with alignment }) :=
  fun _ sound => Run.endsModify.mpr ⟨⟨rfl, sound.cursor, rfl, rfl⟩, rfl, rfl⟩

theorem matchesHold {d : Document} (key : Text) : ∀ c ∈ matchesOf d.lines key, d.Holds c := by
  intro c member
  obtain ⟨⟨line, row⟩, numbered, occurs⟩ := List.mem_flatMap.mp member
  obtain ⟨col, found, rfl⟩ := List.mem_map.mp occurs
  have place := List.mem_zipIdx_iff_getElem?.mp numbered
  simp only at place
  have inside : row < d.lineCount := (List.getElem?_eq_some_iff.mp place).1
  obtain ⟨line', found', -, size⟩ := Document.someLine inside
  cases found'.symm.trans place
  have short := (Text.mem_occurrences.mp found).1
  exact ⟨inside, by simpa only [size] using short⟩

def Hops (b : Buffer) : Prop := ∀ c ∈ b.hopMatches, b.document.Holds c

theorem setHopPatternEnds {b : Buffer} (sound : b.Sound) (key : Text) :
    (setHopPattern key).Ends b fun _ later => Steady b later ∧
      later.selectionStart = b.selectionStart ∧ Hops later := by
  unfold setHopPattern
  simp only [Run.endsBind, Run.endsGet, Run.endsPut, Run.endsLog, Run.endsPure]
  exact ⟨⟨rfl, sound.cursor, rfl, rfl⟩, trivial, matchesHold key⟩

theorem hopToEnds {b : Buffer} (sound : b.Sound) (hops : Hops b) (index : Int) :
    (hopTo index).Ends b fun _ later => Steady b later ∧
      later.selectionStart = b.selectionStart := by
  unfold hopTo
  rw [Run.endsBind, Run.endsGet]
  split
  · exact Run.endsPure.mpr ⟨steadyRefl sound, rfl⟩
  · rename_i c chosen
    rw [Run.endsBind, Run.endsPut, Run.endsPure]
    refine ⟨?_, rfl⟩
    split at chosen
    · contradiction
    · exact steadyCursor (hops c (List.mem_of_getElem? chosen))

theorem clearHopEnds {b : Buffer} (sound : b.Sound) :
    clearHop.Ends b fun _ later => Steady b later ∧ later.selectionStart = b.selectionStart ∧
      later.hopKey = none ∧ later.hopMatches = [] :=
  Run.endsModify.mpr ⟨⟨rfl, sound.cursor, rfl, rfl⟩, rfl, rfl, rfl⟩

end ModalNotes.Buffer
