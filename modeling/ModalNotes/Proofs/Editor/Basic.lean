import ModalNotes.Editor.Perform
import ModalNotes.Proofs.Buffer.Select

/-! Steps of an editor that leave its mode, its command and its keymap alone: those that change the text,
and those that only move the cursor. Both can be repeated and put one behind the other. -/
namespace ModalNotes.Editor

structure SameControls (e later : Editor) : Prop where
  registry : later.registry = e.registry
  mode : later.mode = e.mode
  command : later.command = e.command

structure Edited (e later : Editor) : Prop where
  follows : e.buffer.Follows later.buffer
  selection : later.buffer.selectionStart = e.buffer.selectionStart
  controls : SameControls e later

structure Moved (e later : Editor) : Prop where
  steady : e.buffer.Steady later.buffer
  selection : later.buffer.selectionStart = e.buffer.selectionStart
  hops : later.buffer.hopMatches = e.buffer.hopMatches
  controls : SameControls e later

theorem sameControlsRefl (e : Editor) : SameControls e e := ⟨rfl, rfl, rfl⟩

theorem SameControls.trans {e f g : Editor} (first : SameControls e f) (second : SameControls f g) :
    SameControls e g :=
  ⟨second.registry.trans first.registry, second.mode.trans first.mode,
    second.command.trans first.command⟩

theorem Moved.edited {e later : Editor} (moved : Moved e later) (sound : e.buffer.Sound) :
    Edited e later := ⟨moved.steady.follows sound, moved.selection, moved.controls⟩

structure Progress (R : Editor → Editor → Prop) : Prop where
  refl : ∀ e, e.buffer.Sound → R e e
  trans : ∀ e f g, R e f → R f g → R e g
  sound : ∀ e f, e.buffer.Sound → R e f → f.buffer.Sound

theorem editedProgress : Progress Edited where
  refl e sound := ⟨Buffer.followsRefl sound, rfl, sameControlsRefl e⟩
  trans _ _ _ first second := ⟨first.follows.trans second.follows,
    second.selection.trans first.selection, first.controls.trans second.controls⟩
  sound _ _ _ edited := edited.follows.sound

theorem movedProgress : Progress Moved where
  refl e sound := ⟨Buffer.steadyRefl sound, rfl, rfl, sameControlsRefl e⟩
  trans _ _ _ first second := ⟨first.steady.trans second.steady,
    second.selection.trans first.selection, second.hops.trans first.hops,
    first.controls.trans second.controls⟩
  sound _ _ sound moved := (moved.steady.follows sound).sound

def Along {α : Type} (R : Editor → Editor → Prop) (m : Run Editor α) : Prop :=
  ∀ e, e.buffer.Sound → m.Ends e fun _ later => R e later

section
variable {R : Editor → Editor → Prop} {α β : Type}

theorem alongPure (progress : Progress R) (a : α) : Along R (pure a : Run Editor α) :=
  fun e sound => Run.endsPure.mpr (progress.refl e sound)

theorem alongLog (progress : Progress R) (entry : Entry) : Along R (Run.log entry) :=
  fun e sound => Run.endsLog.mpr (progress.refl e sound)

theorem alongBind (progress : Progress R) {m : Run Editor α} {f : α → Run Editor β}
    (first : Along R m) (rest : ∀ a, Along R (f a)) : Along R (m >>= f) := by
  intro e sound
  rw [Run.endsBind]
  refine Run.endsMono (first e sound) ?_
  intro a middle step
  refine Run.endsMono (rest a middle (progress.sound e middle sound step)) ?_
  intro b later step'
  exact progress.trans e middle later step step'

theorem alongRepeated (progress : Progress R) (count : Int) {m : Run Editor Unit} (step : Along R m) :
    Along R (repeated count m) := by
  have steps : Along R (Run.times count.toNat m) := by
    intro e sound
    refine Run.endsTimes (I := fun later => R e later) ?_ count.toNat (progress.refl e sound)
    intro middle reached
    refine Run.endsMono (step middle (progress.sound e middle sound reached)) ?_
    intro _ later next
    exact progress.trans e middle later reached next
  unfold repeated
  refine alongBind progress steps fun _ => ?_
  split
  · exact alongBind progress (alongLog progress _) fun _ => alongPure progress count
  · exact alongPure progress count

end

theorem endsOnBuffer {α : Type} {m : Run Buffer α} {e : Editor} {Q : α → Editor → Prop} :
    (onBuffer m).Ends e Q ↔ m.Ends e.buffer fun a buffer => Q a { e with buffer } := Iff.rfl

theorem editsBuffer {α : Type} {m : Run Buffer α} (safe : Buffer.Safe m) : Along Edited (onBuffer m) := by
  intro e sound
  rw [endsOnBuffer]
  refine Run.endsMono (safe e.buffer sound) ?_
  intro a b post
  obtain ⟨follows, selection⟩ := post
  exact ⟨follows, selection, rfl, rfl, rfl⟩

theorem movesBuffer {α : Type} {m : Run Buffer α} (calm : Buffer.Calm m) :
    Along Moved (onBuffer m) := by
  intro e sound
  rw [endsOnBuffer]
  refine Run.endsMono (calm e.buffer sound) ?_
  intro a b post
  obtain ⟨steady, selection, hops⟩ := post
  exact ⟨steady, selection, hops, rfl, rfl, rfl⟩

theorem movesRecordColumn : Along Moved recordColumn :=
  fun _ sound => Run.endsModify.mpr ⟨Buffer.steadyRefl sound, rfl, rfl, rfl, rfl, rfl⟩

theorem movesRestoreColumn : Along Moved restoreColumn := by
  intro e sound
  unfold restoreColumn
  rw [Run.endsBind, Run.endsGet]
  exact movesBuffer (Buffer.calmJump _ _) e sound

theorem movesOnce (m : Motion) : Along Moved (moveOnce m) :=
  alongBind movedProgress (movesBuffer (Buffer.calmMove m)) fun _ => alongPure movedProgress ()

theorem movesBy (m : Motion) (count : Int) : Along Moved (move m count) := by
  have steps := alongRepeated movedProgress count (movesOnce m)
  intro e sound
  unfold move
  split
  · rw [Run.endsBind, Run.endsGet]
    have restored : Along Moved (do
        let count ← repeated count (moveOnce m)
        restoreColumn
        pure count) :=
      alongBind movedProgress steps fun count =>
        alongBind movedProgress movesRestoreColumn fun _ => alongPure movedProgress count
    dsimp only
    split
    · exact alongBind movedProgress movesRecordColumn (fun _ => restored) e sound
    · exact restored e sound
  · exact alongBind movedProgress steps (fun count =>
      alongBind movedProgress movesRecordColumn fun _ => alongPure movedProgress count) e sound

theorem movesTo (m : Motion) : Along Moved (moveTo m) :=
  alongBind movedProgress (movesOnce m) fun _ => movesRecordColumn

end ModalNotes.Editor
