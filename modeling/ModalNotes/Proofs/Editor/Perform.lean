import ModalNotes.Proofs.Editor.Basic
import ModalNotes.Proofs.Keymap

/-! What a bound action does. It never fails where the standard keymap has it; in visual mode it leaves
the text alone as long as it stays in the mode. -/
namespace ModalNotes.Editor

structure Performed (e later : Editor) (reply : Reply) : Prop where
  turns : e.buffer.Follows later.buffer ∨ e.buffer.Draws later.buffer
  controls : SameControls e later
  armed : ∀ c, reply.command = some c → c ≠ .executeHop ∧ e.mode ≠ .insert ∧
    (e.mode = .visual → c ≠ .delete ∧ c ≠ .yank)
  staying : reply.switchTo = none → later.buffer.selectionStart = e.buffer.selectionStart ∧
    (e.mode = .visual → later.buffer.document = e.buffer.document)
  selecting : reply.switchTo = some .visual → later.buffer.Selects

theorem performEdit {α : Type} {m : Run Editor α} (reply : α → Reply) {e : Editor}
    (sound : e.buffer.Sound) (edits : Along Edited m) (other : e.mode ≠ .visual)
    (quiet : ∀ a, (reply a).command = none) (stays : ∀ a, (reply a).switchTo ≠ some .visual) :
    Run.Ends (do let a ← m; pure (reply a)) e fun r later => Performed e later r := by
  rw [Run.endsBind]
  refine Run.endsMono (edits e sound) ?_
  intro a later edited
  rw [Run.endsPure]
  exact {
    turns := .inl edited.follows
    controls := edited.controls
    armed := fun c armed => by simp [quiet a] at armed
    staying := fun _ => ⟨edited.selection, fun visual => absurd visual other⟩
    selecting := fun visual => absurd visual (stays a) }

theorem selectsMoved {e later : Editor} (moved : Moved e later) (selects : e.buffer.Selects) :
    later.buffer.Selects := by
  intro c start
  rw [moved.steady.document]
  exact selects c (moved.selection ▸ start)

theorem performMove {α : Type} {m : Run Editor α} (reply : α → Reply) {e : Editor}
    (sound : e.buffer.Sound) (selects : e.buffer.Selects) (moves : Along Moved m)
    (quiet : ∀ a, (reply a).command = none) :
    Run.Ends (do let a ← m; pure (reply a)) e fun r later => Performed e later r := by
  rw [Run.endsBind]
  refine Run.endsMono (moves e sound) ?_
  intro a later moved
  rw [Run.endsPure]
  exact {
    turns := .inl (moved.edited sound).follows
    controls := moved.controls
    armed := fun c armed => by simp [quiet a] at armed
    staying := fun _ => ⟨moved.selection, fun _ => moved.steady.document⟩
    selecting := fun _ => selectsMoved moved selects }

theorem performReply {e : Editor} (sound : e.buffer.Sound) (selects : e.buffer.Selects) {reply : Reply}
    (quiet : reply.command = none) :
    (pure reply : Run Editor Reply).Ends e fun r later => Performed e later r := by
  have run := performMove (fun _ => reply) sound selects (alongPure movedProgress ()) fun _ => quiet
  simpa only [Run.endsBind, Run.endsPure] using run

theorem performLeaving {α : Type} {m : Run Buffer α} (reply : α → Reply) {e : Editor}
    (step : m.Ends e.buffer fun _ b => e.buffer.Follows b ∨ e.buffer.Draws b)
    (quiet : ∀ a, (reply a).command = none) (leaves : ∀ a, (reply a).switchTo = some .normal) :
    Run.Ends (do let a ← onBuffer m; pure (reply a)) e fun r later => Performed e later r := by
  rw [Run.endsBind, endsOnBuffer]
  refine Run.endsMono step ?_
  intro a b turns
  rw [Run.endsPure]
  exact {
    turns := turns
    controls := ⟨rfl, rfl, rfl⟩
    armed := fun c armed => by simp [quiet a] at armed
    staying := fun none => by simp [leaves a] at none
    selecting := fun visual => by simp [leaves a] at visual }

theorem selectLineEnds {e : Editor} (sound : e.buffer.Sound) :
    selectLine.Ends e fun _ later => e.buffer.Steady later.buffer ∧ SameControls e later ∧
      later.buffer.Selects := by
  obtain ⟨line, ok, -, -⟩ := Document.lineOk sound.cursor.1
  unfold selectLine
  rw [Run.endsBind, Run.endsGet]
  dsimp only
  rw [Run.endsBind]
  refine Run.endsMono (movesBuffer (Buffer.calmJump _ 0) e sound) ?_
  intro _ f moved
  have sound' := (moved.edited sound).follows.sound
  rw [Run.endsBind, endsOnBuffer]
  refine Run.endsMono (Buffer.startSelectionEnds sound') ?_
  intro _ b post
  obtain ⟨steady, start⟩ := post
  rw [Run.endsBind, Run.endsOfExcept]
  refine ⟨line, ok, ?_⟩
  have marked : b.Selects := by
    intro c same
    rw [start] at same
    cases same
    rw [steady.document]
    exact sound'.cursor
  have sound'' := (steady.follows sound').sound
  refine Run.endsMono (movesBuffer (Buffer.calmJump _ _) { f with buffer := b } sound'') ?_
  intro _ later moved'
  exact ⟨(moved.steady.trans steady).trans moved'.steady,
    moved.controls.trans ⟨moved'.controls.registry, moved'.controls.mode, moved'.controls.command⟩,
    selectsMoved moved' marked⟩

theorem movesSearch {search : Run Buffer Bool} (calm : Buffer.Calm search) :
    Along Moved (do
      let moved ← onBuffer search
      if moved then recordColumn
      pure moved) := by
  refine alongBind movedProgress (movesBuffer calm) fun moved => ?_
  split
  · exact alongBind movedProgress movesRecordColumn fun _ => alongPure movedProgress moved
  · exact alongPure movedProgress moved

theorem performSearch {search : Run Buffer Bool} {e : Editor} (sound : e.buffer.Sound)
    (selects : e.buffer.Selects) (calm : Buffer.Calm search) (message : String) :
    (searchStep search message).Ends e fun r later => Performed e later r := by
  have run := performMove (outcomeOf · message) sound selects (movesSearch calm) fun _ => rfl
  unfold searchStep
  rw [Run.endsBind] at run ⊢
  simp only [Run.endsBind] at run ⊢
  refine Run.endsMono run ?_
  intro moved middle rest
  cases moved with
  | false => simpa only [Bool.false_eq_true, if_false, Run.endsPure] using rest
  | true => simpa only [if_true, Run.endsBind, Run.endsPure] using rest

theorem performEnds {e : Editor} (sound : e.buffer.Sound) (selects : e.buffer.Selects) {action : Action}
    (allowed : e.mode.allows action = true) :
    (perform action).Ends e fun reply later => Performed e later reply := by
  have notVisual : Mode.visual.allows action ≠ true → e.mode ≠ .visual := by
    intro refused visual
    exact refused (visual ▸ allowed)
  have edit {α : Type} {m : Run Buffer α} {reply : α → Reply} (safe : Buffer.Safe m) :=
    performEdit reply sound (editsBuffer safe)
  cases action with
  | nothing => exact performReply sound selects rfl
  | noop => exact performReply sound selects rfl
  | enterInsert => exact performReply sound selects rfl
  | exitToNormal => exact performReply sound selects rfl
  | enterVisual => exact performReply sound selects rfl
  | append => exact performMove _ sound selects (movesTo .forward) fun _ => rfl
  | appendLineEnd => exact performMove _ sound selects (movesTo .lineEnd) fun _ => rfl
  | insertLineHead => exact performMove _ sound selects (movesTo .lineHead) fun _ => rfl
  | lineHead => exact performMove _ sound selects (movesTo .lineHead) fun _ => rfl
  | lineEnd => exact performMove _ sound selects (movesTo .lineEnd) fun _ => rfl
  | move m =>
    unfold perform
    rw [Run.endsBind, Run.endsGet]
    exact performMove _ sound selects (movesBy m _) fun _ => rfl
  | arrow m => exact performMove _ sound selects (movesBy m 1) fun _ => rfl
  | bottom =>
    unfold perform
    rw [Run.endsBind, Run.endsGet]
    have jumps : Along Moved (do
        onBuffer (Buffer.jump e.buffer.document.lastRow 0)
        recordColumn) :=
      alongBind movedProgress (movesBuffer (Buffer.calmJump _ 0)) fun _ => movesRecordColumn
    have run := performMove (fun _ => { message := some Motion.bottom.name }) sound selects jumps
      fun _ => rfl
    simpa only [bind_assoc] using run
  | openBelow =>
    exact edit Buffer.safeOpenLineBelow (notVisual (by decide)) (fun _ => rfl) fun _ => by decide
  | openAbove =>
    exact edit Buffer.safeOpenLineAbove (notVisual (by decide)) (fun _ => rfl) fun _ => by decide
  | paste => exact edit Buffer.safePaste (notVisual (by decide)) (fun _ => rfl) fun _ => by simp [outcomeOf]
  | undo => exact edit Buffer.safeUndo (notVisual (by decide)) (fun _ => rfl) fun _ => by simp [outcomeOf]
  | redo => exact edit Buffer.safeRedo (notVisual (by decide)) (fun _ => rfl) fun _ => by simp [outcomeOf]
  | deleteToLineEnd =>
    exact edit Buffer.safeDeleteToLineEnd (notVisual (by decide)) (fun _ => rfl) fun _ => by
      simp [outcomeOf]
  | changeToLineEnd =>
    exact edit Buffer.safeDeleteToLineEnd (notVisual (by decide)) (fun _ => rfl) fun _ => by decide
  | newline => exact edit Buffer.safeInsertNewline (notVisual (by decide)) (fun _ => rfl) fun _ => by decide
  | backspace => exact edit Buffer.safeDeleteChar (notVisual (by decide)) (fun _ => rfl) fun _ => by decide
  | deleteForward =>
    exact edit Buffer.safeDeleteNextChar (notVisual (by decide)) (fun _ => rfl) fun _ => by decide
  | tab => exact edit Buffer.safeInsertTab (notVisual (by decide)) (fun _ => rfl) fun _ => by decide
  | deleteNextChar =>
    unfold perform
    rw [Run.endsBind, Run.endsGet]
    have step : Along Edited (do let _ ← onBuffer Buffer.deleteNextChar) :=
      alongBind editedProgress (editsBuffer Buffer.safeDeleteNextChar) fun _ =>
        alongPure editedProgress ()
    exact performEdit _ sound (alongRepeated editedProgress _ step) (notVisual (by decide))
      (fun _ => rfl) fun _ => by decide
  | searchNext => exact performSearch sound selects Buffer.calmSearchForward _
  | searchPrevious => exact performSearch sound selects Buffer.calmSearchBack _
  | align alignment =>
    exact performMove _ sound selects (movesBuffer (Buffer.calmAlign alignment)) fun _ => rfl
  | copy =>
    refine performLeaving _ (Run.endsMono (Buffer.copyEnds sound selects) ?_) (fun _ => rfl) fun _ => rfl
    intro _ b post
    obtain ⟨steady, -⟩ := post
    exact .inl (steady.follows sound)
  | cut =>
    refine performLeaving _ (Run.endsMono (Buffer.cutEnds sound selects) ?_) (fun _ => rfl) fun _ => rfl
    intro _ b post
    obtain ⟨follows, -⟩ := post
    exact .inl follows
  | link =>
    have run := performLeaving (fun drawn => drawn.elim { entering .normal "link" with status := .noop }
        fun id => {
          switchTo := some .normal, message := some ("link_anchor:".toList ++ Text.ofInt id) })
      (Run.endsMono (Buffer.anchorSelectionEnds sound selects) fun _ _ h => h.1)
      (fun drawn => by cases drawn <;> rfl) fun drawn => by cases drawn <;> rfl
    unfold perform
    rw [Run.endsBind] at run ⊢
    refine Run.endsMono run ?_
    intro drawn later rest
    cases drawn <;> exact rest
  | enterVisualLine =>
    unfold perform
    rw [Run.endsBind]
    refine Run.endsMono (selectLineEnds sound) ?_
    intro _ later post
    obtain ⟨steady, controls, marked⟩ := post
    rw [Run.endsPure]
    exact {
      turns := .inl (steady.follows sound)
      controls := controls
      armed := fun c armed => by simp [entering] at armed
      staying := fun none => by simp [entering] at none
      selecting := fun _ => marked }
  | arm command opener =>
    unfold perform
    rw [Run.endsBind, Run.endsModify, Run.endsPure]
    exact {
      turns := .inl (Buffer.followsRefl sound)
      controls := ⟨rfl, rfl, rfl⟩
      armed := by
        intro c armed
        cases armed
        revert allowed
        cases e.mode <;> cases command <;> simp [Mode.allows]
      staying := fun _ => ⟨rfl, fun _ => rfl⟩
      selecting := fun visual => by simp at visual }

end ModalNotes.Editor
