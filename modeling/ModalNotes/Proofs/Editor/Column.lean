import ModalNotes.Proofs.Buffer.Told
import ModalNotes.Proofs.Editor.Count
import ModalNotes.Proofs.Editor.Modal

/-! The remembered column is the cursor's, seen through the lengths of the lines. A key that moves the cursor or
changes the text leaves it so; the one that selects a whole line moves the cursor and forgets the column. -/
namespace ModalNotes.Editor

/- The cursor is in the remembered column, or at the end of a line that is too short for it. -/
def Aligned (e : Editor) : Prop :=
  ∀ col, e.column = some col → e.buffer.cursor.col = min col (e.buffer.document.width e.buffer.cursor.row)

def place (e : Editor) : Document × Cursor × Option Nat := (e.buffer.document, e.buffer.cursor, e.column)

theorem alignedPlace {e later : Editor} (same : later.place = e.place) (aligned : e.Aligned) :
    later.Aligned := by
  simp only [place, Prod.mk.injEq] at same
  obtain ⟨document, cursor, column⟩ := same
  intro col remembered
  rw [document, cursor]
  exact aligned col (column ▸ remembered)

theorem alignedRecorded {e : Editor} (holds : e.buffer.document.Holds e.buffer.cursor)
    (column : e.column = some e.buffer.cursor.col) : e.Aligned := by
  intro col remembered
  cases column.symm.trans remembered
  exact (Nat.min_eq_left holds.2).symm

structure Columned (e later : Editor) : Prop where
  sound : later.buffer.Sound
  version : e.buffer.version ≤ later.buffer.version
  kept : later.buffer.version = e.buffer.version → later.place = e.place ∨ later.Aligned

theorem columnedStill {e later : Editor} (sound : later.buffer.Sound) (same : later.place = e.place) :
    Columned e later := by
  have version : later.buffer.version = e.buffer.version :=
    congrArg Document.version (congrArg Prod.fst same)
  exact ⟨sound, Nat.le_of_eq version.symm, fun _ => .inl same⟩

theorem columnedGrown {e later : Editor} (sound : later.buffer.Sound)
    (grown : e.buffer.version < later.buffer.version) : Columned e later :=
  ⟨sound, Nat.le_of_lt grown, fun same => absurd same (Nat.ne_of_gt grown)⟩

theorem columnedSteady {e later : Editor} (sound : e.buffer.Sound) (steady : e.buffer.Steady later.buffer)
    (aligned : later.Aligned) : Columned e later :=
  ⟨(steady.follows sound).sound, (steady.follows sound).version, fun _ => .inr aligned⟩

theorem columnedProgress : Progress Columned where
  refl e sound := columnedStill sound rfl
  trans e f g first second := by
    refine ⟨second.sound, Nat.le_trans first.version second.version, fun same => ?_⟩
    have low := first.version
    have high := second.version
    have middle : f.buffer.version = e.buffer.version := by omega
    rcases second.kept (same.trans middle.symm) with place | aligned
    · rcases first.kept middle with place' | aligned'
      · exact .inl (place.trans place')
      · exact .inr (alignedPlace place aligned')
    · exact .inr aligned
  sound _ _ _ columned := columned.sound

section
variable {α : Type}

theorem columnedEdit {m : Run Buffer α} (safe : Buffer.Safe m) (told : Buffer.Told m) :
    Along Columned (onBuffer m) := by
  intro e sound
  rw [endsOnBuffer]
  refine Run.endsMono (Run.endsBoth (safe e.buffer sound) (told e.buffer sound)) ?_
  rintro a b ⟨⟨follows, -⟩, rfl | grown⟩
  · exact columnedStill follows.sound rfl
  · exact columnedGrown follows.sound grown

theorem columnedRecords {m : Run Editor α} (moves : Along Moved m) :
    Along Columned (do let _ ← m; recordColumn) := by
  intro e sound
  rw [Run.endsBind]
  refine Run.endsMono (moves e sound) fun _ later moved => ?_
  rw [recordColumn, Run.endsModify]
  have sound' := (moved.edited sound).follows.sound
  exact columnedSteady sound moved.steady (alignedRecorded sound'.cursor rfl)

theorem columnedAside {f : Editor → Editor}
    (same : ∀ e, (f e).buffer = e.buffer ∧ (f e).column = e.column) : Along Columned (Run.modify f) := by
  intro e sound
  obtain ⟨buffer, column⟩ := same e
  rw [Run.endsModify]
  refine columnedStill (buffer ▸ sound) ?_
  simp only [place, buffer, column]

end

theorem movedAligned {e : Editor} (m : Motion) (sound : e.buffer.Sound) (n : Nat) : (moved m n e).Aligned := by
  unfold moved
  dsimp only
  split
  · intro col remembered
    cases remembered
    rfl
  · exact alignedRecorded (Motion.nextHolds sound.document sound.cursor n) rfl

theorem columnedMove (m : Motion) (count : Int) : Along Columned (move m count) := by
  intro e sound
  refine Run.endsMono (moveEnds sound) ?_
  rintro _ _ rfl
  exact columnedSteady sound (movedSteady m sound _) (movedAligned m sound _)

theorem columnedTo (m : Motion) : Along Columned (moveTo m) := columnedRecords (movesOnce m)

theorem columnedJump (row col : Int) : Along Columned (do
    onBuffer (Buffer.jump row col)
    recordColumn) := columnedRecords (movesBuffer (Buffer.calmJump row col))

theorem columnedSearch (choose : Text → Text → Nat → Option Nat) (message : String) :
    Along Columned (searchStep (Buffer.searchWith choose) message) := by
  intro e sound
  have calm := Run.endsMono (Buffer.calmSearchWith choose e.buffer sound) fun _ _ post => post.1
  unfold searchStep
  rw [Run.endsBind, endsOnBuffer]
  refine Run.endsMono (Buffer.steadyReports calm (Buffer.reportsSearchWith choose _)) ?_
  rintro found b ⟨steady, lost⟩
  have sound' := (steady.follows sound).sound
  cases found with
  | false => exact Run.endsPure.mpr (columnedStill sound' (by rw [lost rfl]))
  | true =>
    simp only [if_true, Run.endsBind, recordColumn, Run.endsModify, Run.endsPure]
    exact columnedSteady sound steady (alignedRecorded sound'.cursor rfl)

theorem columnedSeated {e : Editor} {b : Buffer} (sound : b.Sound) (same : b.seat = e.buffer.seat) :
    Columned e { e with buffer := b } := by
  simp only [Buffer.seat, Prod.mk.injEq] at same
  exact columnedStill sound (Prod.ext same.2.1 (Prod.ext same.2.2 rfl))

theorem columnedSelects {α : Type} {m : Run Buffer α} {e : Editor} (ends : m.Ends e.buffer fun _ b => b.Sound)
    (seat : Run.Leaves Buffer.seat m e.buffer) : (onBuffer m).Ends e fun _ later => Columned e later := by
  obtain ⟨a, result, sound⟩ := ends
  exact ⟨a, result, columnedSeated sound seat⟩

theorem performColumned {e : Editor} (sound : e.buffer.Sound) (selects : e.buffer.Selects) {action : Action}
    (other : action ≠ .enterVisualLine) : (perform action).Ends e fun _ later => Columned e later := by
  have answers {α : Type} {m : Run Editor α} (reply : α → Reply) (along : Along Columned m) :
      Run.Ends (do let a ← m; pure (reply a)) e fun _ later => Columned e later :=
    alongBind columnedProgress along (fun _ => alongPure columnedProgress _) e sound
  have edits {α : Type} {m : Run Buffer α} {reply : α → Reply} (safe : Buffer.Safe m) (told : Buffer.Told m) :
      Run.Ends (do let a ← onBuffer m; pure (reply a)) e fun _ later => Columned e later :=
    answers _ (columnedEdit safe told)
  have done {α : Type} {m : Run Editor α} {reply : α → Reply} (ends : m.Ends e fun _ later => Columned e later) :
      Run.Ends (do let a ← m; pure (reply a)) e fun _ later => Columned e later := by
    rw [Run.endsBind]
    exact Run.endsMono ends fun _ _ columned => Run.endsPure.mpr columned
  cases action with
  | nothing | noop | enterInsert | exitToNormal | enterVisual => exact alongPure columnedProgress _ e sound
  | append | appendLineEnd | insertLineHead | lineHead | lineEnd => exact answers _ (columnedTo _)
  | enterVisualLine => contradiction
  | move m =>
    unfold perform
    rw [Run.endsBind, Run.endsGet]
    exact answers _ (columnedMove m _)
  | arrow m => exact answers _ (columnedMove m 1)
  | bottom =>
    unfold perform
    rw [Run.endsBind, Run.endsGet]
    have run := answers (fun _ => { message := some Motion.bottom.name })
      (columnedJump e.buffer.document.lastRow 0)
    simpa only [bind_assoc] using run
  | openBelow => exact edits Buffer.safeOpenLineBelow Buffer.toldOpenLineBelow
  | openAbove => exact edits Buffer.safeOpenLineAbove Buffer.toldOpenLineAbove
  | paste => exact edits Buffer.safePaste Buffer.toldPaste
  | undo => exact edits Buffer.safeUndo Buffer.toldUndo
  | redo => exact edits Buffer.safeRedo Buffer.toldRedo
  | deleteToLineEnd | changeToLineEnd => exact edits Buffer.safeDeleteToLineEnd Buffer.toldDeleteToLineEnd
  | newline => exact edits Buffer.safeInsertNewline (Buffer.toldInsertText _)
  | tab => exact edits Buffer.safeInsertTab (Buffer.toldInsertText _)
  | backspace => exact edits Buffer.safeDeleteChar Buffer.toldDeleteChar
  | deleteForward => exact edits Buffer.safeDeleteNextChar Buffer.toldDeleteNextChar
  | deleteNextChar =>
    unfold perform
    rw [Run.endsBind, Run.endsGet]
    have step : Along Columned (do let _ ← onBuffer Buffer.deleteNextChar) :=
      alongBind columnedProgress (columnedEdit Buffer.safeDeleteNextChar Buffer.toldDeleteNextChar)
        fun _ => alongPure columnedProgress ()
    exact answers _ (alongRepeated columnedProgress _ step)
  | searchNext | searchPrevious => exact columnedSearch _ _ e sound
  | arm command opener => exact answers _ (columnedAside fun _ => ⟨rfl, rfl⟩)
  | align alignment =>
    exact done (columnedSelects (Run.endsModify.mpr ⟨sound.document, sound.cursor, sound.anchors⟩) rfl)
  | copy =>
    refine done (columnedSelects ?_ (Buffer.seatCopy _))
    exact Run.endsMono (Buffer.copyEnds sound selects) fun _ _ post => (post.1.follows sound).sound
  | cut =>
    refine done (endsOnBuffer.mpr ?_)
    refine Run.endsMono (Run.endsBoth (Buffer.cutEnds sound selects) (Buffer.toldCut sound selects)) ?_
    rintro _ b ⟨⟨follows, -⟩, same | grown⟩
    · exact columnedSeated follows.sound same
    · exact columnedGrown follows.sound grown
  | link =>
    have drawn := columnedSelects (Run.endsMono (Buffer.anchorSelectionEnds sound selects)
      fun _ _ post => turnsSound post.1) (Buffer.seatAnchorSelection _)
    unfold perform
    rw [Run.endsBind]
    refine Run.endsMono drawn fun id later columned => ?_
    cases id <;> exact Run.endsPure.mpr columned

theorem columnedIgnoring {m : Run Buffer Bool} (safe : Buffer.Safe m) (told : Buffer.Told m) :
    Along Columned (ignoringResult m) :=
  alongBind columnedProgress (columnedEdit safe told) fun _ => alongPure columnedProgress ()

theorem columnedCharwise : Charwise (Along Columned) where
  char := columnedIgnoring Buffer.safeDeleteChar Buffer.toldDeleteChar
  nextChar := columnedIgnoring Buffer.safeDeleteNextChar Buffer.toldDeleteNextChar
  nextWord := columnedIgnoring Buffer.safeDeleteNextWord Buffer.toldDeleteNextWord
  word := columnedIgnoring Buffer.safeDeleteWord Buffer.toldDeleteWord

theorem columnedDeleteDown (startRow : Nat) : Along Columned (deleteDown startRow) := by
  intro e sound
  unfold deleteDown
  rw [Run.endsBind, Run.endsGet]
  split
  · exact columnedIgnoring (Buffer.safeDeleteLine false) (Buffer.toldDeleteLine false) e sound
  · exact alongPure columnedProgress () e sound

theorem columnedReset : Along Columned resetPending := columnedAside fun _ => ⟨rfl, rfl⟩

theorem columnedFinish (message : Text) : Along Columned (finish message) :=
  alongBind columnedProgress columnedReset fun _ => alongPure columnedProgress _

theorem columnedAbandon (token : Text) : Along Columned (abandon token) := by
  intro e sound
  unfold abandon
  rw [Run.endsBind, Run.endsGet]
  exact alongBind columnedProgress (alongLog columnedProgress _) (fun _ =>
    alongBind columnedProgress columnedReset fun _ => alongPure columnedProgress _) e sound

theorem columnedRepeated (opener : Char) {step : Option (Run Editor Unit)} (token : Text)
    (along : ∀ s, step = some s → Along Columned s) : Along Columned (completeRepeated opener step token) := by
  intro e sound
  cases step with
  | none => exact columnedAbandon token e sound
  | some step =>
    unfold completeRepeated
    rw [Run.endsBind, Run.endsGet]
    exact alongBind columnedProgress (alongRepeated columnedProgress _ (along step rfl))
      (fun _ => columnedFinish _) e sound

theorem columnedLands (row col : Int) (message : Text) : Along Columned (do
    onBuffer (Buffer.jump row col)
    recordColumn
    finish message) := by
  have run := alongBind columnedProgress (columnedJump row col) fun _ => columnedFinish message
  simpa only [bind_assoc] using run

theorem columnedGoto (token : Text) : Along Columned (completeGoto token) := by
  intro e sound
  unfold completeGoto
  split
  · rw [Run.endsBind, Run.endsGet]
    exact columnedLands _ 0 ['g', 'g'] e sound
  · exact columnedAbandon token e sound

theorem columnedFind (opener : Char) (choose : Text → Text → Nat → Option Nat) (token : Text) :
    Along Columned (completeFind opener choose token) := by
  intro e sound
  unfold completeFind
  split
  · obtain ⟨line, ok, -, -⟩ := Document.lineOk sound.cursor.1
    rw [Run.endsBind, Run.endsGet]
    dsimp only
    rw [Run.endsBind, Run.endsOfExcept]
    refine ⟨line, ok, ?_⟩
    split
    · exact columnedFinish _ e sound
    · exact columnedLands _ _ _ e sound
  · exact columnedAbandon token e sound

theorem columnedPrimeHop (token : Text) : Along Columned (completePrimeHop token) := by
  intro e sound
  have typed : Along Columned (Run.modify fun e : Editor =>
      { e with pending := { e.pending with typed := e.pending.typed ++ token } }) :=
    columnedAside fun _ => ⟨rfl, rfl⟩
  unfold completePrimeHop
  split
  · refine alongBind columnedProgress typed (fun _ f sound => ?_) e sound
    rw [Run.endsBind, Run.endsGet]
    split
    · exact alongPure columnedProgress _ f sound
    · have chosen : Along Columned (onBuffer (Buffer.setHopPattern f.pending.typed)) := by
        intro g sound
        rw [endsOnBuffer, Buffer.setHopPattern]
        simp only [Run.endsBind, Run.endsGet, Run.endsPut, Run.endsLog, Run.endsPure]
        exact columnedStill ⟨sound.document, sound.cursor, sound.anchors⟩ rfl
      have waits : Along Columned (Run.modify fun e : Editor =>
          { e with command := .executeHop, pending := { e.pending with digits := [] } }) :=
        columnedAside fun _ => ⟨rfl, rfl⟩
      exact alongBind columnedProgress chosen (fun _ => alongBind columnedProgress waits fun _ =>
        alongPure columnedProgress _) f sound
  · exact columnedAbandon token e sound

theorem columnedPushed {e : Editor} (sound : e.buffer.Sound) (token : Text) (reply : Reply) :
    Run.After (do pushDigit token; pure reply) e fun _ later => Columned e later := by
  have still : ∀ digits, Columned e { e with pending := { e.pending with digits } } :=
    fun _ => columnedStill sound rfl
  rw [Run.afterBind]
  unfold pushDigit
  split
  · split
    · exact still _
    · exact columnedProgress.refl e sound
  · exact columnedProgress.refl e sound

theorem columnedExecuteHop {e : Editor} (sound : e.buffer.Sound) (hops : e.buffer.Hops) (token : Text) :
    (completeExecuteHop token).After e fun _ later => Columned e later := by
  have cleared : Along Columned (onBuffer Buffer.clearHop) := by
    intro f sound
    rw [endsOnBuffer, Buffer.clearHop, Run.endsModify]
    exact columnedStill ⟨sound.document, sound.cursor, sound.anchors⟩ rfl
  unfold completeExecuteHop
  split
  · exact columnedPushed sound token _
  split
  · refine Run.afterBindEnds (Run.endsGet.mpr ?_)
    dsimp only
    rw [← hopIndex]
    generalize Text.isWritable (hopIndex e) = writable
    have calm := Run.endsMono (Buffer.hopToEnds sound hops (hopIndex e)) fun _ _ post => post.1
    refine Run.afterBindEnds (endsOnBuffer.mpr ?_)
    refine Run.endsMono (Buffer.steadyReports calm (Buffer.reportsHopTo _ _)) ?_
    rintro jumped b ⟨steady, lost⟩
    have sound' := (steady.follows sound).sound
    have told : ∀ f : Editor, Columned e f →
        (if writable then finish ("hop:".toList ++ Text.ofInt (hopIndex e))
          else Run.fail .tooLongToWrite).After f fun _ later => Columned e later := by
      intro f columned
      split
      · refine Run.afterOfEnds (Run.endsMono (columnedFinish _ f columned.sound) ?_)
        exact fun _ later => columnedProgress.trans e f later columned
      · exact columned
    refine Run.afterBindEnds (endsOnBuffer.mpr ?_)
    rw [Buffer.clearHop, Run.endsModify]
    dsimp only
    cases jumped with
    | false =>
      rw [lost rfl]
      exact told _ (columnedStill ⟨sound.document, sound.cursor, sound.anchors⟩ rfl)
    | true =>
      refine Run.afterBindEnds (Run.endsModify.mpr (told _ ?_))
      refine columnedSteady sound ?_ (alignedRecorded sound'.cursor rfl)
      exact ⟨steady.document, steady.cursor, steady.anchors, steady.drawn⟩
  · exact Run.afterOfEnds (alongBind columnedProgress cleared (fun _ => columnedAbandon token) e sound)

theorem completeColumned {e : Editor} (sound : e.Sound) (waits : e.command ≠ .none) (token : Text) :
    (complete e.command token).After e fun _ later => Columned e later := by
  have along {m : Run Editor Reply} (step : Along Columned m) : m.After e fun _ later => Columned e later :=
    Run.afterOfEnds (step e sound.buffer)
  unfold complete
  refine Run.afterBindEnds (Run.endsGet.mpr ?_)
  cases command : e.command with
  | none => exact absurd command waits
  | delete =>
    exact along (columnedRepeated 'd' token fun _ => columnedCharwise.deletion (columnedDeleteDown _)
      (columnedIgnoring (Buffer.safeDeleteLine true) (Buffer.toldDeleteLine true)))
  | yank => exact along (columnedRepeated 'y' token fun _ => columnedCharwise.yanking)
  | goto => exact along (columnedGoto token)
  | findForward => exact along (columnedFind 'f' _ token)
  | findBackward => exact along (columnedFind 'F' _ token)
  | primeHop => exact along (columnedPrimeHop token)
  | executeHop => exact columnedExecuteHop sound.buffer (sound.hops command) token

structure SelectsLine (e : Editor) (token : Text) : Prop where
  normal : e.mode = .normal
  idle : e.command = .none
  key : token = ['V']

theorem boundColumned {e : Editor} (sound : e.Sound) {token : Text} {b : Binding} {action : NamedAction Action}
    (found : e.registry.lookup e.mode.name token = some (b, action))
    (plain : ¬ (e.mode = .normal ∧ token = ['V'])) :
    (performBound b action).Ends e fun _ later => Columned e later := by
  unfold performBound
  rw [Run.endsSpanned]
  refine performColumned sound.buffer sound.selects fun selects => plain ?_
  exact Keymap.lineSelected (sound.registry ▸ found) selects

theorem insertKeyColumned {e : Editor} (sound : e.Sound) (insert : e.mode = .insert) (token : Text) :
    (insertKey token).Ends e fun _ later => Columned e later := by
  unfold insertKey
  rw [Run.endsBind, Run.endsGet, ← insert]
  split
  · rename_i found
    exact boundColumned sound found fun post => absurd (insert.symm.trans post.1) (by decide)
  · split
    · exact alongBind columnedProgress (columnedEdit (Buffer.safeInsertText token) (Buffer.toldInsertText token))
        (fun _ => alongPure columnedProgress _) e sound.buffer
    · exact alongPure columnedProgress _ e sound.buffer

theorem boundKeyColumned {e : Editor} (sound : e.Sound) {token : Text}
    (plain : ¬ (e.mode = .normal ∧ token = ['V'])) :
    (boundKey token).Ends e fun _ later => Columned e later := by
  unfold boundKey
  rw [Run.endsBind, Run.endsGet]
  split
  · exact alongBind columnedProgress (alongLog columnedProgress _) (fun _ =>
      alongBind columnedProgress columnedReset fun _ => alongPure columnedProgress _) e sound.buffer
  · rename_i found
    rw [Run.endsBind]
    refine Run.endsMono (boundColumned sound found plain) fun reply later columned => ?_
    split
    · refine Run.endsMono (alongBind columnedProgress columnedReset
        (fun _ => alongPure columnedProgress reply) later columned.sound) ?_
      exact fun _ last => columnedProgress.trans e later last columned
    · exact Run.endsPure.mpr columned

theorem modalKeyColumned {e : Editor} (sound : e.Sound) {token : Text} (plain : ¬ e.SelectsLine token) :
    (modalKey token).After e fun _ later => Columned e later := by
  unfold modalKey
  refine Run.afterBindEnds (Run.endsGet.mpr ?_)
  split
  · rename_i waits
    exact completeColumned sound waits token
  · rename_i idle
    split
    · exact columnedPushed sound.buffer token _
    · refine Run.afterOfEnds (boundKeyColumned sound fun post => plain ?_)
      exact ⟨post.1, Decidable.not_not.mp idle, post.2⟩

theorem respondedPlace (reply : Reply) (e : Editor) : (responded reply e).place = e.place := by
  unfold responded
  split <;> rfl

theorem repliedColumn {e : Editor} {m : Run Editor Reply} (work : m.After e fun r later => Columned e later ∧
    ∀ fault, r = .error fault → later.buffer.version = e.buffer.version) :
    Run.After (do
      let reply ← m
      respond reply
      if (← Run.get).buffer.version ≠ e.buffer.version then recordColumn
      pure reply) e fun _ later => later.place = e.place ∨ later.Aligned := by
  rw [Run.afterBind]
  refine Run.afterMono work ?_
  rintro r middle ⟨columned, failed⟩
  cases r with
  | error fault => exact columned.kept (failed fault rfl)
  | ok reply =>
    refine Run.afterOfEnds (Run.endsBind.mpr (Run.endsMono (respondState reply middle) ?_))
    rintro _ _ rfl
    have same := respondedPlace reply middle
    have document : (responded reply middle).buffer.document = middle.buffer.document :=
      congrArg Prod.fst same
    have cursor : (responded reply middle).buffer.cursor = middle.buffer.cursor :=
      congrArg (fun place => place.2.1) same
    rw [Run.endsBind, Run.endsGet]
    split
    · rw [Run.endsBind, recordColumn, Run.endsModify, Run.endsPure]
      refine .inr (alignedRecorded ?_ rfl)
      exact document ▸ cursor ▸ columned.sound.cursor
    · rename_i unchanged
      rw [Run.endsPure, same]
      have version := Decidable.not_not.mp unchanged
      rw [Buffer.version, document] at version
      exact (columned.kept version).imp_right (alignedPlace same)

/- Whatever the key, and whether it fails or not: where it leaves the column, or moves the cursor, the two
agree again. -/
theorem keyColumn {e : Editor} (sound : e.Sound) {name : Text} {modifiers : List Text}
    (plain : ¬ e.SelectsLine (KeyPress.token name modifiers)) :
    (key name modifiers).After e fun _ later => later.place = e.place ∨ later.Aligned := by
  unfold key
  dsimp only
  refine Run.afterBindEnds (Run.endsGet.mpr ?_)
  split
  · rename_i insert
    refine repliedColumn (Run.afterOfEnds (Run.endsMono (insertKeyColumned sound insert _) ?_))
    exact fun _ _ columned => ⟨columned, Run.noFault⟩
  · rename_i other
    refine repliedColumn ⟨modalKeyColumned sound plain, fun fault failed => ?_⟩
    have ending := modalKeyAfter sound other (KeyPress.token name modifiers)
    unfold Run.After at ending
    rw [failed] at ending
    rcases ending with ⟨-, -, same⟩ | ⟨-, -, -, steady⟩
    · rw [same]
    · exact congrArg Document.version steady.document

def lineSelected (e : Editor) : Document × Cursor × Option Nat :=
  (e.buffer.document, ⟨e.buffer.cursor.row, e.buffer.document.width e.buffer.cursor.row - 1⟩, e.column)

theorem selectLinePlace {e : Editor} (sound : e.buffer.Sound) :
    selectLine.Ends e fun _ later => later.place = e.lineSelected := by
  obtain ⟨line, ok, -, -⟩ := Document.lineOk sound.cursor.1
  obtain ⟨inside, size⟩ := Document.lineFound ok
  unfold selectLine Buffer.jump Buffer.startSelection
  simp only [Run.endsBind, Run.endsGet, endsOnBuffer, Run.endsModify, Run.endsOfExcept]
  refine ⟨line, ok, ?_⟩
  have row : min e.buffer.cursor.row e.buffer.document.lastRow = e.buffer.cursor.row := by
    simp only [Document.lineCount] at inside
    simp only [Document.lastRow]
    omega
  simp only [place, lineSelected, Document.clamp, Int.toNat_natCast, row, size]
  rw [Nat.min_eq_left (Nat.sub_le _ 1)]

theorem keySelectsLine {e : Editor} (sound : e.Sound) {name : Text} {modifiers : List Text}
    (selects : e.SelectsLine (KeyPress.token name modifiers)) :
    (key name modifiers).Ends e fun _ later => later.place = e.lineSelected := by
  have other : e.mode ≠ .insert := by simp [selects.normal]
  obtain ⟨b, a, found, handler⟩ := Keymap.bindsFound
    (by decide +kernel : Keymap.Binds .normal ['V'] .enterVisualLine)
  rw [← sound.registry, ← selects.normal] at found
  have noDigit : isDigitKey ['V'] = false := by decide
  have works : (modalKey (KeyPress.token name modifiers)).Ends e fun reply later =>
      later.place = e.lineSelected := by
    unfold modalKey
    rw [Run.endsBind, Run.endsGet, if_neg (not_not_intro selects.idle), selects.key, noDigit,
      if_neg Bool.false_ne_true, boundKey, Run.endsBind, Run.endsGet]
    simp only [found, performBound, handler, perform, Run.endsBind, Run.endsSpanned]
    refine Run.endsMono (selectLinePlace sound.buffer) fun _ later same => ?_
    simp only [Run.endsPure, entering, Option.isNone_none, if_true, resetPending, Run.endsBind,
      Run.endsModify]
    exact same
  unfold key
  rw [Run.endsBind, Run.endsGet, if_neg other, Run.endsBind]
  refine Run.endsMono works fun reply later same => ?_
  rw [Run.endsBind]
  refine Run.endsMono (respondState reply later) ?_
  rintro _ _ rfl
  have placed := (respondedPlace reply later).trans same
  have version : (responded reply later).buffer.version = e.buffer.version :=
    congrArg Document.version (congrArg Prod.fst placed)
  rw [Run.endsBind, Run.endsGet, if_neg (not_not_intro version), Run.endsPure]
  exact placed

end ModalNotes.Editor
