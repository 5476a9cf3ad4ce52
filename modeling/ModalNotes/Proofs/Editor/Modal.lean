import ModalNotes.Proofs.Buffer.Hop
import ModalNotes.Proofs.Editor.Keys
import ModalNotes.Proofs.Editor.Opener

/-! Mode, waiting command, pending input and hop agree with each other after every key, also after one that
fails. Only the reply to a key arms a command or switches the mode. -/
namespace ModalNotes

def Command.Collects : Command → Text → Prop
  | .primeHop, typed => typed.length ≤ 1
  | .executeHop, typed => typed.length = 2
  | command, typed => typed = command.opener

namespace Editor

open Run (Leaves leavesBind leavesPure leavesOfExcept leavesGet leavesReads leavesOn leavesTimes leavesLog)

/- A hop is at its key's places. One that has failed to tell its index has none left. -/
def Hopping (e : Editor) : Prop :=
  (e.buffer.hopKey = some e.pending.typed ∧
      Buffer.Finds e.buffer.document.lines e.pending.typed e.buffer.hopMatches) ∨
    e.buffer.hop = (none, []) ∧ Text.isWritable (hopIndex e) = false

structure Modal (e : Editor) : Prop where
  registry : e.registry = Keymap.standard.state
  inserting : e.mode = .insert → e.command = .none ∧ e.pending = {}
  collects : e.command.Collects e.pending.typed
  visual : e.mode = .visual → e.command ∈ [.none, .goto, .findForward, .findBackward]
  hopping : e.command = .executeHop → Hopping e
  hopless : e.command ≠ .executeHop → e.buffer.hop = (none, [])

structure Controls where
  registry : Registry Action
  mode : Mode
  command : Command
  pending : Pending
  hop : Option Text × List Cursor

def controls (e : Editor) : Controls := ⟨e.registry, e.mode, e.command, e.pending, e.buffer.hop⟩

def Controls.rested (c : Controls) : Controls := { c with command := .none, pending := {} }

section
variable {α : Type} {e : Editor}

theorem controlsBuffer {m : Run Buffer α} (h : ∀ b, Leaves Buffer.hop m b) (e : Editor) :
    Leaves controls (onBuffer m) e :=
  leavesOn (h e.buffer) fun b same => by simp only [controls, same]

theorem controlsRecordColumn (e : Editor) : Leaves controls recordColumn e := rfl

theorem controlsRepeated (count : Int) {m : Run Editor Unit} (step : ∀ e, Leaves controls m e)
    (e : Editor) : Leaves controls (repeated count m) e := by
  refine leavesBind (leavesTimes step _ e) fun _ t => ?_
  split
  · exact leavesBind (leavesLog _ t) fun _ u => leavesPure count u
  · exact leavesPure count t

theorem controlsOnce (m : Motion) (e : Editor) : Leaves controls (moveOnce m) e :=
  leavesBind (controlsBuffer (Buffer.hopMove m) e) fun _ t => leavesPure () t

theorem controlsTo (m : Motion) (e : Editor) : Leaves controls (moveTo m) e :=
  leavesBind (controlsOnce m e) fun _ t => controlsRecordColumn t

theorem controlsMove (m : Motion) (count : Int) (e : Editor) : Leaves controls (move m count) e := by
  have steps := controlsRepeated count (controlsOnce m)
  have restored : ∀ e, Leaves controls (do
      let count ← repeated count (moveOnce m)
      restoreColumn
      pure count) e := fun e => leavesBind (steps e) fun _ t =>
    leavesBind (controlsBuffer (fun _ => by rfl) t) fun _ u => leavesPure _ u
  unfold move
  split
  · refine leavesGet ?_
    dsimp only
    split
    · exact leavesBind (controlsRecordColumn e) fun _ t => restored t
    · exact restored e
  · exact leavesBind (steps e) fun _ t => leavesBind (controlsRecordColumn t) fun _ u => leavesPure _ u

theorem controlsSelectLine (e : Editor) : Leaves controls selectLine e :=
  leavesGet (leavesBind (controlsBuffer (fun _ => by rfl) e) fun _ t =>
    leavesBind (controlsBuffer (fun _ => by rfl) t) fun _ u =>
      leavesReads fun _ => controlsBuffer (fun _ => by rfl) u)

def Answers (m : Run Editor Reply) (e : Editor) : Prop :=
  Leaves controls m e ∧ ∀ reply, (m e).result = .ok reply → reply.command = none

theorem answersPure {reply : Reply} (quiet : reply.command = none) (e : Editor) :
    Answers (pure reply) e := ⟨rfl, fun _ ok => by cases ok; exact quiet⟩

theorem answersBind {m : Run Editor α} {f : α → Run Editor Reply} (first : Leaves controls m e)
    (rest : ∀ a t, Answers (f a) t) : Answers (m >>= f) e := by
  refine ⟨leavesBind first fun a t => (rest a t).1, fun reply ok => ?_⟩
  rw [Run.bind_apply] at ok
  rcases h : m e with ⟨t, trace, r⟩
  rw [h] at ok
  cases r with
  | ok a => exact (rest a t).2 reply ok
  | error fault => contradiction

theorem answersGet {f : Editor → Run Editor Reply} (rest : Answers (f e) e) :
    Answers (Run.get >>= f) e := rest

theorem answersSearch {search : Run Buffer Bool} (h : ∀ b, Leaves Buffer.hop search b) (message : String)
    (e : Editor) : Answers (searchStep search message) e := by
  refine answersBind (controlsBuffer h e) fun moved t => ?_
  dsimp only
  split
  · exact answersBind (controlsRecordColumn t) fun _ u => answersPure rfl u
  · exact answersPure rfl t

theorem performAnswers {action : Action} (free : ∀ command opener, action ≠ .arm command opener)
    (e : Editor) : Answers (perform action) e := by
  cases action with
  | arm command opener => exact absurd rfl (free command opener)
  | nothing | noop | enterInsert | exitToNormal | enterVisual => exact answersPure rfl e
  | append | appendLineEnd | insertLineHead | lineHead | lineEnd =>
    exact answersBind (controlsTo _ e) fun _ t => answersPure rfl t
  | openBelow => exact answersBind (controlsBuffer Buffer.hopOpenLineBelow e) fun _ t => answersPure rfl t
  | openAbove => exact answersBind (controlsBuffer Buffer.hopOpenLineAbove e) fun _ t => answersPure rfl t
  | enterVisualLine => exact answersBind (controlsSelectLine e) fun _ t => answersPure rfl t
  | move m => exact answersGet (answersBind (controlsMove m _ e) fun _ t => answersPure rfl t)
  | bottom =>
    exact answersGet (answersBind (controlsBuffer (fun _ => by rfl) e) fun _ t =>
      answersBind (controlsRecordColumn t) fun _ u => answersPure rfl u)
  | paste => exact answersBind (controlsBuffer Buffer.hopPaste e) fun _ t => answersPure rfl t
  | undo => exact answersBind (controlsBuffer Buffer.hopUndo e) fun _ t => answersPure rfl t
  | redo => exact answersBind (controlsBuffer Buffer.hopRedo e) fun _ t => answersPure rfl t
  | deleteNextChar =>
    have step : ∀ e, Leaves controls (do let _ ← onBuffer Buffer.deleteNextChar) e := fun e =>
      leavesBind (controlsBuffer Buffer.hopDeleteNextChar e) fun _ t => leavesPure () t
    exact answersGet (answersBind (controlsRepeated _ step e) fun _ t => answersPure rfl t)
  | deleteToLineEnd | changeToLineEnd =>
    exact answersBind (controlsBuffer Buffer.hopDeleteToLineEnd e) fun _ t => answersPure rfl t
  | searchNext => exact answersSearch (Buffer.hopSearchWith _) _ e
  | searchPrevious => exact answersSearch (Buffer.hopSearchWith _) _ e
  | copy => exact answersBind (controlsBuffer Buffer.hopCopy e) fun _ t => answersPure rfl t
  | cut => exact answersBind (controlsBuffer Buffer.hopCut e) fun _ t => answersPure rfl t
  | align alignment => exact answersBind (controlsBuffer (fun _ => by rfl) e) fun _ t => answersPure rfl t
  | link =>
    refine answersBind (controlsBuffer Buffer.hopAnchorSelection e) fun id t => ?_
    cases id <;> exact answersPure rfl t
  | newline => exact answersBind (controlsBuffer (Buffer.hopInsertText _) e) fun _ t => answersPure rfl t
  | tab => exact answersBind (controlsBuffer (Buffer.hopInsertText _) e) fun _ t => answersPure rfl t
  | backspace => exact answersBind (controlsBuffer Buffer.hopDeleteChar e) fun _ t => answersPure rfl t
  | deleteForward =>
    exact answersBind (controlsBuffer Buffer.hopDeleteNextChar e) fun _ t => answersPure rfl t
  | arrow m => exact answersBind (controlsMove m 1 e) fun _ t => answersPure rfl t

def Concludes (m : Run Editor Reply) (e : Editor) : Prop :=
  m.After e fun r later =>
    match r with
    | .ok reply => Quiet reply ∧ later.controls = e.controls.rested
    | .error _ => later.controls = e.controls

theorem concludesBind {m : Run Editor α} {f : α → Run Editor Reply} (first : Leaves controls m e)
    (rest : ∀ a t, Concludes (f a) t) : Concludes (m >>= f) e := by
  unfold Concludes
  rw [Run.afterBind]
  unfold Run.After Leaves at *
  cases h : (m e).result with
  | error fault => exact first
  | ok a =>
    have concluded := rest a (m e).state
    unfold Concludes at concluded
    rw [first] at concluded
    exact concluded

theorem concludesGet {f : Editor → Run Editor Reply} (rest : Concludes (f e) e) :
    Concludes (Run.get >>= f) e := rest

theorem concludesAbandon (token : Text) (e : Editor) : Concludes (abandon token) e := by
  refine Run.afterOfEnds (Run.endsMono (abandonEnds e token) ?_)
  rintro reply _ ⟨quiet, rfl⟩
  exact ⟨quiet, rfl⟩

theorem concludesFinish (message : Text) (e : Editor) : Concludes (finish message) e := by
  refine Run.afterOfEnds (Run.endsMono (finishEnds e message) ?_)
  rintro reply _ ⟨quiet, rfl⟩
  exact ⟨quiet, rfl⟩

theorem controlsIgnoring {m : Run Buffer Bool} (h : ∀ b, Leaves Buffer.hop m b) (e : Editor) :
    Leaves controls (ignoringResult m) e :=
  leavesBind (controlsBuffer h e) fun _ t => leavesPure () t

theorem controlsCharwise : Charwise fun step => ∀ e, Leaves controls step e where
  char := controlsIgnoring Buffer.hopDeleteChar
  nextChar := controlsIgnoring Buffer.hopDeleteNextChar
  nextWord := controlsIgnoring Buffer.hopDeleteNextWord
  word := controlsIgnoring Buffer.hopDeleteWord

theorem controlsDeleteDown (startRow : Nat) (e : Editor) : Leaves controls (deleteDown startRow) e := by
  refine leavesGet ?_
  split
  · exact controlsIgnoring (Buffer.hopDeleteLine false) e
  · exact leavesPure () e

theorem concludesRepeated (opener : Char) {step : Option (Run Editor Unit)} (token : Text)
    (leaves : ∀ s, step = some s → ∀ e, Leaves controls s e) (e : Editor) :
    Concludes (completeRepeated opener step token) e := by
  cases step with
  | none => exact concludesAbandon token e
  | some step =>
    exact concludesGet (concludesBind (controlsRepeated _ (leaves step rfl) e) fun _ t =>
      concludesFinish _ t)

theorem concludesGoto (token : Text) (e : Editor) : Concludes (completeGoto token) e := by
  unfold completeGoto
  split
  · exact concludesGet (concludesBind (controlsBuffer (fun _ => by rfl) e) fun _ t =>
      concludesBind (controlsRecordColumn t) fun _ u => concludesFinish _ u)
  · exact concludesAbandon token e

theorem concludesFind (opener : Char) (choose : Text → Text → Nat → Option Nat) (token : Text)
    (e : Editor) : Concludes (completeFind opener choose token) e := by
  unfold completeFind
  split
  · refine concludesGet (concludesBind (leavesOfExcept _ e) fun line t => ?_)
    split
    · exact concludesFinish _ t
    · exact concludesBind (controlsBuffer (fun _ => by rfl) t) fun _ u =>
        concludesBind (controlsRecordColumn u) fun _ v => concludesFinish _ v
  · exact concludesAbandon token e

end

theorem modalIdle {e : Editor} (registry : e.registry = Keymap.standard.state)
    (command : e.command = .none) (typed : e.pending.typed = [])
    (pending : e.mode = .insert → e.pending = {}) (hop : e.buffer.hop = (none, [])) : Modal e where
  registry := registry
  inserting insert := ⟨command, pending insert⟩
  collects := by rw [command, typed]; rfl
  visual _ := by simp [command]
  hopping waits := by simp [command] at waits
  hopless _ := hop

theorem modalControls {e later : Editor} (modal : Modal e) (other : e.command ≠ .executeHop)
    (same : later.controls = e.controls) : Modal later := by
  simp only [controls, Controls.mk.injEq] at same
  obtain ⟨registry, mode, command, pending, hop⟩ := same
  exact {
    registry := registry.trans modal.registry
    inserting := fun insert => by rw [command, pending]; exact modal.inserting (mode ▸ insert)
    collects := by rw [command, pending]; exact modal.collects
    visual := fun visual => by rw [command]; exact modal.visual (mode ▸ visual)
    hopping := fun waits => absurd (command ▸ waits) other
    hopless := fun _ => hop.trans (modal.hopless other) }

theorem modalRested {e later : Editor} (modal : Modal e) (other : e.command ≠ .executeHop)
    (same : later.controls = e.controls.rested) : Modal later := by
  simp only [controls, Controls.rested, Controls.mk.injEq] at same
  obtain ⟨registry, -, command, pending, hop⟩ := same
  exact modalIdle (registry.trans modal.registry) command (by rw [pending]) (fun _ => pending)
    (hop.trans (modal.hopless other))

def switched (mode : Mode) (e : Editor) : Editor :=
  { e with
    mode, command := .none, pending := {}
    buffer := { e.buffer with
      searchPattern := none
      selectionStart :=
        if mode = .visual then some (e.buffer.selectionStart.getD e.buffer.cursor) else none } }

theorem setModeState (mode : Mode) (e : Editor) :
    (setMode mode).Ends e fun _ later => later = switched mode e := by
  have told : ∀ f : Editor, f = switched mode e → Run.Ends (do
      if e.mode ≠ mode then
        Run.log (Entry.event Level.debug Logger.interpreter "interpreter.mode".toList
          [("from".toList, .text e.mode.name), ("to".toList, .text mode.name)])
        let b := (← Run.get).buffer
        Run.emit (.modeChanged {
          mode, cursor := b.cursor, selection := b.selection, version := b.version })) f
      fun _ later => later = switched mode e := by
    intro f same
    split
    · exact ⟨(), rfl, same⟩
    · exact ⟨(), rfl, same⟩
  unfold setMode
  simp only [Run.endsBind, Run.endsGet, endsOnBuffer, Buffer.clearSearch, Run.endsModify, resetPending]
  split
  · rename_i visual
    cases start : e.buffer.selectionStart with
    | none => exact told _ (by simp [switched, visual, start, Buffer.startSelection, Run.modify])
    | some c => exact told _ (by simp [switched, visual, start])
  · rename_i other
    exact told _ (by simp [switched, other, Buffer.cancelSelection, Run.modify])

def responded (reply : Reply) (e : Editor) : Editor :=
  match reply.switchTo with
  | none => { e with command := reply.command.getD e.command }
  | some mode => switched mode e

theorem respondState (reply : Reply) (e : Editor) :
    (respond reply).Ends e fun _ later => later = responded reply e := by
  obtain ⟨consumed, target, command, status, message⟩ := reply
  cases target with
  | none => cases command <;> simp [respond, responded]
  | some mode =>
    cases command with
    | none => simpa [respond, responded] using setModeState mode e
    | some command => simpa [respond, responded, switched] using setModeState mode { e with command }

theorem modalSwitched {e : Editor} (registry : e.registry = Keymap.standard.state)
    (hop : e.buffer.hop = (none, [])) (mode : Mode) : Modal (switched mode e) :=
  modalIdle registry rfl rfl (fun _ => rfl) hop

def Ready (e : Editor) (r : Except Fault Reply) (later : Editor) : Prop :=
  match r with
  | .ok reply => Modal (responded reply later)
  | .error _ => Modal later ∧ later.mode = e.mode

theorem readyConcluded {e : Editor} {m : Run Editor Reply} (modal : Modal e)
    (other : e.command ≠ .executeHop) (concludes : Concludes m e) : m.After e (Ready e) := by
  refine Run.afterMono concludes fun r later post => ?_
  cases r with
  | error fault => exact ⟨modalControls modal other post, congrArg Controls.mode post⟩
  | ok reply =>
    obtain ⟨⟨command, switchTo⟩, same⟩ := post
    have rested := modalRested modal other same
    simpa [Ready, responded, switchTo, command] using rested

theorem readyQuiet {e later : Editor} {reply : Reply} (quiet : Quiet reply) (modal : Modal later) :
    Ready e (.ok reply) later := by
  obtain ⟨command, switchTo⟩ := quiet
  simpa [Ready, responded, switchTo, command] using modal

theorem readyEnd {e first : Editor} {m : Run Editor Reply} (registry : e.registry = Keymap.standard.state)
    (hop : e.buffer.hop = (none, []))
    (ends : m.Ends e fun reply later => Quiet reply ∧ later = { e with command := .none, pending := {} }) :
    m.After e (Ready first) := by
  refine Run.afterOfEnds (Run.endsMono ends ?_)
  rintro reply _ ⟨quiet, rfl⟩
  exact readyQuiet quiet (modalIdle registry rfl rfl (fun _ => rfl) hop)

theorem modalWaits {e : Editor} (modal : Modal e) (waits : e.command ≠ .none) : e.mode ≠ .insert :=
  fun insert => waits (modal.inserting insert).1

theorem printableSingle {token : Text} (h : KeyPress.isPrintable token = true) : token.length = 1 := by
  unfold KeyPress.isPrintable at h
  split at h
  · rfl
  · contradiction

theorem readyPrimeHop {e : Editor} (modal : Modal e) (waits : e.command = .primeHop) (token : Text) :
    (completePrimeHop token).After e (Ready e) := by
  have other := modalWaits modal (by simp [waits])
  have hopless := modal.hopless (by simp [waits])
  have collects := modal.collects
  have noVisual : e.mode ≠ .visual := fun visual => by simpa [waits] using modal.visual visual
  unfold completePrimeHop
  split
  · rename_i printable
    have single := printableSingle printable
    rw [waits] at collects
    change e.pending.typed.length ≤ 1 at collects
    refine Run.afterBindEnds (Run.endsModify.mpr (Run.afterBindEnds (Run.endsGet.mpr ?_)))
    split
    · rename_i short
      refine Run.afterPure.mpr (readyQuiet ⟨rfl, rfl⟩ ?_)
      exact {
        registry := modal.registry
        inserting := fun insert => absurd insert other
        collects := by
          rw [waits]
          exact Nat.le_of_lt_succ short
        visual := fun visual => absurd visual noVisual
        hopping := fun hop => by simp [waits] at hop
        hopless := fun _ => hopless }
    · rename_i enough
      simp only [hopLength, List.length_append, Nat.not_lt] at enough
      refine Run.afterOfEnds ?_
      simp only [Run.endsBind, endsOnBuffer, Buffer.setHopPattern, Run.endsGet, Run.endsPut, Run.endsLog,
        Run.endsPure, Run.endsModify]
      refine readyQuiet ⟨rfl, rfl⟩ ?_
      exact {
        registry := modal.registry
        inserting := fun insert => absurd insert other
        collects := by
          change (e.pending.typed ++ token).length = 2
          rw [List.length_append]
          omega
        visual := fun visual => absurd visual noVisual
        hopping := fun _ => .inl ⟨rfl, Buffer.matchesFind _ _⟩
        hopless := fun hop => absurd rfl hop }
  · exact readyConcluded modal (by simp [waits]) (concludesAbandon token e)

theorem countPushed (digits : List Nat) (d : Nat) :
    countOf ((digits ++ [d]).map Int.ofNat) =
      (if digits.isEmpty then 0 else countOf (digits.map Int.ofNat)) * 10 + d := by
  cases digits <;> simp [countOf, List.foldl_append]

theorem countNonneg (digits : List Nat) : 0 ≤ countOf (digits.map Int.ofNat) := by
  have folded : ∀ (rest : List Nat) (n : Int), 0 ≤ n →
      0 ≤ (rest.map Int.ofNat).foldl (fun count digit => count * 10 + digit) n := by
    intro rest
    induction rest with
    | nil => exact fun n start => start
    | cons d rest ih =>
      intro n start
      exact ih _ (by simp only [Int.ofNat_eq_natCast]; omega)
  unfold countOf
  split
  · decide
  · exact folded digits 0 (Int.le_refl 0)

theorem overlongPushed {e : Editor} (long : Text.isWritable (hopIndex e) = false) (d : Nat) :
    Text.isWritable (hopIndex { e with
      pending := { e.pending with digits := e.pending.digits ++ [d] } }) = false := by
  have before := countNonneg e.pending.digits
  have pushed := countPushed e.pending.digits d
  unfold hopIndex Pending.count at *
  dsimp only at *
  rw [if_neg (by simp), pushed]
  split at long
  · simp [Text.isWritable] at long
  · rename_i digits
    rw [if_neg digits]
    simp only [Text.isWritable, decide_eq_false_iff_not, Nat.not_lt] at *
    omega

theorem readyPushDigit {e : Editor} {reply : Reply} (modal : Modal e) (quiet : Quiet reply)
    (pushed : ∀ d, Modal { e with pending := { e.pending with digits := e.pending.digits ++ [d] } })
    (token : Text) : Run.After (do pushDigit token; pure reply) e (Ready e) := by
  rw [Run.afterBind]
  unfold pushDigit
  split
  · split
    · rename_i d _
      exact readyQuiet (e := e) quiet (pushed d)
    · exact ⟨modal, rfl⟩
  · exact ⟨modal, rfl⟩

theorem hopToState (index : Int) (b : Buffer) :
    (Buffer.hopTo index).Ends b fun _ later => ∃ cursor, later = { b with cursor } := by
  unfold Buffer.hopTo
  rw [Run.endsBind, Run.endsGet]
  generalize (if index < 0 then none else b.hopMatches[index.toNat]?) = place
  cases place with
  | none => exact Run.endsPure.mpr ⟨b.cursor, rfl⟩
  | some c => exact Run.endsBind.mpr (Run.endsPut.mpr (Run.endsPure.mpr ⟨c, rfl⟩))

theorem readyExecuteHop {e : Editor} (modal : Modal e) (waits : e.command = .executeHop) (token : Text) :
    (completeExecuteHop token).After e (Ready e) := by
  have other := modalWaits modal (by simp [waits])
  have noVisual : e.mode ≠ .visual := fun visual => by simpa [waits] using modal.visual visual
  unfold completeExecuteHop
  split
  · refine readyPushDigit modal ⟨rfl, rfl⟩ (fun d => ?_) token
    exact {
      registry := modal.registry
      inserting := fun insert => absurd insert other
      collects := modal.collects
      visual := fun visual => absurd visual noVisual
      hopping := fun _ => (modal.hopping waits).imp_right fun ⟨hop, long⟩ => ⟨hop, overlongPushed long d⟩
      hopless := fun hop => absurd waits hop }
  · split
    · refine Run.afterBindEnds (Run.endsGet.mpr ?_)
      dsimp only
      rw [← hopIndex]
      generalize writes : Text.isWritable (hopIndex e) = writable
      have last : ∀ f : Editor, f.controls = { e.controls with hop := (none, []) } →
          (if writable then finish ("hop:".toList ++ Text.ofInt (hopIndex e))
            else Run.fail .tooLongToWrite).After f (Ready e) := by
        intro f same
        simp only [controls, Controls.mk.injEq] at same
        obtain ⟨registry, mode, command, pending, hop⟩ := same
        cases writable with
        | true => exact readyEnd (registry.trans modal.registry) hop (finishEnds f _)
        | false =>
          rw [if_neg Bool.false_ne_true]
          refine ⟨?_, mode⟩
          change Modal f
          exact {
            registry := registry.trans modal.registry
            inserting := fun insert => absurd (mode ▸ insert) other
            collects := by rw [command, pending]; exact modal.collects
            visual := fun visual => absurd (mode ▸ visual) noVisual
            hopping := fun _ => .inr ⟨hop, by rw [hopIndex, pending]; exact writes⟩
            hopless := fun hop => absurd (command.trans waits) hop }
      refine Run.afterBindEnds (endsOnBuffer.mpr ?_)
      refine Run.endsMono (hopToState (hopIndex e) e.buffer) ?_
      rintro jumped _ ⟨cursor, rfl⟩
      refine Run.afterBindEnds (endsOnBuffer.mpr (Run.endsModify.mpr ?_))
      cases jumped with
      | true => exact Run.afterBindEnds (Run.endsModify.mpr (last _ rfl))
      | false => exact last _ rfl
    · exact Run.afterBindEnds (endsOnBuffer.mpr (Run.endsModify.mpr
        (readyEnd modal.registry rfl (abandonEnds _ token))))

theorem readyComplete {e : Editor} (modal : Modal e) (token : Text) :
    (complete e.command token).After e (Ready e) := by
  unfold complete
  refine Run.afterBindEnds (Run.endsGet.mpr ?_)
  cases command : e.command with
  | none => exact readyConcluded modal (by simp [command]) (concludesAbandon token e)
  | delete =>
    exact readyConcluded modal (by simp [command])
      (concludesRepeated 'd' token (fun _ => controlsCharwise.deletion (controlsDeleteDown _)
        (controlsIgnoring (Buffer.hopDeleteLine true))) e)
  | yank =>
    exact readyConcluded modal (by simp [command])
      (concludesRepeated 'y' token (fun _ => controlsCharwise.yanking) e)
  | goto => exact readyConcluded modal (by simp [command]) (concludesGoto token e)
  | findForward => exact readyConcluded modal (by simp [command]) (concludesFind 'f' _ token e)
  | findBackward => exact readyConcluded modal (by simp [command]) (concludesFind 'F' _ token e)
  | primeHop => exact readyPrimeHop modal command token
  | executeHop => exact readyExecuteHop modal command token

theorem readyReply {e later : Editor} {reply : Reply} (modal : Modal later)
    (hop : later.buffer.hop = (none, [])) (quiet : reply.command = none) : Ready e (.ok reply) later := by
  cases target : reply.switchTo with
  | none => simpa [Ready, responded, target, quiet] using modal
  | some mode => simpa [Ready, responded, target] using modalSwitched modal.registry hop mode

theorem readyAnswers {e : Editor} {m : Run Editor Reply} (modal : Modal e)
    (other : e.command ≠ .executeHop) (answers : Answers m e) : m.After e (Ready e) := by
  obtain ⟨leaves, arms⟩ := answers
  have later := modalControls modal other leaves
  have hop : (m e).state.buffer.hop = (none, []) :=
    (congrArg Controls.hop leaves).trans (modal.hopless other)
  unfold Run.After
  cases result : (m e).result with
  | error fault => exact ⟨later, congrArg Controls.mode leaves⟩
  | ok reply => exact readyReply later hop (arms reply result)

theorem insertArms (command : Command) (opener : Text) :
    Mode.insert.allows (.arm command opener) = false := by
  cases command <;> rfl

theorem readyInsertKey {e : Editor} (modal : Modal e) (insert : e.mode = .insert) (token : Text) :
    (insertKey token).After e (Ready e) := by
  have idle : e.command ≠ .executeHop := by simp [(modal.inserting insert).1]
  unfold insertKey
  refine Run.afterBindEnds (Run.endsGet.mpr ?_)
  rw [modal.registry]
  split
  · rename_i binding action found
    refine readyAnswers modal idle (performAnswers (fun command opener arms => ?_) e)
    have allowed := Keymap.standardAllows found
    rw [arms, insertArms] at allowed
    exact Bool.false_ne_true allowed
  · split
    · exact readyAnswers modal idle
        (answersBind (controlsBuffer (Buffer.hopInsertText token) e) fun _ t => answersPure rfl t)
    · exact readyAnswers modal idle (answersPure rfl e)

theorem modalArmed {e : Editor} (modal : Modal e) (idle : e.command = .none) {command : Command}
    {opener : Text} (allowed : e.mode.allows (.arm command opener) = true)
    (opens : Action.opens (.arm command opener) = true) :
    Modal { e with
      command, pending := { e.pending with typed := e.pending.typed ++ opener } } := by
  have collects := modal.collects
  rw [idle] at collects
  have typed : e.pending.typed = [] := collects
  have hop := modal.hopless (by simp [idle])
  have opened : opener = command.opener := by simpa [Action.opens] using opens
  rw [typed, opened] at *
  refine ⟨modal.registry, fun insert => ?_, ?_, fun visual => ?_, fun waits => ?_, fun _ => hop⟩
  · change e.mode = .insert at insert
    rw [insert, insertArms] at allowed
    exact absurd allowed Bool.false_ne_true
  · cases command with
    | executeHop => cases mode : e.mode <;> simp [mode, Mode.allows] at allowed
    | primeHop => exact Nat.zero_le 1
    | none | delete | yank | goto | findForward | findBackward => rfl
  · change e.mode = .visual at visual
    rw [visual] at allowed
    cases command <;> simp [Mode.allows] at allowed ⊢
  · change command = .executeHop at waits
    rw [waits] at allowed
    cases mode : e.mode <;> simp [mode, Mode.allows] at allowed

theorem readyBoundKey {e : Editor} (modal : Modal e) (idle : e.command = .none) (token : Text) :
    (boundKey token).After e (Ready e) := by
  have other : e.command ≠ .executeHop := by simp [idle]
  unfold boundKey
  refine Run.afterBindEnds (Run.endsGet.mpr ?_)
  split
  · refine Run.afterOfEnds ?_
    simp only [Run.endsBind, Run.endsLog, Run.endsPure, resetPending, Run.endsModify]
    exact readyQuiet ⟨rfl, rfl⟩ (modalRested modal other rfl)
  · rename_i binding action found
    rw [modal.registry] at found
    have allowed := Keymap.standardAllows found
    have opens := Keymap.standardOpens found
    by_cases arms : ∃ command opener, action.handler = .arm command opener
    · obtain ⟨command, opener, handler⟩ := arms
      rw [handler] at allowed opens
      refine Run.afterOfEnds ?_
      simp only [performBound, handler, perform, Run.endsBind, Run.endsSpanned, Run.endsModify,
        Run.endsPure, Option.isNone_some, Bool.false_eq_true, if_false]
      exact modalArmed modal idle allowed opens
    · have answers : Answers (performBound binding action) e :=
        performAnswers (fun command opener handler => arms ⟨command, opener, handler⟩) e
      have ready := readyAnswers modal other answers
      obtain ⟨leaves, quiet⟩ := answers
      rw [Run.afterBind]
      unfold Run.After at ready ⊢
      cases result : (performBound binding action e).result with
      | error fault => exact (result ▸ ready :)
      | ok reply =>
        have nothing := quiet reply result
        dsimp only
        rw [if_pos (by simp [nothing])]
        have rested : ((performBound binding action e).state.controls).rested = e.controls.rested :=
          congrArg Controls.rested leaves
        have modal' : Modal { (performBound binding action e).state with
            command := .none, pending := {} } := modalRested modal other rested
        exact readyReply modal' ((congrArg Controls.hop leaves).trans (modal.hopless other)) nothing

theorem readyModalKey {e : Editor} (modal : Modal e) (other : e.mode ≠ .insert) (token : Text) :
    (modalKey token).After e (Ready e) := by
  unfold modalKey
  refine Run.afterBindEnds (Run.endsGet.mpr ?_)
  split
  · exact readyComplete modal token
  · rename_i idle
    have idle' : e.command = .none := Decidable.not_not.mp idle
    split
    · refine readyPushDigit modal ⟨rfl, rfl⟩ (fun d => ?_) token
      exact {
        registry := modal.registry
        inserting := fun insert => absurd insert other
        collects := modal.collects
        visual := modal.visual
        hopping := fun waits => absurd (idle'.symm.trans waits) (by decide)
        hopless := modal.hopless }
    · exact readyBoundKey modal idle' token

def Settled (e : Editor) (r : Except Fault Reply) (later : Editor) : Prop :=
  Modal later ∧ ((∃ fault, r = .error fault) → later.mode = e.mode)

theorem settledReplied {e : Editor} {m : Run Editor Reply} (ready : m.After e (Ready e)) :
    Run.After (do
      let reply ← m
      respond reply
      if (← Run.get).buffer.version ≠ e.buffer.version then recordColumn
      pure reply) e (Settled e) := by
  rw [Run.afterBind]
  refine Run.afterMono ready fun r later post => ?_
  cases r with
  | error fault => exact ⟨post.1, fun _ => post.2⟩
  | ok reply =>
    refine Run.afterOfEnds (Run.endsBind.mpr (Run.endsMono (respondState reply later) ?_))
    rintro _ _ rfl
    rw [Run.endsBind, Run.endsGet]
    split
    · rw [Run.endsBind, recordColumn, Run.endsModify, Run.endsPure]
      exact ⟨⟨post.registry, post.inserting, post.collects, post.visual, post.hopping, post.hopless⟩,
        by simp⟩
    · exact Run.endsPure.mpr ⟨post, by simp⟩

theorem keySettled {e : Editor} (modal : Modal e) (name : Text) (modifiers : List Text) :
    (key name modifiers).After e (Settled e) := by
  unfold key
  refine Run.afterBindEnds (Run.endsGet.mpr ?_)
  dsimp only
  split
  · rename_i insert
    exact settledReplied (readyInsertKey modal insert _)
  · rename_i other
    exact settledReplied (readyModalKey modal other _)

end Editor

end ModalNotes
