import ModalNotes.Proofs.Editor.Count
import ModalNotes.Proofs.Session.Command

/-! A count is repetition. Digits typed before a motion or a deletion leave the editor that as many motions or
deletions without a count leave, to the column it remembers and the changes it can undo. -/
namespace ModalNotes

namespace Session

section
variable {s : Session} {name : Text} {modifiers : List Text}

def presses (keys : List Text) : List Input := keys.map fun name => .key name []

def typed (digits : Text) : List Input := digits.map fun c => .key [c] []

theorem afterAppend (s : Session) (first rest : List Input) :
    s.after (first ++ rest) = (s.after first).after rest := List.foldl_append

theorem afterKey (s : Session) (name : Text) (modifiers : List Text) :
    s.after [.key name modifiers] = (key name modifiers s).state := Run.ignoredState (key name modifiers) s

theorem keyEditorAlone {e : Editor} (ends : (Editor.key name modifiers).Ends s.editor fun _ later => later = e)
    (buffer : e.buffer.Sound) (drawn : e.buffer.newAnchor = none) :
    (key name modifiers s).state.editor = e := by
  have same : ({ e.buffer with newAnchor := none } : Buffer) = e.buffer := by rw [← drawn]
  have post : { e with buffer := { e.buffer with newAnchor := none } } = e :=
    congrArg (fun buffer => { e with buffer }) same
  have done : (key name modifiers).After s fun _ later => later.editor = e := by
    unfold key
    refine Run.afterBindEnds (Run.endsGet.mpr (Run.afterBindEnds (endsOnEditor.mpr (Run.endsMono ends ?_))))
    rintro reply _ rfl
    refine Run.afterBindEnds (Run.endsGet.mpr ?_)
    split
    · rw [Run.afterBind, Run.After]
      split
      · exact Run.afterOfEnds (takeNone buffer drawn post)
      · rfl
    · exact Run.afterOfEnds (takeNone buffer drawn post)
  exact done

theorem afterFollowed {e : Editor} (sound : s.Sound)
    (ends : (Editor.key name modifiers).Ends s.editor fun _ later => later = e)
    (follows : s.buffer.Follows e.buffer) : (s.after [.key name modifiers]).editor = e := by
  rw [afterKey]
  exact keyEditorAlone ends follows.sound (follows.drawn.trans sound.taken)

theorem afterStill {e : Editor} (ends : (Editor.key name modifiers).Ends s.editor fun _ later => later = e)
    (buffer : e.buffer.Sound) (version : e.buffer.version = s.buffer.version)
    (drawn : e.buffer.newAnchor = none) : s.after [.key name modifiers] = { s with editor := e } := by
  have answered : (Editor.key name modifiers).Ends s.editor fun _ later => True ∧ later = e :=
    Run.endsMono ends fun _ _ same => ⟨trivial, same⟩
  obtain ⟨_, -, -, same⟩ := keyEditor (P := fun _ => True) answered buffer version drawn
  rw [afterKey, same]

theorem typedAfter (sound : s.Sound) (other : s.editor.mode ≠ .insert)
    (reads : s.editor.command = .none ∨ s.editor.command = .executeHop) {digits : Text}
    (decimal : ∀ c ∈ digits, Text.isDecimal c = true) :
    s.after (typed digits) = { s with editor := s.editor.typing digits } := by
  induction digits generalizing s with
  | nil =>
    have none : s.editor.typing [] = s.editor := by simp [Editor.typing]
    rw [none]
    rfl
  | cons c rest ih =>
    obtain ⟨first, others⟩ := List.forall_mem_cons.mp decimal
    have digit : s.after [.key [c] []] = { s with editor := s.editor.typing [c] } :=
      afterStill (Editor.keyDigit other reads first) sound.editor.buffer rfl sound.taken
    have sound' : Sound { s with editor := s.editor.typing [c] } := digit ▸ afterSound sound _
    have all : s.after (typed (c :: rest)) = (s.after [.key [c] []]).after (typed rest) := rfl
    have joined : (s.editor.typing [c]).typing rest = s.editor.typing (c :: rest) := by
      simp [Editor.typing]
    rw [all, digit, ih sound' other reads others, joined]

theorem armedAfter {command : Command} {opener : Text} (sound : s.Sound) (other : s.editor.mode ≠ .insert)
    (bound : s.editor.Bound (KeyPress.token name modifiers) (.arm command opener)) :
    s.after [.key name modifiers] = { s with editor := s.editor.armed command opener } :=
  afterStill (bound.arms other) sound.editor.buffer rfl sound.taken

structure Idle (s : Session) : Prop where
  command : s.editor.command = .none
  pending : s.editor.pending = {}

theorem ofBufferIdle (registry : Registry Action) (b : Buffer) (title : Text) (links : LinkStore) :
    (ofBuffer registry b title links).buffer = b ∧ (ofBuffer registry b title links).editor.mode = .normal ∧
      (ofBuffer registry b title links).editor.column = none ∧ Idle (ofBuffer registry b title links) :=
  ⟨rfl, rfl, rfl, rfl, rfl⟩

theorem freshIdle (title text : Text) (maxHistory : Int) :
    ∃ s, ((fresh title text maxHistory : Run Unit Session) ()).result = .ok s ∧
      s.buffer = Buffer.ofText text maxHistory ∧ s.editor.mode = .normal ∧ s.editor.column = none ∧ Idle s :=
  ⟨ofBuffer Keymap.standard.state (Buffer.ofText text maxHistory) title {}, rfl, ofBufferIdle _ _ _ _⟩

structure Turns (turn : Nat → Editor → Editor) : Prop where
  again : ∀ n (e : Editor), e.buffer.Sound → turn 1 (turn n e) = turn (n + 1) e
  typing : ∀ n digits (e : Editor), turn n (e.typing digits) = turn n e
  mode : ∀ n e, (turn n e).mode = e.mode
  rests : ∀ n e, (turn n e).command = .none ∧ (turn n e).pending = {}

theorem steppedTurns (m : Motion) : Turns (Editor.stepped m) where
  again n _ sound := Editor.steppedAgain m sound n
  typing n digits e := by
    unfold Editor.stepped Editor.moved
    dsimp only
    split <;> rfl
  mode n e := by
    unfold Editor.stepped Editor.moved
    dsimp only
    split <;> rfl
  rests _ _ := ⟨rfl, rfl⟩

theorem changedTurns {m : Run Buffer Bool} (safe : Buffer.Safe m) (told : Buffer.Told m) :
    Turns (Editor.changed m) where
  again n _ sound := Editor.changedAgain safe told sound n
  typing n digits e := rfl
  mode n e := by
    unfold Editor.changed Editor.recorded
    split <;> rfl
  rests n e := by
    unfold Editor.changed Editor.recorded
    split <;> exact ⟨rfl, rfl⟩

def Counts (mode : Mode) (keys : List Text) (turn : Nat → Editor → Editor) : Prop :=
  ∀ s : Session, s.Sound → s.editor.mode = mode → s.editor.command = .none →
    (s.after (presses keys)).editor = turn s.editor.pending.count.toNat s.editor

section
variable {mode : Mode} {keys : List Text} {turn : Nat → Editor → Editor}

theorem turnsUncounted (turns : Turns turn) (counts : Counts mode keys turn) (sound : s.Sound)
    (same : s.editor.mode = mode) (idle : Idle s) (n : Nat) :
    (s.after (List.replicate (n + 1) (presses keys)).flatten).editor = turn (n + 1) s.editor := by
  induction n with
  | zero =>
    have once := counts s sound same idle.command
    rw [idle.pending] at once
    simp only [Nat.zero_add, List.replicate_one, List.flatten_singleton]
    exact once
  | succ n ih =>
    rw [List.replicate_succ', List.flatten_append, List.flatten_singleton, afterAppend]
    have sound' := afterSound sound (List.replicate (n + 1) (presses keys)).flatten
    obtain ⟨command, pending⟩ := turns.rests (n + 1) s.editor
    have last := counts _ sound' (by rw [ih, turns.mode, same]) (by rw [ih, command])
    rw [ih, pending] at last
    exact last.trans (turns.again (n + 1) s.editor sound.editor.buffer)

theorem turnsCounted (turns : Turns turn) (counts : Counts mode keys turn) (other : mode ≠ .insert)
    (sound : s.Sound) (same : s.editor.mode = mode) (idle : Idle s) {digits : Text}
    (decimal : ∀ c ∈ digits, Text.isDecimal c = true) :
    (s.after (typed digits ++ presses keys)).editor = turn (Text.count digits) s.editor := by
  have typed' := typedAfter sound (same ▸ other) (.inl idle.command) decimal
  have sound' := afterSound sound (typed digits)
  rw [afterAppend, typed']
  rw [typed'] at sound'
  have last := counts _ sound' same idle.command
  have count : (s.editor.typing digits).pending.count = Text.count digits := by
    have all := countTyped digits []
    simpa [Editor.typing, idle.pending] using all
  rw [last, count, Int.toNat_natCast, turns.typing]

end

def strides : List (Text × Motion) := [
  (['h'], .back), (['l'], .forward), (['j'], .down), (['k'], .up), (['w'], .wordForward), (['b'], .wordBack),
  ("left".toList, .back), ("right".toList, .forward), ("down".toList, .down), ("up".toList, .up)]

def kills : List ((Char × Char) × Run Buffer Bool) := [
  (('d', 'h'), Buffer.deleteChar), (('d', 'l'), Buffer.deleteNextChar), (('d', 'w'), Buffer.deleteNextWord),
  (('d', 'b'), Buffer.deleteWord), (('d', 'k'), Buffer.deleteLine true), (('y', 'l'), Buffer.deleteNextChar),
  (('y', 'w'), Buffer.deleteNextWord), (('y', 'b'), Buffer.deleteWord)]

def countable : Mode → List (List Text)
  | .normal => strides.map (fun stride => [stride.1]) ++ [['x']] :: kills.map fun kill => [[kill.1.1], [kill.1.2]]
  | .visual => strides.map fun stride => [stride.1]
  | .insert => []

theorem stridesBound : ∀ stride ∈ strides, KeyPress.token stride.1 [] = stride.1 ∧
    Editor.isDigitKey stride.1 = false ∧
      ∀ mode ∈ [Mode.normal, .visual], Keymap.Binds mode stride.1 (.move stride.2) := by decide +kernel

theorem stridesCount {stride : Text × Motion} (member : stride ∈ strides) {mode : Mode}
    (modal : mode ∈ [Mode.normal, .visual]) : Counts mode [stride.1] (Editor.stepped stride.2) := by
  rintro s sound rfl idle
  obtain ⟨token, noDigit, binds⟩ := stridesBound stride member
  have other : s.editor.mode ≠ .insert := by
    intro insert
    rw [insert] at modal
    exact absurd modal (by decide)
  have bound : s.editor.Bound (KeyPress.token stride.1 []) (.move stride.2) :=
    ⟨sound.editor.registry, idle, token.symm ▸ noDigit, token.symm ▸ binds _ modal⟩
  have steady := Editor.movedSteady stride.2 sound.editor.buffer s.editor.pending.count.toNat
  exact afterFollowed sound (Editor.motionKey sound.editor.buffer other bound)
    (steady.follows sound.editor.buffer)

theorem changedFollows {m : Run Buffer Bool} (safe : Buffer.Safe m) (sound : s.Sound) (n : Nat) :
    s.buffer.Follows (Editor.changed m n s.editor).buffer := by
  rw [Editor.changedBuffer]
  exact Buffer.againFollows safe sound.editor.buffer n

theorem removalsBound : Keymap.Binds .normal ['x'] .deleteNextChar ∧
    Keymap.Binds .normal ['d'] (.arm .delete ['d']) ∧ Keymap.Binds .normal ['y'] (.arm .yank ['y']) := by
  decide +kernel

theorem deleteBound : Keymap.Binds .normal ['d'] (.arm .delete ['d']) := removalsBound.2.1

theorem nextCharCounts : Counts .normal [['x']] (Editor.changed Buffer.deleteNextChar) := by
  rintro s sound normal idle
  have bound : s.editor.Bound (KeyPress.token ['x'] []) .deleteNextChar :=
    Editor.boundSingle sound.editor.registry idle normal (by decide) removalsBound.1
  exact afterFollowed sound (Editor.deleteNextKey sound.editor.buffer (by simp [normal]) bound)
    (changedFollows Buffer.safeDeleteNextChar sound _)

theorem operatedAfter {first second : Char} {command : Command} {opener : Text} {step : Run Editor Unit}
    {Q : Buffer → Prop} (sound : s.Sound) (normal : s.editor.mode = .normal) (idle : s.editor.command = .none)
    (binds : Keymap.Binds .normal [first] (.arm command opener)) (noDigit : Text.isDigit first = false)
    (known : (s.editor.armed command opener).operation? [second] = some step)
    (runs : (Run.times s.editor.pending.count.toNat step).Ends (s.editor.armed command opener) fun _ f =>
      ∃ b, Q b ∧ f = { s.editor.armed command opener with buffer := b })
    (follows : ∀ b, Q b → s.buffer.Follows b) :
    ∃ b, Q b ∧ (s.after (presses [[first], [second]])).editor = s.editor.recorded (s.editor.rests b) := by
  have other : s.editor.mode ≠ .insert := by simp [normal]
  have armed := armedAfter sound other (Editor.boundSingle sound.editor.registry idle normal noDigit binds)
  have sound' := afterSound sound [.key [first] []]
  rw [armed] at sound'
  have both : s.after (presses [[first], [second]]) =
      (s.after [.key [first] []]).after [.key [second] []] := rfl
  have done := Editor.operatorEnds ((KeyPress.tokenSingle second).symm ▸ known) runs
  obtain ⟨reply, ok, _, ⟨b, made, rfl⟩, same⟩ :=
    Editor.keyRecords (e := s.editor.armed command opener) other done
  refine ⟨b, made, ?_⟩
  rw [both, armed]
  refine afterFollowed (e := s.editor.recorded (s.editor.rests b)) sound' ⟨reply, ok, same⟩ ?_
  exact (Editor.recordedBuffer s.editor (s.editor.rests b)).symm ▸ follows b made

theorem operatorCounts {first second : Char} {command : Command} {opener : Text} {m : Run Buffer Bool}
    (binds : Keymap.Binds .normal [first] (.arm command opener)) (noDigit : Text.isDigit first = false)
    (known : ∀ e : Editor, e.command = command → e.operation? [second] = some (Editor.ignoringResult m))
    (safe : Buffer.Safe m) : Counts .normal [[first], [second]] (Editor.changed m) := by
  intro s sound normal idle
  have buffer := sound.editor.buffer
  have runs := Editor.timesIgnoring (e := s.editor.armed command opener) safe buffer s.editor.pending.count.toNat
  obtain ⟨_, rfl, same⟩ := operatedAfter
    (Q := fun b => b = Buffer.again m s.editor.pending.count.toNat s.buffer) sound normal idle binds noDigit
    (known _ rfl) (Run.endsMono runs fun _ _ done => ⟨_, rfl, done⟩)
    (by rintro _ rfl; exact Buffer.againFollows safe buffer _)
  exact same

theorem deleteCounts {second : Char} {m : Run Buffer Bool}
    (known : ∀ row, Editor.deletion? [second] row = some (Editor.ignoringResult m)) (safe : Buffer.Safe m)
    (told : Buffer.Told m) :
    Counts .normal [['d'], [second]] (Editor.changed m) ∧ Turns (Editor.changed m) := by
  refine ⟨operatorCounts deleteBound (by decide) (fun e waits => ?_) safe, changedTurns safe told⟩
  rw [Editor.operation?, waits]
  exact known _

theorem yankCounts {second : Char} {m : Run Buffer Bool}
    (known : Editor.yanking? [second] = some (Editor.ignoringResult m)) (safe : Buffer.Safe m)
    (told : Buffer.Told m) :
    Counts .normal [['y'], [second]] (Editor.changed m) ∧ Turns (Editor.changed m) := by
  refine ⟨operatorCounts removalsBound.2.2 (by decide) (fun e waits => ?_) safe, changedTurns safe told⟩
  rw [Editor.operation?, waits]
  exact known

theorem killsCount : ∀ kill ∈ kills,
    Counts .normal [[kill.1.1], [kill.1.2]] (Editor.changed kill.2) ∧ Turns (Editor.changed kill.2) := by
  simp only [kills, List.forall_mem_cons]
  refine ⟨?left, ?right, ?word, ?wordBack, ?lineUp, ?yankRight, ?yankWord, ?yankBack, nofun⟩
  case left => exact deleteCounts (fun _ => rfl) Buffer.safeDeleteChar Buffer.toldDeleteChar
  case right => exact deleteCounts (fun _ => rfl) Buffer.safeDeleteNextChar Buffer.toldDeleteNextChar
  case word => exact deleteCounts (fun _ => rfl) Buffer.safeDeleteNextWord Buffer.toldDeleteNextWord
  case wordBack => exact deleteCounts (fun _ => rfl) Buffer.safeDeleteWord Buffer.toldDeleteWord
  case lineUp => exact deleteCounts (fun _ => rfl) (Buffer.safeDeleteLine true) (Buffer.toldDeleteLine true)
  case yankRight => exact yankCounts rfl Buffer.safeDeleteNextChar Buffer.toldDeleteNextChar
  case yankWord => exact yankCounts rfl Buffer.safeDeleteNextWord Buffer.toldDeleteNextWord
  case yankBack => exact yankCounts rfl Buffer.safeDeleteWord Buffer.toldDeleteWord

theorem countableTurns {mode : Mode} {keys : List Text} (member : keys ∈ countable mode) :
    mode ≠ .insert ∧ ∃ turn, Counts mode keys turn ∧ Turns turn := by
  have moves : ∀ mode ∈ [Mode.normal, .visual], keys ∈ strides.map (fun stride => [stride.1]) →
      ∃ turn, Counts mode keys turn ∧ Turns turn := by
    intro mode modal inside
    obtain ⟨stride, known, rfl⟩ := List.mem_map.mp inside
    exact ⟨_, stridesCount known modal, steppedTurns stride.2⟩
  cases mode with
  | insert => exact absurd member List.not_mem_nil
  | visual => exact ⟨by decide, moves .visual (by decide) member⟩
  | normal =>
    refine ⟨by decide, ?_⟩
    rcases List.mem_append.mp member with inside | inside
    · exact moves .normal (by decide) inside
    rcases List.mem_cons.mp inside with rfl | inside
    · exact ⟨_, nextCharCounts, changedTurns Buffer.safeDeleteNextChar Buffer.toldDeleteNextChar⟩
    · obtain ⟨kill, known, rfl⟩ := List.mem_map.mp inside
      exact ⟨_, killsCount kill known⟩

end

/- A command behind a number leaves the editor that it leaves when it is typed as often as the number says:
text and version, cursor and column, registers, anchors and history are the same. -/
theorem countIsRepetition {s : Session} (sound : s.Sound) (idle : Idle s) {digits : Text}
    (decimal : ∀ c ∈ digits, Text.isDecimal c = true) (positive : 0 < Text.number digits) {keys : List Text}
    (member : keys ∈ countable s.editor.mode) :
    (s.after (typed digits ++ presses keys)).editor =
      (s.after (List.replicate (Text.number digits) (presses keys)).flatten).editor := by
  obtain ⟨other, turn, counts, turns⟩ := countableTurns member
  rw [turnsCounted turns counts other sound rfl idle decimal, countPositive positive]
  obtain ⟨n, number⟩ : ∃ n, Text.number digits = n + 1 := ⟨Text.number digits - 1, by omega⟩
  rw [number, turnsUncounted turns counts sound rfl idle n]

theorem twoWordsRepeated : ∃ s, ((fresh [] "ab cd ef".toList 100 : Run Unit Session) ()).result = .ok s ∧
    (s.after (typed ['0', '2'] ++ presses [['d'], ['w']])).editor =
      (s.after (List.replicate 2 (presses [['d'], ['w']])).flatten).editor := by
  obtain ⟨s, opened, -, mode, -, idle⟩ := freshIdle [] "ab cd ef".toList 100
  have number : Text.number ['0', '2'] = 2 := by decide +kernel
  have member : [['d'], ['w']] ∈ countable s.editor.mode := by
    rw [mode]
    decide
  have repeats := countIsRepetition (openedSound (.fresh [] "ab cd ef".toList 100 opened)) idle
    (List.all_eq_true.mp (by decide : ['0', '2'].all Text.isDecimal = true))
    (by rw [number]; exact Nat.zero_lt_two) member
  rw [number] at repeats
  exact ⟨s, opened, repeats⟩

end Session

end ModalNotes
