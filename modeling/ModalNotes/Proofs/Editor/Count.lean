import Mathlib.Logic.Function.Iterate
import ModalNotes.Proofs.Buffer.Told
import ModalNotes.Proofs.Editor.Command
import ModalNotes.Proofs.KeyPress

/-! Counts. The digits typed before a key stand for a number, and what the key does, it does that often: the
buffer of a counted deletion is the buffer after so many deletions, and so with motions. -/
namespace ModalNotes

namespace Text

def digitOf (c : Char) : Nat := (digitValue? c).getD 0

def number (digits : Text) : Nat := digits.foldl (fun n c => n * 10 + digitOf c) 0

def count (digits : Text) : Nat := if digits.isEmpty then 1 else number digits

end Text

theorem countFolds (digits : Text) (n : Nat) :
    ((digits.map Text.digitOf).map Int.ofNat).foldl (fun count digit => count * 10 + digit) (n : Int) =
      (digits.foldl (fun n c => n * 10 + Text.digitOf c) n : Nat) := by
  induction digits generalizing n with
  | nil => rfl
  | cons c rest ih =>
    have next := ih (n * 10 + Text.digitOf c)
    simpa using next

theorem countTyped (digits typed : Text) :
    Pending.count { digits := digits.map Text.digitOf, typed } = Text.count digits := by
  unfold Pending.count countOf Text.count
  cases digits with
  | nil => rfl
  | cons c rest => exact countFolds (c :: rest) 0

theorem countPositive {digits : Text} (positive : 0 < Text.number digits) :
    Text.count digits = Text.number digits := by
  cases digits with
  | nil => contradiction
  | cons c rest => rfl

def Motion.next (m : Motion) (d : Document) (c : Cursor) : Cursor := ((m.target d c).toOption).getD c

theorem Motion.nextTarget {m : Motion} {d : Document} {c : Cursor} (sound : d.Sound) (h : d.Holds c) :
    m.target d c = .ok (m.next d c) ∧ d.Holds (m.next d c) := by
  obtain ⟨target, ok, holds⟩ := m.targetHolds sound h
  have same : m.next d c = target := by rw [next, ok]; rfl
  rw [same]
  exact ⟨ok, holds⟩

theorem Motion.nextHolds {m : Motion} {d : Document} {c : Cursor} (sound : d.Sound) (h : d.Holds c)
    (n : Nat) : d.Holds ((m.next d)^[n] c) := by
  induction n with
  | zero => exact h
  | succ n ih =>
    rw [Function.iterate_succ_apply']
    exact (nextTarget sound ih).2

theorem Document.clampRow {d : Document} {c : Cursor} (h : d.Holds c) (col : Int) :
    (d.clamp c.row col).row = c.row := by
  have inside := h.1
  simp only [lineCount] at inside
  simp only [clamp, lastRow, Int.toNat_natCast]
  omega

theorem Document.clampAt {d : Document} {row : Nat} (inside : row < d.lineCount) (col : Nat) :
    d.clamp row col = ⟨row, min col (d.width row)⟩ := by
  simp only [lineCount] at inside
  have same : min row d.lastRow = row := by
    rw [lastRow]
    omega
  simp only [clamp, Int.toNat_natCast, same]

theorem Motion.nextRow {m : Motion} {d : Document} {c c' : Cursor} (vertical : m.isVertical = true)
    (level : c.row = c'.row) : (m.next d c).row = (m.next d c').row := by
  cases m with
  | up | down | top | bottom =>
    simp only [next, target, Except.toOption, Option.getD_some, Document.clamp, level]
  | forward | back | wordForward | wordBack | lineHead | lineEnd => contradiction

namespace Editor

variable {e : Editor} {token name : Text} {modifiers : List Text}

def recorded (e later : Editor) : Editor :=
  if later.buffer.version = e.buffer.version then later
  else { later with column := some later.buffer.cursor.col }

theorem recordedStill {later : Editor} (version : later.buffer.version = e.buffer.version) :
    e.recorded later = later := if_pos version

theorem recordedAnew {later : Editor} (version : later.buffer.version ≠ e.buffer.version) :
    e.recorded later = { later with column := some later.buffer.cursor.col } := if_neg version

theorem recordedBuffer (e later : Editor) : (e.recorded later).buffer = later.buffer := by
  unfold recorded
  split <;> rfl

theorem replyResponds {m : Run Editor Reply} {Q : Reply → Editor → Prop} (work : m.Ends e Q) :
    Run.Ends (do
      let reply ← m
      respond reply
      if (← Run.get).buffer.version ≠ e.buffer.version then recordColumn
      pure reply) e fun _ later => ∃ reply f, Q reply f ∧ later = e.recorded (responded reply f) := by
  rw [Run.endsBind]
  refine Run.endsMono work fun reply f done => ?_
  rw [Run.endsBind]
  refine Run.endsMono (respondState reply f) ?_
  rintro _ _ rfl
  rw [Run.endsBind, Run.endsGet]
  split
  · rename_i changed
    rw [Run.endsBind, recordColumn, Run.endsModify, Run.endsPure]
    exact ⟨reply, f, done, (recordedAnew changed).symm⟩
  · rename_i unchanged
    rw [Run.endsPure]
    exact ⟨reply, f, done, (recordedStill (Decidable.not_not.mp unchanged)).symm⟩

theorem respondedQuiet {reply : Reply} (quiet : Quiet reply) (f : Editor) : responded reply f = f := by
  simp [responded, quiet.1, quiet.2]

theorem replyRecords {m : Run Editor Reply} {Q : Editor → Prop}
    (work : m.Ends e fun reply f => Quiet reply ∧ Q f) :
    Run.Ends (do
      let reply ← m
      respond reply
      if (← Run.get).buffer.version ≠ e.buffer.version then recordColumn
      pure reply) e fun _ later => ∃ f, Q f ∧ later = e.recorded f := by
  refine Run.endsMono (replyResponds work) ?_
  rintro _ _ ⟨reply, f, ⟨quiet, done⟩, rfl⟩
  exact ⟨f, done, by rw [respondedQuiet quiet]⟩

theorem keyResponds {Q : Reply → Editor → Prop} (other : e.mode ≠ .insert)
    (modal : (modalKey (KeyPress.token name modifiers)).Ends e Q) :
    (key name modifiers).Ends e fun _ later => ∃ reply f, Q reply f ∧ later = e.recorded (responded reply f) := by
  unfold key
  rw [Run.endsBind, Run.endsGet, if_neg other]
  exact replyResponds modal

theorem keyRecords {Q : Editor → Prop} (other : e.mode ≠ .insert)
    (modal : (modalKey (KeyPress.token name modifiers)).Ends e fun reply f => Quiet reply ∧ Q f) :
    (key name modifiers).Ends e fun _ later => ∃ f, Q f ∧ later = e.recorded f := by
  unfold key
  rw [Run.endsBind, Run.endsGet, if_neg other]
  exact replyRecords modal

theorem keyInserts {Q : Editor → Prop} (insert : e.mode = .insert)
    (work : (insertKey (KeyPress.token name modifiers)).Ends e fun reply f => Quiet reply ∧ Q f) :
    (key name modifiers).Ends e fun _ later => ∃ f, Q f ∧ later = e.recorded f := by
  unfold key
  rw [Run.endsBind, Run.endsGet, if_pos insert]
  exact replyRecords work

theorem keyInsertsResponds {Q : Reply → Editor → Prop} (insert : e.mode = .insert)
    (work : (insertKey (KeyPress.token name modifiers)).Ends e Q) :
    (key name modifiers).Ends e fun _ later => ∃ reply f, Q reply f ∧ later = e.recorded (responded reply f) := by
  unfold key
  rw [Run.endsBind, Run.endsGet, if_pos insert]
  exact replyResponds work

def typing (digits : Text) (e : Editor) : Editor :=
  { e with pending := { e.pending with digits := e.pending.digits ++ digits.map Text.digitOf } }

theorem keyDigit {c : Char} (other : e.mode ≠ .insert) (reads : e.command = .none ∨ e.command = .executeHop)
    (decimal : Text.isDecimal c = true) : (key [c] []).Ends e fun _ later => later = typing [c] e := by
  obtain ⟨value, some⟩ := Option.isSome_iff_exists.mp decimal
  have digit : isDigitKey [c] = true := by
    rw [isDigitKey, Text.isDigit, some]
    rfl
  have pushes : ∀ reply : Reply, Quiet reply → Run.Ends (do pushDigit [c]; pure reply) e fun reply f =>
      Quiet reply ∧ f = typing [c] e := by
    intro reply quiet
    rw [Run.endsBind]
    simp only [pushDigit, some, Run.endsModify, Run.endsPure]
    exact ⟨quiet, by simp [typing, Text.digitOf, some]⟩
  have pushed : (modalKey (KeyPress.token [c] [])).Ends e fun reply f => Quiet reply ∧ f = typing [c] e := by
    unfold modalKey
    rw [KeyPress.tokenSingle, Run.endsBind, Run.endsGet]
    rcases reads with idle | hops
    · rw [if_neg (not_not_intro idle), if_pos digit]
      exact pushes _ ⟨rfl, rfl⟩
    · rw [if_pos (by simp [hops]), complete, Run.endsBind, Run.endsGet, hops]
      simp only [completeExecuteHop, if_pos digit]
      exact pushes _ ⟨rfl, rfl⟩
  refine Run.endsMono (keyRecords other pushed) ?_
  rintro _ _ ⟨_, rfl, rfl⟩
  exact recordedStill rfl

def rests (e : Editor) (b : Buffer) : Editor := { e with buffer := b, command := .none, pending := {} }

theorem repeatedEnds {count : Int} {m : Run Editor Unit} {Q : Editor → Prop}
    (runs : (Run.times count.toNat m).Ends e fun _ f => Q f) :
    (repeated count m).Ends e fun _ f => Q f := by
  unfold repeated
  rw [Run.endsBind]
  refine Run.endsMono runs fun _ f done => ?_
  split
  · rw [Run.endsBind, Run.endsLog, Run.endsPure]
    exact done
  · exact Run.endsPure.mpr done

def operation? (e : Editor) (token : Text) : Option (Run Editor Unit) :=
  match e.command with
  | .delete => deletion? token e.buffer.cursor.row
  | .yank => yanking? token
  | _ => none

theorem operatorEnds {step : Run Editor Unit} {Q : Buffer → Prop} (known : e.operation? token = some step)
    (runs : (Run.times e.pending.count.toNat step).Ends e fun _ f => ∃ b, Q b ∧ f = { e with buffer := b }) :
    (modalKey token).Ends e fun reply f => Quiet reply ∧ ∃ b, Q b ∧ f = e.rests b := by
  have completes : ∀ opener, (completeRepeated opener (some step) token).Ends e fun reply f =>
      Quiet reply ∧ ∃ b, Q b ∧ f = e.rests b := by
    intro opener
    unfold completeRepeated
    rw [Run.endsBind, Run.endsGet, Run.endsBind]
    refine Run.endsMono (repeatedEnds runs) ?_
    rintro _ _ ⟨b, done, rfl⟩
    refine Run.endsMono (finishEnds _ _) ?_
    rintro reply _ ⟨quiet, rfl⟩
    exact ⟨quiet, b, done, rfl⟩
  unfold operation? at known
  unfold modalKey
  rw [Run.endsBind, Run.endsGet]
  split at known
  · rename_i waits
    rw [if_pos (by simp [waits]), waits]
    simp only [complete, Run.endsBind, Run.endsGet, known]
    exact completes 'd'
  · rename_i waits
    rw [if_pos (by simp [waits]), waits]
    simp only [complete, Run.endsBind, Run.endsGet, known]
    exact completes 'y'
  · contradiction

structure Bound (e : Editor) (token : Text) (handler : Action) : Prop where
  registry : e.registry = Keymap.standard.state
  idle : e.command = .none
  noDigit : isDigitKey token = false
  binds : Keymap.Binds e.mode token handler

theorem boundSingle {c : Char} {handler : Action} {mode : Mode} (registry : e.registry = Keymap.standard.state)
    (idle : e.command = .none) (within : e.mode = mode) (noDigit : Text.isDigit c = false)
    (binds : Keymap.Binds mode [c] handler) : e.Bound (KeyPress.token [c] []) handler := by
  rw [KeyPress.tokenSingle]
  exact ⟨registry, idle, noDigit, within.symm ▸ binds⟩

theorem Bound.answers {handler : Action} {Q : Reply → Editor → Prop} (bound : e.Bound token handler)
    (performs : (perform handler).Ends e fun reply f => reply.command = none ∧ Q reply f) :
    (modalKey token).Ends e fun reply f => ∃ g, Q reply g ∧ f = g.rests g.buffer := by
  obtain ⟨b, a, found, rfl⟩ := Keymap.bindsFound bound.binds
  rw [← bound.registry] at found
  unfold modalKey
  rw [Run.endsBind, Run.endsGet, if_neg (not_not_intro bound.idle), bound.noDigit, if_neg Bool.false_ne_true,
    boundKey, Run.endsBind, Run.endsGet]
  simp only [found, performBound, Run.endsBind, Run.endsSpanned]
  refine Run.endsMono performs ?_
  rintro reply f ⟨command, done⟩
  rw [command, Option.isNone_none, if_pos rfl, Run.endsBind, resetPending, Run.endsModify, Run.endsPure]
  exact ⟨f, done, rfl⟩

theorem Bound.ends {handler : Action} {Q : Editor → Prop} (bound : e.Bound token handler)
    (performs : (perform handler).Ends e fun reply f => Quiet reply ∧ Q f) :
    (modalKey token).Ends e fun reply f => Quiet reply ∧ ∃ g, Q g ∧ f = g.rests g.buffer := by
  have answers := bound.answers (Q := fun reply f => Quiet reply ∧ Q f)
    (Run.endsMono performs fun _ _ done => ⟨done.1.1, done⟩)
  refine Run.endsMono answers ?_
  rintro reply f ⟨g, ⟨quiet, done⟩, same⟩
  exact ⟨quiet, g, done, same⟩

theorem Bound.arms {command : Command} {opener : Text} (other : e.mode ≠ .insert)
    (bound : e.Bound (KeyPress.token name modifiers) (.arm command opener)) :
    (key name modifiers).Ends e fun _ later => later = e.armed command opener := by
  obtain ⟨b, a, found, arms⟩ := Keymap.bindsFound bound.binds
  rw [← bound.registry] at found
  exact Run.endsMono (keyArms other bound.idle bound.noDigit found arms) fun _ _ done => done.2

theorem timesIgnoring {m : Run Buffer Bool} (safe : Buffer.Safe m) (sound : e.buffer.Sound) (n : Nat) :
    (Run.times n (ignoringResult m)).Ends e fun _ f => f = { e with buffer := Buffer.again m n e.buffer } := by
  have rounds := Run.endsRounds (m := ignoringResult m)
    (I := fun k f => f = { e with buffer := Buffer.again m k e.buffer }) (k := 0) (s := e) ?_ n rfl
  · simpa using rounds
  rintro k _ rfl
  obtain ⟨changed, ok, -⟩ := safe _ (Buffer.againFollows safe sound k).sound
  unfold ignoringResult
  rw [Run.endsBind, endsOnBuffer]
  exact ⟨changed, ok, Run.endsPure.mpr (by rw [Buffer.againSucc])⟩

def placed (e : Editor) (c : Cursor) : Editor := { e with buffer := { e.buffer with cursor := c } }

theorem onceEnds {m : Motion} (sound : e.buffer.Sound) : (moveOnce m).Ends e fun _ f =>
    f = e.placed (m.next e.buffer.document e.buffer.cursor) := by
  obtain ⟨target, -⟩ := Motion.nextTarget (m := m) sound.document sound.cursor
  unfold moveOnce Buffer.move
  rw [Run.endsBind, endsOnBuffer]
  simp only [Run.endsBind, Run.endsGet, Run.endsOfExcept, Run.endsPut, Run.endsPure]
  exact ⟨_, target, rfl⟩

theorem timesOnce {m : Motion} (sound : e.buffer.Sound) (n : Nat) :
    (Run.times n (moveOnce m)).Ends e fun _ f =>
      f = e.placed ((m.next e.buffer.document)^[n] e.buffer.cursor) := by
  have rounds := Run.endsRounds (m := moveOnce m)
    (I := fun k f => f = e.placed ((m.next e.buffer.document)^[k] e.buffer.cursor)) (k := 0) (s := e) ?_ n rfl
  · simpa using rounds
  rintro k _ rfl
  have holds := Motion.nextHolds (m := m) sound.document sound.cursor k
  refine Run.endsMono (onceEnds ⟨sound.document, holds, sound.anchors⟩) ?_
  rintro _ _ rfl
  rw [Function.iterate_succ_apply']
  rfl

def moved (m : Motion) (n : Nat) (e : Editor) : Editor :=
  let d := e.buffer.document
  let c := (m.next d)^[n] e.buffer.cursor
  let col := e.column.getD e.buffer.cursor.col
  if m.isVertical then { e.placed (d.clamp c.row col) with column := some col }
  else { e.placed c with column := some c.col }

theorem movedVertical {m : Motion} (vertical : m.isVertical = true) (n : Nat) (e : Editor) :
    moved m n e =
      { e.placed (e.buffer.document.clamp ((m.next e.buffer.document)^[n] e.buffer.cursor).row
          (e.column.getD e.buffer.cursor.col)) with
        column := some (e.column.getD e.buffer.cursor.col) } := if_pos vertical

theorem returnsEnds {m : Motion} (count : Int) (sound : e.buffer.Sound) (vertical : m.isVertical = true) :
    Run.Ends (do
      let count ← repeated count (moveOnce m)
      restoreColumn
      pure count) { e with column := some (e.column.getD e.buffer.cursor.col) } fun _ f =>
        f = moved m count.toNat e := by
  rw [Run.endsBind]
  refine Run.endsMono (repeatedEnds (timesOnce (by exact sound) count.toNat)) ?_
  rintro _ _ rfl
  rw [Run.endsBind]
  unfold restoreColumn
  rw [Run.endsBind, Run.endsGet, endsOnBuffer, Buffer.jump, Run.endsModify, Run.endsPure, movedVertical vertical]
  simp only [placed, Option.getD_some]

theorem moveEnds {m : Motion} {count : Int} (sound : e.buffer.Sound) :
    (move m count).Ends e fun _ f => f = moved m count.toNat e := by
  unfold move
  split
  · rename_i vertical
    have returns := returnsEnds count sound vertical
    rw [Run.endsBind, Run.endsGet]
    cases column : e.column with
    | none =>
      rw [Option.isNone_none, if_pos rfl, Run.endsBind, recordColumn, Run.endsModify]
      simpa only [column, Option.getD_none] using returns
    | some col =>
      have known : { e with column := some col } = e := by rw [← column]
      rw [column, Option.getD_some, known] at returns
      exact returns
  · rename_i level
    rw [Run.endsBind]
    refine Run.endsMono (repeatedEnds (timesOnce sound count.toNat)) ?_
    rintro _ _ rfl
    rw [Run.endsBind, recordColumn, Run.endsModify, Run.endsPure, moved, if_neg level]
    rfl

theorem movedSteady (m : Motion) (sound : e.buffer.Sound) (n : Nat) :
    e.buffer.Steady (moved m n e).buffer := by
  unfold moved
  dsimp only
  split
  · exact ⟨rfl, Document.clampHolds sound.document _ _, rfl, rfl⟩
  · exact ⟨rfl, Motion.nextHolds sound.document sound.cursor n, rfl, rfl⟩

/- One step more, with the column recorded in between, comes to the same: between the steps of a vertical
motion only the row counts, and the column it returns to is the one it started in. -/
theorem movedAgain (m : Motion) (sound : e.buffer.Sound) (n : Nat) :
    moved m 1 (moved m n e) = moved m (n + 1) e := by
  have holds := Motion.nextHolds (m := m) sound.document sound.cursor n
  unfold moved
  cases vertical : m.isVertical with
  | true =>
    simp only [if_true, placed, Option.getD_some, Function.iterate_succ_apply', Function.iterate_zero_apply]
    rw [Motion.nextRow vertical (Document.clampRow holds _)]
  | false =>
    simp only [Bool.false_eq_true, if_false, placed, Function.iterate_succ_apply', Function.iterate_zero_apply]

def changed (m : Run Buffer Bool) (n : Nat) (e : Editor) : Editor :=
  e.recorded (e.rests (Buffer.again m n e.buffer))

theorem changedBuffer (m : Run Buffer Bool) (n : Nat) (e : Editor) :
    (changed m n e).buffer = Buffer.again m n e.buffer := recordedBuffer e _

theorem changedAgain {m : Run Buffer Bool} (safe : Buffer.Safe m) (told : Buffer.Told m)
    (sound : e.buffer.Sound) (n : Nat) : changed m 1 (changed m n e) = changed m (n + 1) e := by
  have follows := Buffer.againFollows safe sound n
  obtain ⟨_, -, step⟩ := told _ follows.sound
  have once : Buffer.again m 1 (changed m n e).buffer = Buffer.again m (n + 1) e.buffer := by
    rw [changedBuffer, Buffer.againSucc, Buffer.againSucc]
    rfl
  rw [← Buffer.againSucc] at step
  rw [changed, once]
  rcases step with same | grown
  · have done : (changed m n e).rests (Buffer.again m n e.buffer) = changed m n e := by
      unfold changed recorded
      split <;> rfl
    rw [same, done, recordedStill rfl, changed, changed, same]
  · have version := follows.version
    have further : Buffer.version (Buffer.again m (n + 1) e.buffer) ≠ (changed m n e).buffer.version := by
      rw [changedBuffer]
      omega
    have further' : Buffer.version (Buffer.again m (n + 1) e.buffer) ≠ e.buffer.version := by omega
    have last : changed m (n + 1) e =
        { e.rests (Buffer.again m (n + 1) e.buffer) with
          column := some (Buffer.again m (n + 1) e.buffer).cursor.col } := recordedAnew further'
    have again : recorded (changed m n e) ((changed m n e).rests (Buffer.again m (n + 1) e.buffer)) =
        { (changed m n e).rests (Buffer.again m (n + 1) e.buffer) with
          column := some (Buffer.again m (n + 1) e.buffer).cursor.col } := recordedAnew further
    rw [last, again]
    unfold changed recorded
    split <;> rfl

def stepped (m : Motion) (n : Nat) (e : Editor) : Editor := (moved m n e).rests (moved m n e).buffer

theorem movedRests (m : Motion) (n : Nat) (e : Editor) : moved m n (e.rests e.buffer) = stepped m n e := by
  unfold stepped moved
  dsimp only
  split <;> rfl

theorem steppedAgain (m : Motion) (sound : e.buffer.Sound) (n : Nat) :
    stepped m 1 (stepped m n e) = stepped m (n + 1) e := by
  have next := movedAgain m (e := e.rests e.buffer) sound n
  rw [movedRests, movedRests] at next
  rw [← next]
  unfold stepped moved
  dsimp only
  split <;> rfl

theorem motionKey {m : Motion} (sound : e.buffer.Sound) (other : e.mode ≠ .insert)
    (bound : e.Bound (KeyPress.token name modifiers) (.move m)) :
    (key name modifiers).Ends e fun _ later => later = stepped m e.pending.count.toNat e := by
  have performs : (perform (.move m)).Ends e fun reply f =>
      Quiet reply ∧ f = moved m e.pending.count.toNat e := by
    unfold perform
    rw [Run.endsBind, Run.endsGet, Run.endsBind]
    refine Run.endsMono (moveEnds sound) fun _ f same => ?_
    exact Run.endsPure.mpr ⟨⟨rfl, rfl⟩, same⟩
  refine Run.endsMono (keyRecords other (bound.ends performs)) ?_
  rintro _ _ ⟨_, ⟨_, rfl, rfl⟩, rfl⟩
  exact recordedStill (congrArg Document.version (movedSteady m sound _).document)

theorem boundInserts {handler : Action} {Q : Reply → Editor → Prop}
    (registry : e.registry = Keymap.standard.state) (binds : Keymap.Binds .insert token handler)
    (performs : (perform handler).Ends e Q) : (insertKey token).Ends e Q := by
  obtain ⟨b, a, found, rfl⟩ := Keymap.bindsFound binds
  rw [← registry] at found
  unfold insertKey
  rw [Run.endsBind, Run.endsGet]
  simp only [found, performBound, Run.endsSpanned]
  exact performs

theorem arrowKey {m : Motion} (sound : e.buffer.Sound) (insert : e.mode = .insert)
    (registry : e.registry = Keymap.standard.state)
    (binds : Keymap.Binds .insert (KeyPress.token name modifiers) (.arrow m)) :
    (key name modifiers).Ends e fun _ later => later = moved m 1 e := by
  have performs : (perform (.arrow m)).Ends e fun reply f => Quiet reply ∧ f = moved m 1 e := by
    unfold perform
    rw [Run.endsBind]
    refine Run.endsMono (moveEnds sound) fun _ f same => ?_
    exact Run.endsPure.mpr ⟨⟨rfl, rfl⟩, same⟩
  refine Run.endsMono (keyInserts insert (boundInserts registry binds performs)) ?_
  rintro _ _ ⟨_, rfl, rfl⟩
  exact recordedStill (congrArg Document.version (movedSteady m sound _).document)

theorem deleteNextKey (sound : e.buffer.Sound) (other : e.mode ≠ .insert)
    (bound : e.Bound (KeyPress.token name modifiers) .deleteNextChar) :
    (key name modifiers).Ends e fun _ later =>
      later = changed Buffer.deleteNextChar e.pending.count.toNat e := by
  have performs : (perform .deleteNextChar).Ends e fun reply f => Quiet reply ∧
      f = { e with buffer := Buffer.again Buffer.deleteNextChar e.pending.count.toNat e.buffer } := by
    unfold perform
    rw [Run.endsBind, Run.endsGet, Run.endsBind]
    refine Run.endsMono (repeatedEnds (timesIgnoring Buffer.safeDeleteNextChar sound _)) fun _ f same => ?_
    exact Run.endsPure.mpr ⟨⟨rfl, rfl⟩, same⟩
  refine Run.endsMono (keyRecords other (bound.ends performs)) ?_
  rintro _ _ ⟨_, ⟨_, rfl, rfl⟩, rfl⟩
  rfl

end Editor

end ModalNotes
