import ModalNotes.Proofs.Buffer.Blind
import ModalNotes.Proofs.Buffer.Motion
import ModalNotes.Proofs.Buffer.Record

/-! Undo by replacements against undo by snapshots. The album keeps whole texts, a position among them, and
for each text that an edit left the place of the cursor by then. It makes each change on its own text; undo
and redo of a buffer turn its pages. -/
namespace ModalNotes

theorem Document.ensureHolds {d : Document} {p : Point} {c : Cursor} (ok : d.ensure p = .ok c) :
    d.Holds c ∧ p = c.toPoint := by
  obtain ⟨row, col⟩ := p
  unfold ensure at ok
  split at ok
  · contradiction
  split at ok
  · contradiction
  · rename_i inside short
    cases ok
    simp at inside short
    have row' : (row.toNat : Int) = row := by omega
    have col' : (col.toNat : Int) = col := by omega
    refine ⟨⟨?_, ?_⟩, ?_⟩ <;> simp [Cursor.toPoint] <;> omega

inductive Change
  | insertText (text : Text)
  | insertNewline
  | insertTab
  | deleteChar
  | deleteNextChar
  | deleteToLineEnd
  | deleteLine (moveUp : Bool)
  | deleteNextWord
  | deleteWord
  | openLineBelow
  | openLineAbove
  | paste
  | replaceRange (start stop : Point) (text label : Text)

namespace Change

def run : Change → Run Buffer Bool
  | insertText text => do let _ ← Buffer.insertText text; pure true
  | insertNewline => do let _ ← Buffer.insertNewline; pure true
  | insertTab => do let _ ← Buffer.insertTab; pure true
  | deleteChar => Buffer.deleteChar
  | deleteNextChar => Buffer.deleteNextChar
  | deleteToLineEnd => Buffer.deleteToLineEnd
  | deleteLine moveUp => Buffer.deleteLine moveUp
  | deleteNextWord => Buffer.deleteNextWord
  | deleteWord => Buffer.deleteWord
  | openLineBelow => do let _ ← Buffer.openLineBelow; pure true
  | openLineAbove => do let _ ← Buffer.openLineAbove; pure true
  | paste => Buffer.paste
  | replaceRange start stop text label => do let _ ← Buffer.replaceRange start stop text label; pure true

def place (b : Buffer) : Change → Cursor
  | openLineBelow => ⟨b.cursor.row, b.document.width b.cursor.row⟩
  | _ => b.cursor

def Made (b : Buffer) (place : Cursor) (r : Except Fault Bool) (later : Buffer) : Prop :=
  later.Sound ∧ match r with
    | .ok true => b.Recorded later place
    | _ => b.Untouched later

section
open Buffer
variable {b : Buffer} {place : Cursor}

theorem madeTells {m : Run Buffer Bool} (sound : b.Sound) (safe : Buffer.Safe m)
    (tells : m.Ends b (b.Tells place)) : m.After b (Made b place) := by
  refine Run.afterOfEnds (Run.endsMono (Run.endsBoth (safe b sound) tells) ?_)
  rintro made later ⟨⟨follows, -⟩, tells⟩
  cases made <;> exact ⟨follows.sound, tells⟩

theorem madeEdit {α : Type} {m : Run Buffer α} (sound : b.Sound) (safe : Buffer.Safe m)
    (recorded : m.Ends b fun _ later => b.Recorded later place) :
    Run.After (do let _ ← m; pure true) b (Made b place) :=
  madeTells sound (Buffer.safeBind safe fun _ => Buffer.safePure true) (Buffer.tellsEdit recorded)

theorem madeReplaceRange (sound : b.Sound) (start stop : Point) (text label : Text) :
    Run.After (do let _ ← Buffer.replaceRange start stop text label; pure true) b (Made b b.cursor) := by
  cases first : b.document.ensure start with
  | error fault =>
    simp only [Run.After, Buffer.replaceRange, Run.bind_apply, Run.get, Run.ofExcept, first]
    exact ⟨sound, rfl, rfl, rfl⟩
  | ok c =>
    cases last : b.document.ensure stop with
    | error fault =>
      simp only [Run.After, Buffer.replaceRange, Run.bind_apply, Run.get, Run.ofExcept, first, last]
      exact ⟨sound, rfl, rfl, rfl⟩
    | ok c' =>
      obtain ⟨holds, rfl⟩ := Document.ensureHolds first
      obtain ⟨holds', rfl⟩ := Document.ensureHolds last
      rw [Run.afterBind]
      refine Run.afterOfEnds (Run.endsMono (Run.endsBoth (replaceRangeEnds sound holds holds' text label)
        (replaceRangeRecorded sound holds holds' text label)) ?_)
      rintro _ later ⟨⟨⟨follows, -⟩, -⟩, recorded⟩
      exact ⟨follows.sound, recorded⟩

theorem runAfter (sound : b.Sound) (c : Change) : c.run.After b (Made b (c.place b)) := by
  cases c with
  | insertText text => exact madeEdit sound (safeInsertText text) (insertTextRecorded sound text)
  | insertNewline => exact madeEdit sound safeInsertNewline (insertTextRecorded sound _)
  | insertTab => exact madeEdit sound safeInsertTab (insertTextRecorded sound _)
  | deleteChar => exact madeTells sound safeDeleteChar (deleteCharTells sound)
  | deleteNextChar => exact madeTells sound safeDeleteNextChar (deleteNextCharTells sound)
  | deleteToLineEnd => exact madeTells sound safeDeleteToLineEnd (deleteToLineEndTells sound)
  | deleteLine moveUp =>
    exact madeTells sound (safeDeleteLine moveUp) (deleteLineTells sound moveUp)
  | deleteNextWord => exact madeTells sound safeDeleteNextWord (deleteNextWordTells sound)
  | deleteWord => exact madeTells sound safeDeleteWord (deleteWordTells sound)
  | openLineBelow => exact madeEdit sound safeOpenLineBelow (openLineBelowRecorded sound)
  | openLineAbove => exact madeEdit sound safeOpenLineAbove (openLineAboveRecorded sound)
  | paste => exact madeTells sound safePaste (pasteTells sound)
  | replaceRange start stop text label => exact madeReplaceRange sound start stop text label

end

theorem blind (c : Change) : Buffer.Blind c.run := by
  cases c with
  | insertText text => exact Buffer.blindBind (Buffer.blindInsertText text) fun _ => Buffer.blindPure true
  | insertNewline => exact Buffer.blindBind (Buffer.blindInsertText _) fun _ => Buffer.blindPure true
  | insertTab => exact Buffer.blindBind (Buffer.blindInsertText _) fun _ => Buffer.blindPure true
  | deleteChar => exact Buffer.blindDeleteChar
  | deleteNextChar => exact Buffer.blindDeleteNextChar
  | deleteToLineEnd => exact Buffer.blindDeleteToLineEnd
  | deleteLine moveUp => exact Buffer.blindDeleteLine moveUp
  | deleteNextWord => exact Buffer.blindDeleteNextWord
  | deleteWord => exact Buffer.blindDeleteWord
  | openLineBelow => exact Buffer.blindBind Buffer.blindOpenLineBelow fun _ => Buffer.blindPure true
  | openLineAbove => exact Buffer.blindBind Buffer.blindOpenLineAbove fun _ => Buffer.blindPure true
  | paste => exact Buffer.blindPaste
  | replaceRange start stop text label =>
    exact Buffer.blindBind (Buffer.blindReplaceRange start stop text label) fun _ => Buffer.blindPure true

end Change

structure Page where
  text : Text
  cursor : Cursor := {}
  deriving DecidableEq, Repr

structure Album where
  limit : Nat
  pages : List Page
  position : Nat := 0
  deriving DecidableEq, Repr

namespace Album

def page (a : Album) : Page := a.pages.getD a.position { text := [] }

def canUndo (a : Album) : Bool := 0 < a.position

def canRedo (a : Album) : Bool := a.position + 1 < a.pages.length

def back (a : Album) : Album := { a with position := a.position - 1 }

def forth (a : Album) : Album := if a.canRedo then { a with position := a.position + 1 } else a

def record (a : Album) (cursor : Cursor) (text : Text) : Album :=
  let pages := a.pages.take a.position ++ [{ a.page with cursor }, { text }]
  let kept := pages.drop (pages.length - (a.limit + 1))
  { a with pages := kept, position := kept.length - 1 }

def start (b : Buffer) : Album := { limit := b.history.limit, pages := [{ text := b.text }] }

def sheet (a : Album) (b : Buffer) : Buffer :=
  { b with document := { b.document with lines := a.page.text.lines }, history := {} }

end Album

inductive Op
  | jump (row col : Int)
  | move (m : Motion)
  | change (c : Change)
  | undo
  | redo

namespace Op

def run : Op → Run Buffer Bool
  | jump row col => do let _ ← Buffer.jump row col; pure true
  | move m => Buffer.move m
  | change c => c.run
  | undo => Buffer.undo
  | redo => Buffer.redo

def turn (b : Buffer) (a : Album) : Op → Album
  | change c =>
    let o := c.run (a.sheet b)
    match o.result with
    | .ok true => a.record (c.place b) o.state.text
    | _ => a
  | undo => a.back
  | redo => a.forth
  | _ => a

def step (s : Buffer × Album) (op : Op) : Buffer × Album := ((op.run s.1).state, op.turn s.1 s.2)

def steps (ops : List Op) (s : Buffer × Album) : Buffer × Album := ops.foldl step s

theorem jumpUntouched {b : Buffer} (sound : b.Sound) (row col : Int) :
    ((jump row col).run b).state.Sound ∧ b.Untouched ((jump row col).run b).state :=
  ⟨⟨sound.document, Document.clampHolds sound.document row col, sound.anchors⟩, rfl, rfl, rfl⟩

theorem moveUntouched {b : Buffer} (sound : b.Sound) (m : Motion) :
    ((move m).run b).state.Sound ∧ b.Untouched ((move m).run b).state := by
  obtain ⟨target, ok, holds⟩ := m.targetHolds sound.document sound.cursor
  have moves : (Buffer.move m).Ends b fun _ later => later = { b with cursor := target } := by
    simp only [Buffer.move, Run.endsBind, Run.endsGet, Run.endsOfExcept, Run.endsPut, Run.endsPure]
    exact ⟨target, ok, rfl⟩
  obtain ⟨_, -, state⟩ := moves
  simp only [run, state]
  exact ⟨⟨sound.document, holds, sound.anchors⟩, rfl, rfl, rfl⟩

end Op

/- The replacements that lead to a text, newest first, and the pages they left. -/
inductive Behind : List Replacement → Text → List Page → Prop
  | nil {text : Text} : Behind [] text []
  | cons {r : Replacement} {done : List Replacement} {text : Text} {page : Page} {past : List Page}
      (turns : r.Turns page.text text) (cursor : r.cursorBefore = page.cursor)
      (holds : (Document.ofText page.text).Holds page.cursor) (rest : Behind done page.text past) :
      Behind (r :: done) text (page :: past)

inductive Ahead : List Replacement → Page → List Page → Prop
  | nil {page : Page} : Ahead [] page []
  | cons {r : Replacement} {undone : List Replacement} {page next : Page} {future : List Page}
      (turns : r.Turns page.text next.text) (cursor : r.cursorBefore = page.cursor)
      (holds : (Document.ofText page.text).Holds page.cursor) (rest : Ahead undone next future) :
      Ahead (r :: undone) page (next :: future)

theorem Behind.take {done : List Replacement} {text : Text} {past : List Page}
    (h : Behind done text past) (n : Nat) : Behind (done.take n) text (past.take n) := by
  induction h generalizing n with
  | nil => simpa using .nil
  | cons turns cursor holds rest ih =>
    cases n with
    | zero => exact .nil
    | succ n => exact .cons turns cursor holds (ih n)

structure Opens (a : Album) (past : List Page) (now : Page) (future : List Page) : Prop where
  pages : a.pages = past.reverse ++ now :: future
  position : a.position = past.length

namespace Opens

variable {a : Album} {past future : List Page} {now : Page}

theorem page (h : Opens a past now future) : a.page = now := by
  simp [Album.page, h.pages, h.position]

theorem canUndo (h : Opens a past now future) : a.canUndo = !past.isEmpty := by
  cases past <;> simp [Album.canUndo, h.position]

theorem canRedo (h : Opens a past now future) : a.canRedo = !future.isEmpty := by
  cases future <;> simp [Album.canRedo, h.pages, h.position]

theorem back {page : Page} (h : Opens a (page :: past) now future) :
    Opens a.back past page (now :: future) where
  pages := by simp [Album.back, h.pages]
  position := by simp [Album.back, h.position]

theorem forth {page : Page} (h : Opens a past now (page :: future)) :
    Opens a.forth (now :: past) page future where
  pages := by simp [Album.forth, h.canRedo, h.pages]
  position := by simp [Album.forth, h.canRedo, h.position]

theorem backNothing (h : Opens a [] now future) : a.back = a := by
  obtain ⟨limit, pages, position⟩ := a
  have zero : position = 0 := h.position
  simp [Album.back, zero]

theorem forthNothing (h : Opens a past now []) : a.forth = a := by
  simp [Album.forth, h.canRedo]

theorem record (h : Opens a past now future) (cursor : Cursor) (text : Text) :
    Opens (a.record cursor text) (({ now with cursor } :: past).take a.limit) { text } [] := by
  have pages : a.pages.take a.position ++ [{ now with cursor }, { text }] =
      (({ text } : Page) :: { now with cursor } :: past).reverse := by
    simp [h.pages, h.position]
  have kept : (a.record cursor text).pages =
      (({ text } : Page) :: ({ now with cursor } :: past).take a.limit).reverse := by
    simp only [Album.record, h.page, pages]
    rw [← List.take_succ_cons, List.reverse_take]
    simp
  have position : (a.record cursor text).position = (a.record cursor text).pages.length - 1 := rfl
  constructor
  · simpa using kept
  · rw [position, kept]
    simp

end Opens

theorem Document.holdsText {d : Document} (sound : d.Sound) (c : Cursor) :
    (ofText d.text).Holds c ↔ d.Holds c := by
  have lines : (ofText d.text).lines = d.lines := Text.linesUnlines sound.nonempty sound.clean
  simp only [Holds, lineCount, width, lines]

namespace Buffer

variable {b : Buffer}

theorem rewriteEnds (sound : b.Sound) {e : Edit} (silent : e.recorded = false) {c : Cursor}
    (landing : e.landing = some c) {r : Replacement} (place : e.start = r.offset)
    (stop : e.stop = r.offset + r.removed.length) (new : e.text = r.inserted) {after : Text}
    (turns : r.Turns b.text after) :
    (edit e).Ends b fun _ later => later.Sound ∧ later.text = after ∧ later.history = b.history ∧
      ((Document.ofText later.text).Holds c → later.cursor = c) ∧ r.Works b later := by
  refine Run.endsMono (Run.endsBoth (safeEdit e b sound) (editsExactly sound e)) ?_
  rintro _ later ⟨⟨follows, -⟩, edits⟩
  have text : later.text = after := by
    have same : later.text = (b.edited e).text := congrArg Document.text edits.document
    rw [same, editedText, place, stop, new, turns.made]
  refine ⟨follows.sound, text, by simpa [silent] using edits.history, fun holds => ?_, ?_, ?_⟩
  · have inside := (Document.holdsText follows.sound.document c).mp holds
    rw [edits.cursor, landed, landing, ← edits.document]
    exact Document.clampHeld inside
  · rw [edits.document, editedSpliced, place, stop, new]
  · simp only [Replacement.moved, edits.anchors, edits.document, place, stop, new]

theorem undoRewrites (sound : b.Sound) {r : Replacement} {done : List Replacement}
    (taken : b.history.done = r :: done) {before : Text} (turns : r.Turns before b.text) :
    undo.Ends b fun found later => found = true ∧ later.Sound ∧ later.text = before ∧
      later.history = { b.history with done, undone := r :: b.history.undone } ∧
      ((Document.ofText later.text).Holds r.cursorBefore → later.cursor = r.cursorBefore) ∧
      r.reversed.Works b later := by
  unfold undo
  rw [Run.endsBind, Run.endsGet]
  simp only [Timeline.undo?, taken]
  rw [Run.endsBind, Run.endsPut, Run.endsBind]
  have rewound : Sound { b with history := { b.history with done, undone := r :: b.history.undone } } :=
    ⟨sound.document, sound.cursor, sound.anchors⟩
  refine Run.endsMono (rewriteEnds rewound rfl rfl (r := r.reversed) rfl rfl rfl turns.reversed) ?_
  rintro _ later ⟨sound', text, history, landed, works⟩
  exact Run.endsPure.mpr ⟨rfl, sound', text, history, landed, works.document, works.anchors⟩

theorem redoRewrites (sound : b.Sound) {r : Replacement} {undone : List Replacement}
    (taken : b.history.undone = r :: undone) {after : Text} (turns : r.Turns b.text after) :
    redo.Ends b fun found later => found = true ∧ later.Sound ∧ later.text = after ∧
      later.history = { b.history with done := r :: b.history.done, undone } ∧ r.Works b later := by
  unfold redo
  rw [Run.endsBind, Run.endsGet]
  simp only [Timeline.redo?, taken]
  rw [Run.endsBind, Run.endsPut, Run.endsBind]
  have rewound : Sound { b with history := { b.history with done := r :: b.history.done, undone } } :=
    ⟨sound.document, sound.cursor, sound.anchors⟩
  refine Run.endsMono (rewriteEnds rewound rfl rfl (r := r) rfl rfl rfl turns) ?_
  rintro _ later ⟨sound', text, history, -, works⟩
  exact Run.endsPure.mpr ⟨rfl, sound', text, history, works.document, works.anchors⟩

structure Kept (b : Buffer) (past : List Page) (now : Page) (future : List Page) : Prop where
  sound : b.Sound
  text : now.text = b.text
  behind : Behind b.history.done now.text past
  ahead : Ahead b.history.undone now future

theorem undoNothing {now : Page} {future : List Page} (kept : Kept b [] now future) :
    undo.Ends b fun found later => found = false ∧ later = b := by
  have behind := kept.behind
  generalize taken : b.history.done = replacements at behind
  cases behind
  unfold undo
  simp [Timeline.undo?, taken]

theorem redoNothing {past : List Page} {now : Page} (kept : Kept b past now []) :
    redo.Ends b fun found later => found = false ∧ later = b := by
  have ahead := kept.ahead
  generalize taken : b.history.undone = replacements at ahead
  cases ahead
  unfold redo
  simp [Timeline.redo?, taken]

theorem undoTurns {past future : List Page} {page now : Page} (kept : Kept b (page :: past) now future) :
    undo.Ends b fun found later => found = true ∧ later.cursor = page.cursor ∧
      later.history.limit = b.history.limit ∧ Kept later past page (now :: future) := by
  obtain ⟨sound, same, behind, ahead⟩ := kept
  generalize taken : b.history.done = replacements at behind
  obtain _ | @⟨r, done, _, _, _, turns, cursor, holds, rest⟩ := behind
  refine Run.endsMono (undoRewrites sound taken (same ▸ turns)) ?_
  rintro _ later ⟨rfl, sound', whole, history, landed, -⟩
  refine ⟨rfl, (landed ?_).trans cursor, by rw [history], sound', whole.symm, ?_, ?_⟩
  · rw [whole, cursor]
    exact holds
  · rw [history]
    exact rest
  · rw [history]
    exact .cons turns cursor holds ahead

theorem redoTurns {past future : List Page} {now page : Page} (kept : Kept b past now (page :: future)) :
    redo.Ends b fun found later => found = true ∧ later.history.limit = b.history.limit ∧
      Kept later (now :: past) page future := by
  obtain ⟨sound, same, behind, ahead⟩ := kept
  generalize taken : b.history.undone = replacements at ahead
  obtain _ | @⟨r, undone, _, _, _, turns, cursor, holds, rest⟩ := ahead
  refine Run.endsMono (redoRewrites sound taken (same ▸ turns)) ?_
  rintro _ later ⟨rfl, sound', whole, history, -⟩
  refine ⟨rfl, by rw [history], sound', whole.symm, ?_, ?_⟩
  · rw [history]
    exact .cons turns cursor holds behind
  · rw [history]
    exact rest

theorem keptUntouched {later : Buffer} {past future : List Page} {now : Page}
    (kept : Kept b past now future) (sound : later.Sound) (same : Untouched b later) :
    Kept later past now future := by
  obtain ⟨document, history, -⟩ := same
  have text : later.text = b.text := congrArg Document.text document
  exact ⟨sound, kept.text.trans text.symm, history ▸ kept.behind, history ▸ kept.ahead⟩

theorem keptRecorded {later : Buffer} {past future : List Page} {now : Page} {place : Cursor}
    (kept : Kept b past now future) (sound : later.Sound) (recorded : Recorded b later place) :
    later.history.limit = b.history.limit ∧
      Kept later (({ now with cursor := place } :: past).take b.history.limit) { text := later.text } [] := by
  obtain ⟨holds, r, turns, cursor, history, -⟩ := recorded
  rw [← kept.text] at turns
  have holds' : (Document.ofText now.text).Holds place := by
    rw [kept.text]
    exact (Document.holdsText kept.sound.document place).mpr holds
  have behind : Behind (r :: b.history.done) later.text ({ now with cursor := place } :: past) :=
    .cons turns cursor holds' kept.behind
  refine ⟨by rw [history]; rfl, sound, rfl, ?_, ?_⟩
  · rw [history]
    exact behind.take b.history.limit
  · rw [history]
    exact .nil

end Buffer

namespace Album

def Describes (a : Album) (b : Buffer) : Prop :=
  a.limit = b.history.limit ∧ ∃ past now future, Opens a past now future ∧ b.Kept past now future

theorem describesStart {b : Buffer} (sound : b.Sound) (done : b.history.done = [])
    (undone : b.history.undone = []) : (start b).Describes b := by
  refine ⟨rfl, [], { text := b.text }, [], ⟨rfl, rfl⟩, sound, rfl, ?_, ?_⟩
  · rw [done]
    exact .nil
  · rw [undone]
    exact .nil

theorem describesSound {a : Album} {b : Buffer} (h : a.Describes b) : b.Sound := by
  obtain ⟨_, _, _, _, _, kept⟩ := h
  exact kept.sound

theorem describesUntouched {a : Album} {b later : Buffer} (h : a.Describes b) (sound : later.Sound)
    (same : b.Untouched later) : a.Describes later := by
  obtain ⟨limit, past, now, future, opens, kept⟩ := h
  exact ⟨limit.trans (by rw [same.2.1]), past, now, future, opens, Buffer.keptUntouched kept sound same⟩

theorem sheetBlank {a : Album} {b : Buffer} (h : a.Describes b) : a.sheet b = { b with history := {} } := by
  have sound := describesSound h
  obtain ⟨_, _, _, _, opens, kept⟩ := h
  have lines : a.page.text.lines = b.document.lines := by
    rw [opens.page, kept.text]
    exact Text.linesUnlines sound.document.nonempty sound.document.clean
  rw [sheet, lines]

theorem turnChange {a : Album} {b : Buffer} (h : a.Describes b) (c : Change) :
    (Op.change c).turn b a = match (c.run b).result with
      | .ok true => a.record (c.place b) (c.run b).state.text
      | _ => a := by
  obtain ⟨_, same⟩ := c.blind b {}
  rw [Op.turn, sheetBlank h, same]
  rfl

theorem describesMade {a : Album} {b : Buffer} (h : a.Describes b) (c : Change) :
    ((Op.change c).turn b a).Describes (c.run b).state := by
  have sound := describesSound h
  have made : Change.Made b (c.place b) (c.run b).result (c.run b).state := c.runAfter sound
  rw [turnChange h]
  generalize (c.run b).result = r at made
  obtain ⟨sound', noted⟩ := made
  match r, noted with
  | .ok true, recorded =>
    obtain ⟨limit, past, now, future, opens, kept⟩ := h
    obtain ⟨limit', kept'⟩ := Buffer.keptRecorded kept sound' recorded
    exact ⟨limit.trans limit'.symm, _, _, _, opens.record _ _, limit ▸ kept'⟩
  | .ok false, same => exact describesUntouched h sound' same
  | .error _, same => exact describesUntouched h sound' same

theorem describesUndo {a : Album} {b : Buffer} (h : a.Describes b) :
    a.back.Describes (Buffer.undo b).state := by
  obtain ⟨limit, past, now, future, opens, kept⟩ := h
  cases past with
  | nil =>
    obtain ⟨_, -, -, state⟩ := Buffer.undoNothing kept
    rw [state, opens.backNothing]
    exact ⟨limit, [], now, future, opens, kept⟩
  | cons page past =>
    obtain ⟨_, -, -, -, limit', kept'⟩ := Buffer.undoTurns kept
    exact ⟨limit.trans limit'.symm, past, page, now :: future, opens.back, kept'⟩

theorem describesRedo {a : Album} {b : Buffer} (h : a.Describes b) :
    a.forth.Describes (Buffer.redo b).state := by
  obtain ⟨limit, past, now, future, opens, kept⟩ := h
  cases future with
  | nil =>
    obtain ⟨_, -, -, state⟩ := Buffer.redoNothing kept
    rw [state, opens.forthNothing]
    exact ⟨limit, past, now, [], opens, kept⟩
  | cons page future =>
    obtain ⟨_, -, -, limit', kept'⟩ := Buffer.redoTurns kept
    have same : a.forth.limit = a.limit := by
      unfold forth
      split <;> rfl
    exact ⟨(same.trans limit).trans limit'.symm, now :: past, page, future, opens.forth, kept'⟩

theorem describesStep {a : Album} {b : Buffer} (h : a.Describes b) (op : Op) :
    (op.turn b a).Describes (op.run b).state := by
  have sound := describesSound h
  cases op with
  | jump row col =>
    obtain ⟨sound', same⟩ := Op.jumpUntouched sound row col
    exact describesUntouched h sound' same
  | move m =>
    obtain ⟨sound', same⟩ := Op.moveUntouched sound m
    exact describesUntouched h sound' same
  | change c => exact describesMade h c
  | undo => exact describesUndo h
  | redo => exact describesRedo h

theorem describesSteps {s : Buffer × Album} (h : s.2.Describes s.1) (ops : List Op) :
    (Op.steps ops s).2.Describes (Op.steps ops s).1 := by
  induction ops generalizing s with
  | nil => exact h
  | cons op rest ih => exact ih (describesStep h op)

structure Agrees (a : Album) (b : Buffer) : Prop where
  text : b.text = a.page.text
  undo : Buffer.undo.Ends b fun found later => found = a.canUndo ∧
    if found then later.text = a.back.page.text ∧ later.cursor = a.back.page.cursor else later = b
  redo : Buffer.redo.Ends b fun found later => found = a.canRedo ∧
    if found then later.text = a.forth.page.text else later = b

theorem agreesDescribed {a : Album} {b : Buffer} (h : a.Describes b) : a.Agrees b := by
  obtain ⟨-, past, now, future, opens, kept⟩ := h
  constructor
  · rw [opens.page, kept.text]
  · cases past with
    | nil =>
      refine Run.endsMono (Buffer.undoNothing kept) ?_
      rintro _ later ⟨rfl, still⟩
      simpa [opens.canUndo] using still
    | cons page past =>
      refine Run.endsMono (Buffer.undoTurns kept) ?_
      rintro _ later ⟨rfl, cursor, -, kept'⟩
      simpa [opens.canUndo, opens.back.page, cursor] using kept'.text.symm
  · cases future with
    | nil =>
      refine Run.endsMono (Buffer.redoNothing kept) ?_
      rintro _ later ⟨rfl, still⟩
      simpa [opens.canRedo] using still
    | cons page future =>
      refine Run.endsMono (Buffer.redoTurns kept) ?_
      rintro _ later ⟨rfl, -, kept'⟩
      simpa [opens.canRedo, opens.forth.page] using kept'.text.symm

/- Whatever is done to a buffer with nothing in its history, its undo is that of whole texts. -/
theorem undoIsSnapshots {b : Buffer} (sound : b.Sound) (done : b.history.done = [])
    (undone : b.history.undone = []) (ops : List Op) :
    (Op.steps ops (b, start b)).2.Agrees (Op.steps ops (b, start b)).1 :=
  agreesDescribed (describesSteps (describesStart sound done undone) ops)

theorem onlyLastUndone :
    let b := Buffer.ofText "ab\ncd".toList 1
    let s := Op.steps [.change (.insertText ['x']), .change .openLineBelow, .undo, .undo] (b, start b)
    (b.Sound ∧ b.history.done = [] ∧ b.history.undone = []) ∧ s.2.Agrees s.1 ∧
      s.1.text = "xab\ncd".toList ∧ s.1.cursor = ⟨0, 3⟩ ∧ s.2.canUndo = false ∧ s.2.canRedo = true := by
  have sound := Buffer.ofTextSound "ab\ncd".toList 1
  exact ⟨⟨sound, rfl, rfl⟩, undoIsSnapshots sound rfl rfl _, by decide, by decide, by decide, by decide⟩

end Album

end ModalNotes
