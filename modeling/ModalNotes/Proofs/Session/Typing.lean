import Mathlib.Data.List.Induction
import ModalNotes.Proofs.Buffer.Typing
import ModalNotes.Proofs.Notebook.Step
import ModalNotes.Proofs.Session.Paste

/-! Typing at the keys. Whatever is typed in insert mode comes to one insertion at the cursor. Backspaces take
it out again, and with it the way that the anchors have gone; so do undos, one for each key. -/
namespace ModalNotes

namespace Keymap

theorem insertTokensLong : ∀ b ∈ bindings, b.mode = Mode.insert.name → b.stroke.token.length ≠ 1 := by
  decide +kernel

theorem writingBound : ∀ bound ∈ [("enter", Action.newline), ("tab", .tab), ("backspace", .backspace),
    ("escape", .exitToNormal)], KeyPress.token bound.1.toList [] = bound.1.toList ∧
      Binds .insert bound.1.toList bound.2 := by decide +kernel

end Keymap

namespace Editor

variable {α : Type} {m : Run Buffer α} {e : Editor} {name : Text} {modifiers : List Text}

theorem quietChange (safe : Buffer.Safe m) (sound : e.buffer.Sound) :
    Run.Ends (do let _ ← onBuffer m; pure {}) e fun reply f =>
      Quiet reply ∧ f = { e with buffer := (m e.buffer).state } := by
  obtain ⟨_, ok, -⟩ := safe e.buffer sound
  rw [Run.endsBind, endsOnBuffer]
  exact ⟨_, ok, Run.endsPure.mpr ⟨⟨rfl, rfl⟩, rfl⟩⟩

theorem insertPrintable {token : Text} (sound : e.Sound) (printable : KeyPress.isPrintable token = true) :
    (insertKey token).Ends e fun reply f =>
      Quiet reply ∧ f = { e with buffer := (Buffer.insertText token e.buffer).state } := by
  have free : e.registry.lookup Mode.insert.name token = none := by
    rw [sound.registry]
    refine Keymap.standardUnbound fun b member slot => ?_
    obtain ⟨mode, same⟩ := Prod.mk.inj slot
    exact Keymap.insertTokensLong b member mode (same ▸ printableSingle printable)
  unfold insertKey
  rw [Run.endsBind, Run.endsGet]
  simp only [free, printable, if_true]
  exact quietChange (Buffer.safeInsertText token) sound.buffer

theorem escapeKey (insert : e.mode = .insert) (registry : e.registry = Keymap.standard.state) :
    (key "escape".toList []).Ends e fun _ later => later = switched .normal e := by
  obtain ⟨token, binds⟩ := Keymap.writingBound ("escape", .exitToNormal) (by decide)
  have performs : (perform .exitToNormal).Ends e fun reply f => reply = entering .normal "exit" ∧ f = e :=
    Run.endsPure.mpr ⟨rfl, rfl⟩
  refine Run.endsMono (keyInsertsResponds insert (boundInserts registry (token.symm ▸ binds) performs)) ?_
  rintro _ _ ⟨_, _, ⟨rfl, rfl⟩, rfl⟩
  exact recordedStill rfl

end Editor

namespace Session

variable {s : Session} {key w piece : Text} {keys pieces : List Text}

def puts (key : Text) : Option Text :=
  if KeyPress.isPrintable key then some key
  else if key = "enter".toList then some ['\n']
  else if key = "tab".toList then some Buffer.tabText
  else none

def Writes {α : Type} (m : Run Buffer α) (key : Text) : Prop :=
  ∀ s : Session, s.Sound → s.editor.mode = .insert →
    (s.after (presses [key])).editor.mode = .insert ∧
      (s.after (presses [key])).buffer = (m s.buffer).state

theorem writesOf {α : Type} {m : Run Buffer α} (safe : Buffer.Safe m)
    (work : ∀ e : Editor, e.Sound → (Editor.insertKey (KeyPress.token key [])).Ends e fun reply f =>
      Editor.Quiet reply ∧ f = { e with buffer := (m e.buffer).state }) : Writes m key := by
  intro s sound insert
  have ends : (Editor.key key []).Ends s.editor fun _ later =>
      later = s.editor.recorded { s.editor with buffer := (m s.buffer).state } := by
    refine Run.endsMono (Editor.keyInserts insert (work s.editor sound.editor)) ?_
    rintro _ _ ⟨_, rfl, rfl⟩
    rfl
  obtain ⟨_, -, follows, -⟩ := safe s.buffer sound.editor.buffer
  have buffer := Editor.recordedBuffer s.editor { s.editor with buffer := (m s.buffer).state }
  have same := afterFollowed sound ends (buffer ▸ follows)
  refine ⟨?_, (congrArg Editor.buffer same).trans buffer⟩
  rw [presses, List.map_singleton, same, Editor.recorded]
  split <;> exact insert

theorem writesBound {α : Type} {m : Run Buffer α} (bound : String × Action) (safe : Buffer.Safe m)
    (member : bound ∈ [("enter", Action.newline), ("tab", .tab), ("backspace", .backspace),
      ("escape", .exitToNormal)])
    (does : Editor.perform bound.2 = do let _ ← Editor.onBuffer m; pure {}) : Writes m bound.1.toList := by
  obtain ⟨token, binds⟩ := Keymap.writingBound bound member
  refine writesOf safe fun e sound => Editor.boundInserts sound.registry (token.symm ▸ binds) ?_
  rw [does]
  exact Editor.quietChange safe sound.buffer

theorem backspaceWrites : Writes Buffer.deleteChar "backspace".toList :=
  writesBound ("backspace", .backspace) Buffer.safeDeleteChar (by decide) rfl

theorem putsWrites (types : puts key = some piece) : Writes (Buffer.insertText piece) key := by
  unfold puts at types
  split at types
  · rename_i printable
    cases types
    refine writesOf (Buffer.safeInsertText key) fun e sound => ?_
    obtain ⟨c, rfl⟩ := List.length_eq_one_iff.mp (Editor.printableSingle printable)
    rw [KeyPress.tokenSingle]
    exact Editor.insertPrintable sound printable
  split at types
  · rename_i enter
    cases types
    subst enter
    exact writesBound ("enter", .newline) (Buffer.safeInsertText _) (by decide) rfl
  split at types
  · rename_i tab
    cases types
    subst tab
    exact writesBound ("tab", .tab) (Buffer.safeInsertText _) (by decide) rfl
  · contradiction

theorem putsCons {piece' : List Text} (types : (key :: keys).mapM puts = some piece') :
    ∃ piece pieces, piece' = piece :: pieces ∧ puts key = some piece ∧ keys.mapM puts = some pieces := by
  rw [List.mapM_cons] at types
  obtain ⟨piece, first, rest⟩ := Option.bind_eq_some_iff.mp types
  obtain ⟨pieces, others, same⟩ := Option.bind_eq_some_iff.mp rest
  exact ⟨piece, pieces, (Option.some.inj same).symm, first, others⟩

structure Typing (front back : Text) (d : Document) (family : Int → Anchor → Prop) (w : Text) (s : Session) :
    Prop where
  sound : s.Sound
  insert : s.editor.mode = .insert
  typed : Buffer.Typed front back w s.buffer
  carried : ∀ id a, family id a → Buffer.Carries d front.length w.length id a s.buffer

section
variable {front back : Text} {d : Document} {family : Int → Anchor → Prop}

theorem typingBegun (sound : s.Sound) (insert : s.editor.mode = .insert) (w : Text) :
    Typing (s.text.take s.buffer.caret) (s.text.drop s.buffer.caret) s.buffer.document (s.buffer.Spared w) []
      s where
  sound := sound
  insert := insert
  typed := Buffer.typedNothing sound.editor.buffer
  carried _ a spared := ⟨a, spared.found, Anchor.stretchedNone spared.live (spared.spans sound.editor.buffer)⟩

theorem typingKey (typing : Typing front back d family w s) (types : puts key = some piece)
    (spans : ∀ id a, family id a → a.Spans d)
    (plain : ∀ id a, family id a → a.Clear d front.length front.length ∨ '\n' ∉ piece) :
    Typing front back d family (w ++ piece) (s.after (presses [key])) := by
  obtain ⟨mode, buffer⟩ := putsWrites types s typing.sound typing.insert
  obtain ⟨_, -, typed, carries⟩ := typing.typed.more piece
  refine ⟨afterSound typing.sound _, mode, buffer ▸ typed, fun id a member => ?_⟩
  rw [buffer]
  exact carries d id a (spans id a member) (plain id a member) (typing.carried id a member)

theorem typingKeys (typing : Typing front back d family w s) (types : keys.mapM puts = some pieces)
    (spans : ∀ id a, family id a → a.Spans d)
    (plain : ∀ id a, family id a → a.Clear d front.length front.length ∨ '\n' ∉ pieces.flatten) :
    Typing front back d family (w ++ pieces.flatten) (s.after (presses keys)) := by
  induction keys generalizing s w pieces with
  | nil =>
    rw [List.mapM_nil] at types
    cases types
    rw [List.flatten_nil, List.append_nil]
    exact typing
  | cons key rest ih =>
    obtain ⟨piece, pieces, rfl, first, others⟩ := putsCons types
    simp only [List.flatten_cons, List.mem_append, not_or] at plain
    have next := typingKey typing first spans fun id a member => (plain id a member).imp_right And.left
    rw [List.flatten_cons, ← List.append_assoc]
    exact ih next others fun id a member => (plain id a member).imp_right And.right

theorem typingBackspace {c : Char} (typing : Typing front back d family (w ++ [c]) s)
    (spans : ∀ id a, family id a → a.Spans d) :
    Typing front back d family w (s.after (presses ["backspace".toList])) := by
  obtain ⟨mode, buffer⟩ := backspaceWrites s typing.sound typing.insert
  obtain ⟨_, -, typed, carries⟩ := typing.typed.less
  refine ⟨afterSound typing.sound _, mode, buffer ▸ typed, fun id a member => ?_⟩
  rw [buffer]
  exact carries d id a (spans id a member) (typing.carried id a member)

theorem typingBackspaces (typing : Typing front back d family w s)
    (spans : ∀ id a, family id a → a.Spans d) :
    Typing front back d family [] (s.after (presses (List.replicate w.length "backspace".toList))) := by
  induction w using List.reverseRecOn generalizing s with
  | nil => exact typing
  | append_singleton w c ih =>
    rw [List.length_append, List.length_singleton]
    exact ih (typingBackspace typing spans)

end

theorem notedKeys {first : Page} {n : Nat} (sound : s.Sound) (insert : s.editor.mode = .insert)
    (types : keys.mapM puts = some pieces) (noted : Buffer.Noted first n s.buffer) :
    Buffer.Noted first (n + keys.length) (s.after (presses keys)).buffer ∧
      (s.after (presses keys)).buffer.history.limit = s.buffer.history.limit := by
  induction keys generalizing s n pieces with
  | nil => exact ⟨noted, rfl⟩
  | cons key rest ih =>
    obtain ⟨piece, pieces, rfl, first, others⟩ := putsCons types
    obtain ⟨mode, buffer⟩ := putsWrites first s sound insert
    have held : s.buffer.Sound := sound.editor.buffer
    obtain ⟨_, -, recorded⟩ := Buffer.insertTextRecorded held piece
    obtain ⟨noted', limit⟩ := noted.more held recorded
    rw [← buffer] at noted' limit
    obtain ⟨last, limit'⟩ := ih (afterSound sound (presses [key])) mode others noted'
    rw [List.length_cons, Nat.add_comm rest.length, ← Nat.add_assoc]
    exact ⟨last, limit'.trans limit⟩

theorem undoBound : Keymap.Binds .normal ['u'] .undo := by decide +kernel

theorem undoDoes : Does Buffer.undo [['u']] := doesOutcome Buffer.safeUndo (by decide) undoBound rfl

theorem doesAgain {m : Run Buffer Bool} (does : Does m [key]) (sound : s.Sound)
    (normal : s.editor.mode = .normal) (idle : Idle s) (n : Nat) :
    (s.after (presses (List.replicate n key))).buffer = Buffer.again m n s.buffer := by
  induction n generalizing s with
  | zero => rfl
  | succ n ih =>
    have same := does s sound normal idle
    obtain ⟨mode, command, pending, buffer⟩ := changedRests m s.editor
    have next := ih (afterSound sound (presses [key])) (by rw [same, mode, normal])
      ⟨by rw [same, command], by rw [same, pending]⟩
    have first : (s.after (presses [key])).buffer = (m s.buffer).state :=
      (congrArg Editor.buffer same).trans buffer
    rw [first, ← Buffer.againPred] at next
    exact next

theorem undosAfter {first : Page} {n : Nat} (sound : s.Sound) (insert : s.editor.mode = .insert)
    (noted : Buffer.Noted first n s.buffer) (kept : n ≤ s.buffer.history.limit) :
    let undone := (s.after (presses ("escape".toList :: List.replicate n ['u']))).buffer
    undone.text = first.text ∧ undone.cursor = first.cursor := by
  have left : s.after (presses ["escape".toList]) = { s with editor := Editor.switched .normal s.editor } :=
    afterStill (Editor.escapeKey insert sound.editor.registry)
      ⟨sound.editor.buffer.document, sound.editor.buffer.cursor, sound.editor.buffer.anchors⟩ rfl sound.taken
  have sound' := afterSound sound (presses ["escape".toList])
  have again := doesAgain undoDoes sound' (by rw [left]; rfl) (by rw [left]; exact ⟨rfl, rfl⟩) n
  have noted' : Buffer.Noted first n (s.after (presses ["escape".toList])).buffer := by
    rw [left]
    exact noted
  dsimp only
  have all : s.after (presses ("escape".toList :: List.replicate n ['u'])) =
      (s.after (presses ["escape".toList])).after (presses (List.replicate n ['u'])) :=
    afterAppend s (presses ["escape".toList]) _
  rw [all, again]
  exact noted'.undone sound'.editor.buffer (by rw [left]; exact kept)

/- Keys typed in insert mode come to one insertion of what they stand for, with the cursor behind it. As many
backspaces as that has characters bring back the text, the cursor, and where each live anchor lay, as long as
no line end came into it. As many undos as there were keys bring back the text and the cursor, at the keys as
well, if the history has room for them. -/
theorem typingIsInsertion {s : Session} (opened : Opened s) (steps : List Step)
    (insert : (s.along steps).editor.mode = .insert) {keys pieces : List Text}
    (types : keys.mapM puts = some pieces) :
    let start := s.along steps
    let place := start.buffer.caret
    let w := pieces.flatten
    let later := start.after (presses keys)
    let wiped := later.after (presses (List.replicate w.length "backspace".toList))
    let undone := later.after (presses ("escape".toList :: List.replicate keys.length ['u']))
    (later.text = start.text.take place ++ (w ++ start.text.drop place) ∧
      later.buffer.cursor = later.buffer.document.locate (place + w.length)) ∧
    (wiped.text = start.text ∧ wiped.buffer.cursor = start.buffer.cursor ∧
      ∀ id a, start.buffer.Spared w id a → ∃ moved, wiped.buffer.anchors.get? id = some moved ∧
        moved.deleted = false ∧ moved.geometry = a.geometry) ∧
    (keys.length ≤ start.buffer.history.limit →
      ∀ back ∈ [Buffer.again Buffer.undo keys.length later.buffer, undone.buffer],
        back.text = start.text ∧ back.cursor = start.buffer.cursor) := by
  intro start place w later wiped undone
  have sound : start.Sound := alongSound (openedSound opened) steps
  have held : start.buffer.Sound := sound.editor.buffer
  have begun := typingBegun sound insert w
  have spans : ∀ id a, start.buffer.Spared w id a → a.Spans start.buffer.document :=
    fun id a spared => spared.spans held
  have size : (start.text.take start.buffer.caret).length = place := Buffer.frontLength held
  have typed := typingKeys begun types spans fun id a spared => by
    rw [size]
    exact spared.clear
  have wiped' := typingBackspaces typed spans
  obtain ⟨noted, limit⟩ := notedKeys sound insert types (Buffer.notedNothing start.buffer)
  rw [Nat.zero_add] at noted
  rw [List.nil_append] at typed
  refine ⟨⟨typed.typed.text, ?_⟩, ⟨?_, ?_, ?_⟩, fun kept => ?_⟩
  · have cursor := typed.typed.cursor
    rw [size] at cursor
    exact cursor
  · exact wiped'.typed.text.trans begun.typed.text.symm
  · exact (begun.typed.same wiped'.typed).2
  · intro id a spared
    obtain ⟨moved, found, stretched⟩ := wiped'.carried id a spared
    exact ⟨moved, found, stretched.live,
      stretched.geometry (spans id a spared) (begun.typed.same wiped'.typed).1⟩
  · simp only [List.forall_mem_cons]
    exact ⟨noted.undone typed.sound.editor.buffer (limit ▸ kept),
      undosAfter typed.sound typed.insert noted (limit ▸ kept), nofun⟩

theorem anchoredLetterReturns :
    ∃ s, ((reopen 1 ['n'] ['a', 'b'] [⟨1, 1, 0, 0, 1, 2⟩] 100 : Run Unit Session) ()).result = .ok s ∧
      let start := s.along [⟨.input (.key ['i'] []), {}⟩]
      let later := start.after (presses [['x'], "enter".toList, "tab".toList])
      let wiped := later.after (presses (List.replicate 6 "backspace".toList))
      let undone := later.after (presses ("escape".toList :: List.replicate 3 ['u']))
      start.buffer.anchors.get? 1 = some ⟨0, 0, 1, false, false⟩ ∧ later.text = "x\n    ab".toList ∧
        undone.text = ['a', 'b'] ∧ wiped.text = ['a', 'b'] ∧
        ∃ moved, wiped.buffer.anchors.get? 1 = some moved ∧ moved.deleted = false ∧
          moved.geometry = (0, 0, 1) := by
  have stored : LinkRow.Stored 1 ['a', 'b'] [⟨1, 1, 0, 0, 1, 2⟩] := by decide
  obtain ⟨s, result, same, -⟩ : Run.Ends (reopen 1 ['n'] ['a', 'b'] _ 100) () _ := reopenOk stored 100
  refine ⟨s, result, ?_⟩
  have started : (s.along [⟨.input (.key ['i'] []), {}⟩]).editor.mode = .insert ∧
      (s.along [⟨.input (.key ['i'] []), {}⟩]).text = ['a', 'b'] ∧
      (s.along [⟨.input (.key ['i'] []), {}⟩]).buffer.caret = 0 ∧
      (s.along [⟨.input (.key ['i'] []), {}⟩]).buffer.anchors.get? 1 = some ⟨0, 0, 1, false, false⟩ ∧
      (s.along [⟨.input (.key ['i'] []), {}⟩]).buffer.history.limit = 100 := by
    rw [same, reopened, Keymap.standardTables]
    decide +kernel
  obtain ⟨insert, text, place, found, limit⟩ := started
  have types : [['x'], "enter".toList, "tab".toList].mapM puts = some [['x'], ['\n'], Buffer.tabText] := by
    decide +kernel
  obtain ⟨⟨typed, -⟩, ⟨wiped, -, anchors⟩, undone⟩ :=
    typingIsInsertion (.stored 100 stored result) [⟨.input (.key ['i'] []), {}⟩] insert types
  rw [text, place] at typed
  have back := undone (by rw [limit]; decide) _ (List.mem_cons_of_mem _ List.mem_cons_self)
  exact ⟨found, typed, back.1.trans text, wiped.trans text,
    anchors 1 _ ⟨found, rfl, .inr (by rw [place]; omega)⟩⟩

end Session

end ModalNotes
