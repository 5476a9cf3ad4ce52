import ModalNotes.Proofs.Anchor.Stretch
import ModalNotes.Proofs.Buffer.History

/-! Typing. Texts that are inserted one after another, each at the cursor that the one before has left, are one
text inserted at the first cursor. Deleting the characters before the cursor takes it out again, and so do as
many undos as there were insertions. -/
namespace ModalNotes

namespace Buffer

variable {b later : Buffer} {front back w piece : Text}

def caret (b : Buffer) : Nat := b.document.start b.cursor.row + b.cursor.col

structure Typed (front back w : Text) (b : Buffer) : Prop where
  sound : b.Sound
  text : b.text = front ++ (w ++ back)
  caret : b.caret = front.length + w.length

def Carries (d : Document) (p k : Nat) (id : Int) (a : Anchor) (b : Buffer) : Prop :=
  ∃ moved, b.anchors.get? id = some moved ∧ a.Stretched d p k moved b.document

/- A live anchor that no line end of the text comes into if it is typed at the cursor. -/
structure Spared (b : Buffer) (w : Text) (id : Int) (a : Anchor) : Prop where
  found : b.anchors.get? id = some a
  live : a.deleted = false
  plain : '\n' ∉ w ∨ ¬ (a.first b.document < b.caret ∧ b.caret < a.last b.document)

theorem Spared.spans {id : Int} {a : Anchor} (spared : Spared b w id a) (sound : b.Sound) : a.Spans b.document :=
  sound.anchors id a (Table.memOfGet spared.found) spared.live

theorem Spared.clear {id : Int} {a : Anchor} (spared : Spared b w id a) :
    a.Clear b.document b.caret b.caret ∨ '\n' ∉ w := by
  refine spared.plain.symm.imp_left fun outside => ?_
  unfold Anchor.Clear
  omega

theorem caretInside (sound : b.Sound) : b.caret ≤ b.text.length := Document.offsetLe sound.cursor

theorem frontLength (sound : b.Sound) : (b.text.take b.caret).length = b.caret := by
  rw [List.length_take, Nat.min_eq_left (caretInside sound)]

theorem typedNothing (sound : b.Sound) : Typed (b.text.take b.caret) (b.text.drop b.caret) [] b where
  sound := sound
  text := (List.take_append_drop b.caret b.text).symm
  caret := (frontLength sound).symm

theorem Typed.cursor (typed : Typed front back w b) :
    b.cursor = b.document.locate (front.length + w.length) := by
  rw [← typed.caret]
  exact (Document.locateOffset typed.sound.cursor).symm

theorem Typed.same (typed : Typed front back w b) (typed' : Typed front back w later) :
    later.document.lines = b.document.lines ∧ later.cursor = b.cursor := by
  have lines : later.document.lines = b.document.lines :=
    Document.linesOfText typed'.sound.document typed.sound.document (typed'.text.trans typed.text.symm)
  refine ⟨lines, ?_⟩
  rw [typed.cursor, typed'.cursor, Document.locate, Document.locate, lines]

theorem editTyped {e : Edit} (sound : b.Sound) (free : e.landing = none) (inside : e.start ≤ b.text.length) :
    (edit e).Ends b fun _ later => later.Sound ∧
      later.text = b.text.take e.start ++ (e.text ++ b.text.drop e.stop) ∧
      later.caret = e.start + e.text.length ∧ b.Edits e later := by
  refine Run.endsMono (Run.endsBoth (safeEdit e b sound) (editsExactly sound e)) ?_
  rintro _ later ⟨⟨follows, -⟩, edits⟩
  refine ⟨follows.sound, (congrArg Document.text edits.document).trans (editedText b e), ?_, edits⟩
  rw [caret, edits.document, edits.cursor]
  exact landedOffset free inside

theorem Edits.found {e : Edit} (edits : b.Edits e later) {id : Int} {a : Anchor}
    (found : b.anchors.get? id = some a) : later.anchors.get? id =
      some (Anchor.carried b.document (b.edited e) e.start e.stop e.text.length a) := by
  rw [edits.anchors, Table.getMap, found]
  rfl

theorem Typed.more (typed : Typed front back w b) (piece : Text) :
    (insertText piece).Ends b fun _ later => Typed front back (w ++ piece) later ∧
      ∀ d id a, a.Spans d → a.Clear d front.length front.length ∨ '\n' ∉ piece →
        Carries d front.length w.length id a b → Carries d front.length (w ++ piece).length id a later := by
  obtain ⟨sound, whole, place⟩ := typed
  have size : (front ++ w).length = b.caret := List.length_append.trans place.symm
  rw [← List.append_assoc] at whole
  unfold insertText
  simp only [Run.endsBind, Run.endsGet, Run.endsOfExcept, Run.endsPure]
  refine ⟨b.caret, offsetCursor sound, Run.endsMono (editTyped sound rfl (caretInside sound)) ?_⟩
  rintro _ later ⟨sound', text, place', edits⟩
  refine ⟨⟨sound', ?_, ?_⟩, fun d id a spans plain carried => ?_⟩
  · rw [text, whole, List.take_left' size, List.drop_left' size]
    simp only [List.append_assoc]
  · rw [place', place, List.length_append, Nat.add_assoc]
  · obtain ⟨moved, found, stretched⟩ := carried
    have grown := stretched.grown (t := piece) sound.document spans plain
    rw [← place, ← List.length_append] at grown
    refine ⟨_, edits.found found, ?_⟩
    rw [edits.document]
    exact grown

theorem Typed.less {c : Char} (typed : Typed front back (w ++ [c]) b) :
    deleteChar.Ends b fun _ later => Typed front back w later ∧
      ∀ d id a, a.Spans d → Carries d front.length (w ++ [c]).length id a b →
        Carries d front.length w.length id a later := by
  obtain ⟨sound, whole, place⟩ := typed
  have size : (front ++ w).length = b.caret - 1 := by
    rw [place, List.length_append, List.length_append]
    rfl
  have before : b.text.take (b.caret - 1) = front ++ w := by
    rw [whole, List.append_assoc, ← List.append_assoc front, List.take_left' size]
  have behind : b.text.drop b.caret = back := by
    rw [whole, ← List.append_assoc, List.drop_left' (List.length_append.trans place.symm)]
  have inside : b.caret - 1 ≤ b.text.length := Nat.le_trans (Nat.sub_le _ 1) (caretInside sound)
  have some : b.caret ≠ 0 := by
    rw [place, List.length_append]
    exact Nat.succ_ne_zero _
  unfold deleteChar
  simp only [Run.endsBind, Run.endsGet, Run.endsOfExcept]
  refine ⟨b.caret, offsetCursor sound, ?_⟩
  rw [if_neg some, Run.endsBind]
  refine Run.endsMono (editTyped sound rfl inside) ?_
  rintro _ later ⟨sound', text, place', edits⟩
  refine Run.endsPure.mpr ⟨⟨sound', ?_, ?_⟩, fun d id a spans carried => ?_⟩
  · rw [text, before, behind, List.nil_append, List.append_assoc]
  · rw [place', ← size, List.length_append]
    rfl
  · obtain ⟨moved, found, stretched⟩ := carried
    rw [List.length_append] at stretched
    have shrunk := stretched.shrunk sound.document spans
    rw [← List.length_append, size, Nat.sub_one_add_one some] at shrunk
    refine ⟨_, edits.found found, ?_⟩
    rw [edits.document]
    exact shrunk

def Noted (first : Page) (n : Nat) (b : Buffer) : Prop :=
  ∃ rs past, rs.length = n ∧ Behind rs b.text past ∧ past.getLastD ⟨b.text, b.cursor⟩ = first ∧
    rs.take b.history.limit <+: b.history.done

theorem notedNothing (b : Buffer) : Noted ⟨b.text, b.cursor⟩ 0 b :=
  ⟨[], [], rfl, .nil, rfl, by rw [List.take_nil]; exact List.nil_prefix⟩

theorem Noted.more {first : Page} {n : Nat} (noted : Noted first n b) (sound : b.Sound)
    (recorded : Recorded b later b.cursor) :
    Noted first (n + 1) later ∧ later.history.limit = b.history.limit := by
  obtain ⟨rs, past, size, behind, begins, done⟩ := noted
  obtain ⟨holds, r, turns, cursor, history, -⟩ := recorded
  have holds' := (Document.holdsText sound.document b.cursor).mpr holds
  refine ⟨⟨r :: rs, ⟨b.text, b.cursor⟩ :: past, congrArg Nat.succ size, .cons turns cursor holds' behind,
    ?_, ?_⟩, ?_⟩
  · rw [List.getLastD_cons, begins]
  · rw [history]
    exact Timeline.pushNoted done r
  · rw [history]
    rfl

theorem Noted.undone {first : Page} {n : Nat} (noted : Noted first n b) (sound : b.Sound)
    (kept : n ≤ b.history.limit) :
    (again undo n b).text = first.text ∧ (again undo n b).cursor = first.cursor := by
  obtain ⟨rs, past, rfl, behind, rfl, done⟩ := noted
  rw [List.take_of_length_le kept] at done
  clear kept
  induction rs generalizing b past with
  | nil =>
    cases behind
    exact ⟨rfl, rfl⟩
  | cons r rs ih =>
    obtain ⟨older, taken⟩ := done
    obtain _ | @⟨_, _, _, page, past, turns, cursor, holds, rest⟩ := behind
    obtain ⟨_, -, -, sound', text, history, landed, -⟩ := undoRewrites sound taken.symm turns
    have landed := (landed (by rw [text, cursor]; exact holds)).trans cursor
    have further := ih (b := (undo b).state) sound' past (text ▸ rest) (by rw [history]; exact ⟨older, rfl⟩)
    rw [text, landed] at further
    rw [List.length_cons, againPred, List.getLastD_cons]
    exact further

end Buffer

end ModalNotes
