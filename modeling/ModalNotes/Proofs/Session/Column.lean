import Mathlib.Data.List.Induction
import ModalNotes.Proofs.Editor.Column
import ModalNotes.Proofs.Session.Count

/-! The column that a session remembers, along every run of inputs. As long as it is the cursor's, the way down
and up again leads back to the cursor's place, past lines of any length. -/
namespace ModalNotes

namespace Motion

def rowFrom : Motion → Nat → Nat → Nat
  | .down, row, n => row + n
  | .up, row, n => row - n
  | _, row, _ => row

theorem rowFromAdd (m : Motion) (row k n : Nat) : m.rowFrom (m.rowFrom row k) n = m.rowFrom row (k + n) := by
  cases m <;> simp only [rowFrom] <;> omega

theorem nextRows {m : Motion} (steep : m = .down ∨ m = .up) {d : Document} {c : Cursor} (sound : d.Sound)
    (h : d.Holds c) (n : Nat) (below : m = .down → c.row + n < d.lineCount) :
    ((m.next d)^[n] c).row = m.rowFrom c.row n := by
  induction n with
  | zero => rcases steep with rfl | rfl <;> rfl
  | succ n ih =>
    have row := ih fun down => Nat.lt_of_succ_lt (below down)
    have inside := (nextHolds (m := m) sound h n).1
    rw [Function.iterate_succ_apply']
    rcases steep with rfl | rfl
    · have below := below rfl
      simp only [Document.lineCount] at below
      simp only [rowFrom] at row
      simp only [next, target, Except.toOption, Option.getD_some, Document.clamp, Document.lastRow, rowFrom, row]
      omega
    · simp only [Document.lineCount] at inside
      simp only [rowFrom] at row
      simp only [next, target, Except.toOption, Option.getD_some, Document.clamp, Document.lastRow, rowFrom, row]
      omega

end Motion

namespace Session

open Run (Leaves)

variable {s : Session}

def place (s : Session) : Document × Cursor × Option Nat := s.editor.place

theorem placeCancelLink (s : Session) : Leaves place cancelLink s := cancelView (fun _ _ => rfl) fun _ => rfl

theorem placeKey (name : Text) (modifiers : List Text) (s : Session) :
    (key name modifiers s).state.place = (Editor.key name modifiers s.editor).state.place :=
  keyView (fun _ _ _ => rfl) (fun _ => rfl) placeCancelLink fun _ _ => rfl

theorem searchColumn (sound : s.Sound) (pattern : Option Text) : (search pattern).Ends s fun _ later =>
    later.place = s.place ∨ later.editor.Aligned := by
  have buffer := sound.editor.buffer
  unfold search
  rw [Run.endsBind, endsOnBuffer, Buffer.setSearchPattern, Run.endsModify, Run.endsBind, endsOnBuffer]
  have calm := Run.endsMono (Buffer.calmSearchForward _ (⟨buffer.document, buffer.cursor, buffer.anchors⟩ :
    Buffer.Sound { s.buffer with searchPattern := pattern.filter (!·.isEmpty) })) fun _ _ post => post.1
  refine Run.endsMono (Buffer.steadyReports calm (Buffer.reportsSearchWith _ _)) ?_
  rintro found b ⟨steady, lost⟩
  cases found with
  | false =>
    rw [lost rfl]
    exact Run.endsPure.mpr (.inl rfl)
  | true =>
    rw [if_pos rfl, Run.endsBind, endsOnEditor, Editor.recordColumn, Run.endsModify, Run.endsPure]
    refine .inr (Editor.alignedRecorded ?_ rfl)
    exact steady.document ▸ steady.cursor

def Input.SelectsLine (s : Session) (input : Input) : Prop :=
  ∃ name modifiers, input = .key name modifiers ∧ s.editor.SelectsLine (KeyPress.token name modifiers)

theorem inputColumn (sound : s.Sound) {input : Input} (plain : ¬ input.SelectsLine s) :
    (input.run s).state.place = s.place ∨ (input.run s).state.editor.Aligned := by
  cases input with
  | key name modifiers =>
    have state : ((Input.key name modifiers).run s).state = (key name modifiers s).state :=
      Run.ignoredState _ s
    have kept : (Editor.key name modifiers).After s.editor fun _ later =>
        later.place = s.editor.place ∨ later.Aligned :=
      Editor.keyColumn sound.editor fun selects => plain ⟨name, modifiers, rfl, selects⟩
    have same := placeKey name modifiers s
    rw [state, same]
    exact kept.imp_right (Editor.alignedPlace same)
  | search pattern =>
    have state : ((Input.search pattern).run s).state = (search pattern s).state := Run.ignoredState _ s
    obtain ⟨_, -, kept⟩ := searchColumn sound pattern
    exact state ▸ kept
  | attach linked =>
    have state : ((Input.attach linked).run s).state = (attachLink linked s).state := Run.ignoredState _ s
    obtain ⟨_, -, -, same, -⟩ := attachLinkEnds sound linked
    exact .inl ((congrArg place state).trans (congrArg Editor.place same))
  | cancel => exact .inl (placeCancelLink s)

theorem inputSelectsLine (sound : s.Sound) {input : Input} (selects : input.SelectsLine s) :
    (input.run s).state.place = s.editor.lineSelected := by
  obtain ⟨name, modifiers, rfl, selects⟩ := selects
  have state : ((Input.key name modifiers).run s).state = (key name modifiers s).state :=
    Run.ignoredState _ s
  obtain ⟨_, -, same⟩ := Editor.keySelectsLine sound.editor selects
  rw [state, placeKey, same]

def paces : Mode → List (Text × Motion)
  | .insert => [("down".toList, .down), ("up".toList, .up)]
  | _ => strides

structure Leads (mode : Mode) (m : Motion) (leg : Text × Text) : Prop where
  pace : (leg.2, m) ∈ paces mode
  decimal : ∀ c ∈ leg.1, Text.isDecimal c = true
  plain : mode = .insert → leg.1 = []

def walked (legs : List (Text × Text)) : List Input := legs.flatMap fun leg => typed leg.1 ++ presses [leg.2]

def distance : List (Text × Text) → Nat
  | [] => 0
  | leg :: rest => Text.count leg.1 + distance rest

theorem arrowsBound : ∀ pace ∈ paces .insert, KeyPress.token pace.1 [] = pace.1 ∧
    Keymap.Binds .insert pace.1 (.arrow pace.2) := by decide +kernel

theorem legStepped (sound : s.Sound) (idle : Idle s) {m : Motion} {leg : Text × Text}
    (leads : Leads s.editor.mode m leg) :
    (s.after (typed leg.1 ++ presses [leg.2])).editor = Editor.stepped m (Text.count leg.1) s.editor := by
  have counted : ∀ mode ∈ [Mode.normal, .visual], s.editor.mode = mode → (leg.2, m) ∈ strides →
      (s.after (typed leg.1 ++ presses [leg.2])).editor = Editor.stepped m (Text.count leg.1) s.editor := by
    rintro mode modal rfl member
    have other : s.editor.mode ≠ .insert := by
      intro insert
      rw [insert] at modal
      exact absurd modal (by decide)
    exact turnsCounted (steppedTurns m) (stridesCount member modal) other sound rfl idle leads.decimal
  have pace := leads.pace
  cases mode : s.editor.mode with
  | normal =>
    rw [mode] at pace
    exact counted .normal (by decide) mode pace
  | visual =>
    rw [mode] at pace
    exact counted .visual (by decide) mode pace
  | insert =>
    rw [mode] at pace
    obtain ⟨token, binds⟩ := arrowsBound _ pace
    have once : (s.after [.key leg.2 []]).editor = Editor.moved m 1 s.editor :=
      afterFollowed sound (Editor.arrowKey sound.editor.buffer mode sound.editor.registry (token.symm ▸ binds))
        ((Editor.movedSteady m sound.editor.buffer 1).follows sound.editor.buffer)
    have rested : Editor.stepped m 1 s.editor = Editor.moved m 1 s.editor := by
      have still : s.editor.rests s.editor.buffer = s.editor := by
        rw [Editor.rests, ← idle.command, ← idle.pending]
      rw [← Editor.movedRests, still]
    rw [leads.plain mode, Text.count, List.isEmpty_nil, if_pos rfl, rested]
    exact once

structure Stands (d : Document) (mode : Mode) (col row : Nat) (s : Session) : Prop where
  sound : s.Sound
  idle : Idle s
  mode : s.editor.mode = mode
  document : s.buffer.document = d
  cursor : s.buffer.cursor = d.clamp row col
  column : s.editor.column.getD s.buffer.cursor.col = col

theorem alignedStands (sound : s.Sound) (idle : Idle s) (aligned : s.editor.Aligned) :
    Stands s.buffer.document s.editor.mode (s.editor.column.getD s.buffer.cursor.col) s.buffer.cursor.row s where
  sound := sound
  idle := idle
  mode := rfl
  document := rfl
  cursor := by
    have holds : s.buffer.document.Holds s.buffer.cursor := sound.editor.buffer.cursor
    rw [Document.clampAt holds.1]
    refine congrArg (Cursor.mk s.buffer.cursor.row) ?_
    cases column : s.editor.column with
    | none => exact (Nat.min_eq_left holds.2).symm
    | some col => exact aligned col column
  column := rfl

theorem standsLeg {d : Document} {mode : Mode} {col row : Nat} {m : Motion} {leg : Text × Text}
    (stands : Stands d mode col row s) (steep : m = .down ∨ m = .up) (leads : Leads mode m leg)
    (inside : row < d.lineCount) (below : m = .down → row + Text.count leg.1 < d.lineCount) :
    Stands d mode col (m.rowFrom row (Text.count leg.1)) (s.after (typed leg.1 ++ presses [leg.2])) := by
  obtain ⟨sound, idle, rfl, rfl, cursor, column⟩ := stands
  have stepped := legStepped sound idle leads
  have vertical : m.isVertical = true := by rcases steep with rfl | rfl <;> rfl
  rw [Document.clampAt inside] at cursor
  have start : s.buffer.cursor.row = row := congrArg Cursor.row cursor
  have arrives : ((m.next s.editor.buffer.document)^[Text.count leg.1] s.editor.buffer.cursor).row =
      m.rowFrom row (Text.count leg.1) :=
    start ▸ Motion.nextRows steep sound.editor.buffer.document sound.editor.buffer.cursor _
      fun down => (congrArg (· + _) start).trans_lt (below down)
  have known : s.editor.column.getD s.editor.buffer.cursor.col = col := column
  rw [Editor.stepped, Editor.movedVertical vertical, arrives, known] at stepped
  exact {
    sound := afterSound sound _
    idle := ⟨by rw [stepped]; rfl, by rw [stepped]; rfl⟩
    mode := by rw [stepped]; rfl
    document := by rw [buffer, stepped]; rfl
    cursor := by rw [buffer, stepped]; rfl
    column := by rw [stepped]; rfl }

theorem standsWalk {d : Document} {mode : Mode} {col row : Nat} {m : Motion} {legs : List (Text × Text)}
    (stands : Stands d mode col row s) (steep : m = .down ∨ m = .up) (leads : ∀ leg ∈ legs, Leads mode m leg)
    (inside : row < d.lineCount) (below : m = .down → row + distance legs < d.lineCount) :
    Stands d mode col (m.rowFrom row (distance legs)) (s.after (walked legs)) := by
  induction legs generalizing s row with
  | nil =>
    have none : m.rowFrom row (distance []) = row := by rcases steep with rfl | rfl <;> rfl
    rw [none]
    exact stands
  | cons leg rest ih =>
    obtain ⟨first, others⟩ := List.forall_mem_cons.mp leads
    have all : s.after (walked (leg :: rest)) =
        (s.after (typed leg.1 ++ presses [leg.2])).after (walked rest) := afterAppend s _ _
    rw [distance] at below ⊢
    rw [all, ← Motion.rowFromAdd]
    have once := standsLeg stands steep first inside fun down => by
      have below := below down
      omega
    refine ih once others ?_ fun down => ?_
    · rcases steep with rfl | rfl
      · have below := below rfl
        simp only [Motion.rowFrom]
        omega
      · simp only [Motion.rowFrom]
        omega
    · have below := below down
      rw [down, Motion.rowFrom]
      omega

theorem walkReturns (sound : s.Sound) (idle : Idle s) (aligned : s.editor.Aligned)
    {downs ups : List (Text × Text)} (down : ∀ leg ∈ downs, Leads s.editor.mode .down leg)
    (up : ∀ leg ∈ ups, Leads s.editor.mode .up leg) (even : distance downs = distance ups)
    (below : s.buffer.cursor.row + distance downs < s.buffer.document.lineCount) :
    (s.after (walked downs ++ walked ups)).buffer.cursor = s.buffer.cursor := by
  have start := alignedStands sound idle aligned
  have low := standsWalk start (.inl rfl) down sound.editor.buffer.cursor.1 fun _ => below
  have high := standsWalk low (.inr rfl) up below fun up => nomatch up
  have level : Motion.rowFrom .up (Motion.rowFrom .down s.buffer.cursor.row (distance downs)) (distance ups) =
      s.buffer.cursor.row := by
    rw [← even]
    exact Nat.add_sub_cancel _ _
  rw [afterAppend, high.cursor, level, ← start.cursor]

theorem openedColumn (opened : Opened s) : s.editor.column = none := by
  cases opened with
  | fresh title text maxHistory opened =>
    cases opened
    exact (ofBufferIdle _ _ _ _).2.2.1
  | stored maxHistory rows opened =>
    obtain ⟨rfl, -⟩ := Run.endsAt (reopenOk rows maxHistory) opened
    exact (ofBufferIdle _ _ _ _).2.2.1

/- The last key that selected a whole line is still where the cursor and the column come from. -/
def LineSelected (s : Session) (inputs : List Input) : Prop :=
  ∃ before input rest, inputs = before ++ input :: rest ∧ input.SelectsLine (s.after before) ∧
    (s.after inputs).place = (s.after before).editor.lineSelected

theorem alignedAfter (opened : Opened s) (inputs : List Input) :
    (s.after inputs).editor.Aligned ∨ LineSelected s inputs := by
  induction inputs using List.reverseRecOn with
  | nil =>
    refine .inl fun col remembered => ?_
    cases (openedColumn opened).symm.trans remembered
  | append_singleton before input ih =>
    have sound := afterSound (openedSound opened) before
    have last : s.after (before ++ [input]) = (input.run (s.after before)).state := afterAppend s before [input]
    by_cases selects : input.SelectsLine (s.after before)
    · exact .inr ⟨before, input, [], rfl, selects, last ▸ inputSelectsLine sound selects⟩
    rcases inputColumn sound selects with same | aligned
    · rw [← last] at same
      refine ih.imp (Editor.alignedPlace same) ?_
      rintro ⟨front, key, rest, rfl, selected, place⟩
      exact ⟨front, key, rest ++ [input], by simp, selected, same.trans place⟩
    · exact .inl (last ▸ aligned)

/- Along every run the remembered column is the cursor's, seen through the length of its line, but for a line
that was selected whole and a cursor that has not been moved since. Every other input that moves the cursor,
changes the text or records the column makes the two agree. Wherever they agree the way down and up again
leads back. -/
theorem columnThroughLines (opened : Opened s) (inputs : List Input) :
    ((s.after inputs).editor.Aligned ∨ LineSelected s inputs) ∧
    (∀ input : Input, ¬ input.SelectsLine (s.after inputs) →
      (input.run (s.after inputs)).state.place ≠ (s.after inputs).place →
        (input.run (s.after inputs)).state.editor.Aligned) ∧
    ((s.after inputs).editor.Aligned → Idle (s.after inputs) → ∀ downs ups : List (Text × Text),
      (∀ leg ∈ downs, Leads (s.after inputs).editor.mode .down leg) →
      (∀ leg ∈ ups, Leads (s.after inputs).editor.mode .up leg) → distance downs = distance ups →
      (s.after inputs).buffer.cursor.row + distance downs < (s.after inputs).buffer.document.lineCount →
        ((s.after inputs).after (walked downs ++ walked ups)).buffer.cursor =
          (s.after inputs).buffer.cursor) := by
  have sound := afterSound (openedSound opened)
  exact ⟨alignedAfter opened inputs,
    fun input plain moved => (inputColumn (sound inputs) plain).resolve_left moved,
    fun aligned idle downs ups => walkReturns (sound inputs) idle aligned⟩

theorem searchedFresh (registry : Registry Action) :
    let s := ofBuffer registry (Buffer.ofText "ab cd\nx\nefgh".toList 100) [] {}
    let t := s.after [.search (some "cd".toList)]
    s.buffer.cursor = ⟨0, 0⟩ ∧ t.buffer.cursor = ⟨0, 3⟩ ∧ t.editor.mode = .normal ∧ Idle t ∧
      t.buffer.document.lineCount = 3 :=
  ⟨rfl, rfl, rfl, ⟨rfl, rfl⟩, rfl⟩

theorem searchReturns : ∃ s, ((fresh [] "ab cd\nx\nefgh".toList 100 : Run Unit Session) ()).result = .ok s ∧
    (s.after [.search (some "cd".toList)]).editor.Aligned ∧
    ((s.after [.search (some "cd".toList)]).after
      (walked [(['2'], ['j'])] ++ walked [([], ['k']), ([], "up".toList)])).buffer.cursor = ⟨0, 3⟩ := by
  obtain ⟨s, opened, start, cursor, mode, idle, rows⟩ :
      ∃ s, ((fresh [] "ab cd\nx\nefgh".toList 100 : Run Unit Session) ()).result = .ok s ∧
        s.buffer.cursor = ⟨0, 0⟩ ∧ (s.after [.search (some "cd".toList)]).buffer.cursor = ⟨0, 3⟩ ∧
        (s.after [.search (some "cd".toList)]).editor.mode = .normal ∧
        Idle (s.after [.search (some "cd".toList)]) ∧
        (s.after [.search (some "cd".toList)]).buffer.document.lineCount = 3 :=
    ⟨ofBuffer Keymap.standard.state (Buffer.ofText "ab cd\nx\nefgh".toList 100) [] {}, rfl, searchedFresh _⟩
  have new : Opened s := .fresh [] _ 100 opened
  have aligned : (s.after [.search (some "cd".toList)]).editor.Aligned := by
    refine (columnThroughLines new []).2.1 (.search _) (fun selects => ?_) fun same => ?_
    · obtain ⟨_, _, key, -⟩ := selects
      contradiction
    · have still : (s.after [.search (some "cd".toList)]).buffer.cursor = s.buffer.cursor :=
        congrArg (fun place => place.2.1) same
      rw [start, cursor] at still
      contradiction
  have leads : ∀ m (legs : List (Text × Text)),
      (∀ leg ∈ legs, (leg.2, m) ∈ strides ∧ leg.1.all Text.isDecimal = true) →
      ∀ leg ∈ legs, Leads (s.after [.search (some "cd".toList)]).editor.mode m leg := by
    intro m legs given leg member
    rw [mode]
    exact ⟨(given leg member).1, List.all_eq_true.mp (given leg member).2, nofun⟩
  have returns := (columnThroughLines new [.search (some "cd".toList)]).2.2 aligned idle
    [(['2'], ['j'])] [([], ['k']), ([], "up".toList)] (leads _ _ (by decide +kernel))
    (leads _ _ (by decide +kernel)) (by decide +kernel)
    (by rw [cursor, rows]; decide +kernel)
  exact ⟨s, opened, aligned, returns.trans cursor⟩

end Session

end ModalNotes
