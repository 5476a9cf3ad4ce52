import ModalNotes.Proofs.Buffer.Search
import ModalNotes.Proofs.Editor.Hop
import ModalNotes.Proofs.Session.Count
import ModalNotes.Proofs.Session.Modal

/-! A hop from its first key to its last. The cursor goes to the match with the index that was typed, and nothing
else of the buffer changes. -/
namespace ModalNotes

theorem pairStands {l : Text} {col : Nat} {c c' : Char} :
    [c, c'] <+: l.drop col ↔ l[col]? = some c ∧ l[col + 1]? = some c' := by
  have first : l[col]? = (l.drop col)[0]? := by rw [List.getElem?_drop, Nat.add_zero]
  have second : l[col + 1]? = (l.drop col)[1]? := by rw [List.getElem?_drop]
  rw [first, second]
  cases l.drop col with
  | nil => simp
  | cons a rest => cases rest <;> simp [List.cons_prefix_cons, eq_comm]

namespace Buffer

theorem pairMatches (lines : List Text) (c c' : Char) :
    (matchesOf lines [c, c']).Pairwise Cursor.Precedes ∧
      ∀ p, p ∈ matchesOf lines [c, c'] ↔ ∃ l, lines[p.row]? = some l ∧ l[p.col]? = some c ∧
        l[p.col + 1]? = some c' := by
  obtain ⟨order, exact⟩ := matchesFind lines [c, c']
  refine ⟨order, fun p => ?_⟩
  rw [exact]
  constructor
  · rintro ⟨l, found, -, stands⟩
    exact ⟨l, found, pairStands.mp stands⟩
  · rintro ⟨l, found, first, second⟩
    have inside := (List.getElem?_eq_some_iff.mp first).1
    exact ⟨l, found, Nat.le_of_lt inside, pairStands.mpr ⟨first, second⟩⟩

theorem hopCleared {b : Buffer} (hop : b.hop = (none, [])) (cursor : Cursor) :
    ({ b with cursor, hopKey := none, hopMatches := [] } : Buffer) = { b with cursor } := by
  obtain ⟨key, found⟩ := Prod.mk.inj hop
  rw [← key, ← found]

end Buffer

namespace Session

variable {s : Session} {c c' : Char} {digits name : Text} {modifiers : List Text}

theorem hopBound : Keymap.Binds .normal ['s'] (.arm .primeHop []) := by decide +kernel

theorem afterFailed {e : Editor} {fault : Fault}
    (fails : (Editor.key name modifiers).After s.editor fun r later => r = .error fault ∧ later = e) :
    s.after [.key name modifiers] = { s with editor := e } := by
  have done : (key name modifiers).After s fun _ later => later = { s with editor := e } := by
    unfold key
    refine Run.afterBindEnds (Run.endsGet.mpr ?_)
    rw [Run.afterBind, onEditor, Run.afterOn]
    refine Run.afterMono fails ?_
    rintro _ _ ⟨rfl, rfl⟩
    rfl
  rw [afterKey]
  exact done

theorem collectedAfter (sound : s.Sound) (other : s.editor.mode ≠ .insert) (waits : s.editor.command = .primeHop)
    (none : s.editor.pending.typed = []) (printable : Text.isPrintable c = true) :
    s.after [.key [c] []] =
      { s with editor := { s.editor with pending := { s.editor.pending with typed := [c] } } } :=
  afterStill (Editor.keyCollects other waits none printable) sound.editor.buffer rfl sound.taken

theorem soughtAfter (sound : s.Sound) (other : s.editor.mode ≠ .insert) (waits : s.editor.command = .primeHop)
    (one : s.editor.pending.typed = [c]) (printable : Text.isPrintable c' = true) :
    s.after [.key [c'] []] = { s with editor := s.editor.hopping [c, c'] } := by
  have buffer : (s.editor.hopping [c, c']).buffer.Sound :=
    ⟨sound.editor.buffer.document, sound.editor.buffer.cursor, sound.editor.buffer.anchors⟩
  exact afterStill (Editor.keySeeks other waits one printable) buffer rfl sound.taken

theorem hoppingAfter (sound : s.Sound) (modal : s.editor.Modal) (normal : s.editor.mode = .normal)
    (free : s.editor.command = .none) (printable : Text.isPrintable c = true)
    (printable' : Text.isPrintable c' = true) :
    s.after (presses [['s'], [c], [c']]) = { s with editor := s.editor.hopping [c, c'] } := by
  have other : s.editor.mode ≠ .insert := by simp [normal]
  have none : s.editor.pending.typed = [] := by
    have collects := modal.collects
    rw [free] at collects
    exact collects
  have bound : s.editor.Bound (KeyPress.token ['s'] []) (.arm .primeHop []) :=
    Editor.boundSingle sound.editor.registry free normal (by decide) hopBound
  have keys : presses [['s'], [c], [c']] = [.key ['s'] []] ++ [.key [c] []] ++ [.key [c'] []] := rfl
  have sound' := afterSound sound [.key ['s'] []]
  have sound'' := afterSound sound' [.key [c] []]
  have armed := armedAfter sound other bound
  rw [armed] at sound' sound''
  have collected := collectedAfter sound' other rfl (by simp [Editor.armed, none]) printable
  rw [collected] at sound''
  rw [keys, afterAppend, afterAppend, armed, collected, soughtAfter sound'' other rfl rfl printable']
  rfl

theorem hoppedAfter {index : Nat} (sound : s.Sound) (other : s.editor.mode ≠ .insert)
    (waits : s.editor.command = .executeHop) (ends : Editor.endsHop (KeyPress.token name modifiers) = true)
    (told : Editor.hopIndex s.editor = index) :
    ∃ e, s.after [.key name modifiers] = { s with editor := e } ∧
      (Text.isWritable index = true ∧ e = (s.editor.hopped index).rests (s.editor.hopped index).buffer ∨
        Text.isWritable index = false ∧ e = s.editor.hopped index) := by
  have place : s.buffer.document.Holds (s.editor.hopped index).buffer.cursor := by
    have hops := sound.editor.hops waits
    simp only [Editor.hopped, List.getD_eq_getElem?_getD]
    cases found : s.editor.buffer.hopMatches[index]? with
    | none => exact sound.editor.buffer.cursor
    | some c => exact hops c (List.mem_of_getElem? found)
  have buffer : (s.editor.hopped index).buffer.Sound :=
    ⟨sound.editor.buffer.document, place, sound.editor.buffer.anchors⟩
  have done := Editor.keyHops other waits ends told
  rw [Run.After] at done
  cases result : (Editor.key name modifiers s.editor).result with
  | ok reply =>
    rw [result] at done
    exact ⟨_, afterStill ⟨reply, result, done.2⟩ buffer rfl sound.taken, .inl ⟨done.1, rfl⟩⟩
  | error fault =>
    rw [result] at done
    exact ⟨_, afterFailed ⟨result, done.2⟩, .inr ⟨done.1, rfl⟩⟩

theorem typedIndex (digits key : Text) (e : Editor) :
    Editor.hopIndex ((e.hopping key).typing digits) = Text.number digits := by
  cases digits with
  | nil => rfl
  | cons d rest =>
    have count : Pending.count { digits := (d :: rest).map Text.digitOf, typed := key } =
        Text.number (d :: rest) := countTyped (d :: rest) key
    simpa [Editor.hopIndex, Editor.typing, Editor.hopping] using count

/- A hop goes to the match with the index that was typed, or nowhere if there are not so many. Nothing else of
the buffer changes, and nothing of the hop is left, but for an index that is too long to be written. -/
theorem hopGoesToMatch (sound : s.Sound) (modal : s.editor.Modal) (normal : s.editor.mode = .normal)
    (free : s.editor.command = .none) (printable : Text.isPrintable c = true)
    (printable' : Text.isPrintable c' = true) (decimal : ∀ d ∈ digits, Text.isDecimal d = true)
    (ends : Editor.endsHop (KeyPress.token name modifiers) = true) :
    let places := Buffer.matchesOf s.buffer.document.lines [c, c']
    let index := Text.number digits
    let later := s.after (presses [['s'], [c], [c']] ++ typed digits ++ [.key name modifiers])
    (places.Pairwise Cursor.Precedes ∧ ∀ p, p ∈ places ↔ ∃ l, s.buffer.document.lines[p.row]? = some l ∧
        l[p.col]? = some c ∧ l[p.col + 1]? = some c') ∧
      later = { s with editor := later.editor } ∧
      later.buffer = { s.buffer with cursor := places.getD index s.buffer.cursor } ∧
      later.buffer.hop = (none, []) ∧ later.editor.mode = .normal ∧
      (Text.isWritable index = true → Idle later) ∧
      (Text.isWritable index = false → later.editor.command = .executeHop ∧
        later.editor.pending = { digits := digits.map Text.digitOf, typed := [c, c'] }) := by
  have other : s.editor.mode ≠ .insert := by simp [normal]
  have hopless := modal.hopless (by simp [free])
  have sound' := afterSound sound (presses [['s'], [c], [c']])
  have sound'' := afterSound sound' (typed digits)
  have sought := hoppingAfter sound modal normal free printable printable'
  rw [sought] at sound' sound''
  have counted := typedAfter sound' other (.inr rfl) decimal
  rw [counted] at sound''
  obtain ⟨e, hopped, ended⟩ := hoppedAfter sound'' other rfl ends (typedIndex digits [c, c'] s.editor)
  dsimp only
  rw [afterAppend, afterAppend, sought, counted, hopped]
  refine ⟨Buffer.pairMatches _ c c', rfl, ?_⟩
  rcases ended with ⟨writes, rfl⟩ | ⟨writes, rfl⟩
  · exact ⟨Buffer.hopCleared hopless _, rfl, normal, fun _ => ⟨rfl, rfl⟩,
      fun long => absurd (writes.symm.trans long) (by decide)⟩
  · exact ⟨Buffer.hopCleared hopless _, rfl, normal, fun short => absurd (writes.symm.trans short) (by decide),
      fun _ => ⟨rfl, rfl⟩⟩

theorem secondPairReached : ∃ s, ((fresh [] "cab\nab".toList 100 : Run Unit Session) ()).result = .ok s ∧
    (s.after (presses [['s'], ['a'], ['b']] ++ typed ['1'] ++ presses [['h']])).buffer =
      { s.buffer with cursor := ⟨1, 0⟩ } ∧
    Idle (s.after (presses [['s'], ['a'], ['b']] ++ typed ['1'] ++ presses [['h']])) := by
  obtain ⟨s, opened, buffer, normal, -, idle⟩ := freshIdle [] "cab\nab".toList 100
  have ends : Editor.endsHop (KeyPress.token ['h'] []) = true := by
    rw [KeyPress.tokenSingle]
    decide
  have first : Text.isPrintable 'a' = true := by decide +kernel
  have second : Text.isPrintable 'b' = true := by decide +kernel
  obtain ⟨-, -, reached, -, -, rests, -⟩ := hopGoesToMatch
    (openedSound (.fresh [] _ 100 opened)) (beginsModal (freshBegins opened)) normal idle.command first second
    (List.all_eq_true.mp (by decide : ['1'].all Text.isDecimal = true)) ends
  have place : (Buffer.matchesOf s.buffer.document.lines ['a', 'b']).getD (Text.number ['1']) s.buffer.cursor =
      ⟨1, 0⟩ := by
    rw [buffer]
    decide +kernel
  rw [place] at reached
  exact ⟨s, opened, reached, rests (by decide +kernel)⟩

end Session

end ModalNotes
