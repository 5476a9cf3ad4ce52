import ModalNotes.Proofs.Editor.Command
import ModalNotes.Proofs.Session.Modal

/-! The answers of a session to keys, while a command waits and when nothing does. Every key is answered, but
for two kinds of them, and one that is refused leaves all but the command as it was. -/
namespace ModalNotes

namespace Session

section
variable {s : Session} {name : Text} {modifiers : List Text}

theorem keyEditor {e : Editor} {P : Reply → Prop}
    (ends : (Editor.key name modifiers).Ends s.editor fun reply later => P reply ∧ later = e)
    (sound : e.buffer.Sound) (version : e.buffer.version = s.buffer.version)
    (drawn : e.buffer.newAnchor = none) :
    (key name modifiers).Ends s fun reply later => P reply ∧ later = { s with editor := e } := by
  have still : ({ s with editor := e } : Session).buffer.version = s.buffer.version := version
  have taken : ({ e.buffer with newAnchor := none } : Buffer) = e.buffer := by rw [← drawn]
  unfold key
  rw [Run.endsBind, Run.endsGet, Run.endsBind, endsOnEditor]
  refine Run.endsMono ends ?_
  rintro reply later ⟨done, same⟩
  obtain rfl := same.symm
  rw [Run.endsBind, Run.endsGet, if_neg (not_not_intro still)]
  refine takeNone sound drawn ⟨done, ?_⟩
  exact congrArg (fun buffer => { s with editor := { e with buffer } }) taken

theorem keyStray (sound : s.Sound) (modal : s.editor.Modal) (other : s.editor.mode ≠ .insert)
    (stray : s.editor.takes (KeyPress.token name modifiers) = false) :
    (key name modifiers).Ends s fun reply later =>
      reply = s.editor.refusal ∧ later = { s with editor := s.editor.rested } := by
  obtain ⟨document, cursor, anchors⟩ := sound.editor.buffer
  exact keyEditor (Editor.keyStray modal other stray) ⟨document, cursor, anchors⟩ rfl sound.taken

theorem keyGives {P : Reply → Prop} (gives : (Editor.key name modifiers).Gives s.editor P) :
    (key name modifiers).Gives s P := by
  unfold key
  refine Run.givesGet (Run.givesBind (m := onEditor _) gives fun reply t given => ?_)
  refine Run.givesGet ?_
  split
  · exact Run.givesLast fun _ _ => takeGives given
  · exact takeGives given

theorem keyRefuses (sound : s.Sound) (modal : s.editor.Modal) (other : s.editor.mode ≠ .insert) :
    (key name modifiers).Gives s fun reply =>
      reply.refuses = true ↔ s.editor.takes (KeyPress.token name modifiers) = false := by
  intro reply given
  cases takes : s.editor.takes (KeyPress.token name modifiers) with
  | true =>
    have accepted := keyGives (Editor.keyAccepts other takes) reply given
    simp [accepted]
  | false =>
    obtain ⟨rfl, -⟩ := Run.endsAt (keyStray sound modal other takes) given
    simp [Editor.refusalRefuses]

theorem keyArms {b : Binding} {action : NamedAction Action} {command : Command} {opener : Text}
    (sound : s.Sound) (other : s.editor.mode ≠ .insert) (idle : s.editor.command = .none)
    (noDigit : Editor.isDigitKey (KeyPress.token name modifiers) = false)
    (found : s.editor.registry.lookup s.editor.mode.name (KeyPress.token name modifiers) = some (b, action))
    (arms : action.handler = .arm command opener) :
    (key name modifiers).Ends s fun reply later =>
      reply.status = .pending ∧ later = { s with editor := s.editor.armed command opener } :=
  keyEditor (P := fun reply => reply.status = .pending) (Editor.keyArms other idle noDigit found arms)
    sound.editor.buffer rfl sound.taken

theorem enterEnds (other : s.editor.mode ≠ .insert) (waits : s.editor.command ≠ .none) :
    (key "enter".toList [] s).state.editor.command = .none ∨ s.editor.Overlong "enter".toList := by
  have same := congrArg (fun stance => stance.1.command) (stanceKey "enter".toList [] s)
  have ended := Editor.keyEnter other waits
  exact ended.imp_left same.trans

end

/- In a new session a key is answered, whatever came before it, but for a digit that no number is written
with and a hop index too long to be written. It is refused just when nothing takes it, and then all but the
command and its input stays as it was. -/
theorem keysAnswered {title text : Text} {maxHistory : Int} {s : Session}
    (opened : ((fresh title text maxHistory : Run Unit Session) ()).result = .ok s) (inputs : List Input)
    (name : Text) (modifiers : List Text) :
    ((∃ reply, (key name modifiers (s.after inputs)).result = .ok reply) ↔
      ¬ (Input.key name modifiers).Misreads (s.after inputs) ∧
        ¬ (Input.key name modifiers).Overruns (s.after inputs)) ∧
    ((s.after inputs).editor.mode ≠ .insert →
      ((key name modifiers).Gives (s.after inputs) fun reply => reply.refuses = true ↔
        (s.after inputs).editor.takes (KeyPress.token name modifiers) = false) ∧
      ((s.after inputs).editor.takes (KeyPress.token name modifiers) = false →
        (key name modifiers).Ends (s.after inputs) fun reply later =>
          reply = (s.after inputs).editor.refusal ∧
            later = { s.after inputs with editor := (s.after inputs).editor.rested })) := by
  have sound := afterSound (openedSound (.fresh title text maxHistory opened)) inputs
  have modal := modalAfter (beginsModal (freshBegins opened)) inputs
  refine ⟨?_, fun other => ⟨keyRefuses sound modal other, keyStray sound modal other⟩⟩
  have ending := keyAfter sound name modifiers
  unfold Run.After at ending
  rw [← misreadKey, ← overlongKey]
  cases result : (key name modifiers (s.after inputs)).result with
  | ok reply =>
    rw [result] at ending
    exact ⟨fun _ => ending.2, fun _ => ⟨reply, rfl⟩⟩
  | error fault =>
    rw [result] at ending
    refine ⟨fun answered => ?_, fun free => ?_⟩
    · obtain ⟨reply, same⟩ := answered
      contradiction
    · rcases ending with ⟨misread, -⟩ | ⟨overlong, -⟩
      · exact absurd misread free.1
      · exact absurd overlong free.2

theorem idleOfBuffer (registry : Registry Action) (b : Buffer) (title : Text) (links : LinkStore) :
    (ofBuffer registry b title links).editor.registry = registry ∧
      (ofBuffer registry b title links).editor.mode = .normal ∧
      (ofBuffer registry b title links).editor.command = .none := ⟨rfl, rfl, rfl⟩

theorem superscriptUnanswered : ∃ s, ((fresh [] ['a', 'b'] 100 : Run Unit Session) ()).result = .ok s ∧
    (key ['é'] []).Ends s (fun reply later => reply = s.editor.refusal ∧
      later = { s with editor := s.editor.rested }) ∧
    ¬ ∃ reply, (key ['²'] [] s).result = .ok reply := by
  obtain ⟨s, opened, idle⟩ : ∃ s, ((fresh [] ['a', 'b'] 100 : Run Unit Session) ()).result = .ok s ∧
      s.editor.registry = Keymap.standard.state ∧ s.editor.mode = .normal ∧ s.editor.command = .none :=
    ⟨ofBuffer Keymap.standard.state (Buffer.ofText ['a', 'b'] 100) [] {}, rfl, idleOfBuffer _ _ _ _⟩
  obtain ⟨registry, mode, command⟩ := idle
  have other : s.editor.mode ≠ .insert := by simp [mode]
  have token : KeyPress.token ['é'] [] = ['é'] := KeyPress.tokenAlone fun _ member => nomatch member
  have unbound : Keymap.standard.state.lookup Mode.normal.name ['é'] = none :=
    Keymap.standardUnbound (by decide +kernel)
  have stray : s.editor.takes (KeyPress.token ['é'] []) = false := by
    simp only [Editor.takes, command, registry, mode, token, unbound]
    decide
  refine ⟨s, opened, ((keysAnswered opened [] ['é'] []).2 other).2 stray, fun answered => ?_⟩
  have free := ((keysAnswered opened [] ['²'] []).1.mp answered).1
  exact free ⟨'²', [], rfl, (fun _ member => nomatch member), by decide, by decide, other, .inl command⟩

end Session

end ModalNotes
