import ModalNotes.Proofs.KeyPress
import ModalNotes.Proofs.Session.Key
import ModalNotes.Proofs.Session.Opened

/-! What a host does to an open session, one input after another. The session stays sound, and an input
fails for two causes only. -/
namespace ModalNotes.Session

inductive Input
  | key (name : Text) (modifiers : List Text)
  | search (pattern : Option Text)
  | attach (linked : Int)
  | cancel
  deriving DecidableEq, Repr

def Input.run : Input → Run Session Unit
  | key name modifiers => do let _ ← Session.key name modifiers
  | search pattern => do let _ ← Session.search pattern
  | attach linked => do let _ ← attachLink linked
  | cancel => cancelLink

def after (s : Session) (inputs : List Input) : Session :=
  inputs.foldl (fun s input => (input.run s).state) s

def Input.Misreads (s : Session) (input : Input) : Prop :=
  ∃ c modifiers, input = .key [c] modifiers ∧ (∀ m ∈ modifiers, m = []) ∧
    Text.isDigit c = true ∧ Text.isDecimal c = false ∧
    s.editor.mode ≠ .insert ∧ (s.editor.command = .none ∨ s.editor.command = .executeHop)

def Input.Overruns (s : Session) (input : Input) : Prop :=
  ∃ name modifiers, input = .key name modifiers ∧
    s.editor.Overlong (KeyPress.token name modifiers)

def Attaches (s later : Session) : Prop :=
  ∃ id a linked, s.pendingAnchor = some id ∧ s.buffer.anchors.get? id = some a ∧ a.deleted = false ∧
    later.links = { s.links with
      links := s.links.links.put id {
        parent := s.links.parent, anchor := id, linked, row := a.row, startCol := a.startCol,
        endCol := a.endCol, serial := s.links.nextSerial }
      nextSerial := s.links.nextSerial + 1 }

structure Served (s later : Session) : Prop where
  sound : later.Sound
  anchors : Extends s later
  links : Tracks s later ∨ Attaches s later

structure Input.Ending (s : Session) (input : Input) (r : Except Fault Unit) (later : Session) :
    Prop where
  served : Served s later
  fails : (∃ fault, r = .error fault) ↔ input.Misreads s ∨ input.Overruns s
  misread : input.Misreads s → later = s
  overrun : input.Overruns s →
    later = { s with editor := later.editor } ∧ s.buffer.Steady later.buffer
  cause : ∀ fault, r = .error fault → (∃ token, fault = .notANumber token) ∨ fault = .tooLongToWrite

theorem misreadKey {s : Session} {name : Text} {modifiers : List Text} :
    s.editor.Misread (KeyPress.token name modifiers) ↔
      Input.Misreads s (.key name modifiers) := by
  constructor
  · intro post
    obtain ⟨other, reads, c, token, digit, refused⟩ := post
    obtain ⟨rfl, free⟩ := KeyPress.digitToken token digit
    exact ⟨c, modifiers, rfl, free, digit, refused, other, reads⟩
  · intro post
    obtain ⟨c, _, same, free, digit, refused, other, reads⟩ := post
    cases same
    exact ⟨other, reads, c, KeyPress.tokenAlone free, digit, refused⟩

theorem overlongKey {s : Session} {name : Text} {modifiers : List Text} :
    s.editor.Overlong (KeyPress.token name modifiers) ↔
      Input.Overruns s (.key name modifiers) := by
  constructor
  · exact fun long => ⟨name, modifiers, rfl, long⟩
  · intro post
    obtain ⟨_, _, same, long⟩ := post
    cases same
    exact long

theorem servedSteady {s later : Session} (sound : later.Sound) (steady : s.buffer.Steady later.buffer)
    (links : later.links = s.links) (pending : later.pendingAnchor = s.pendingAnchor) :
    Served s later :=
  ⟨sound, extendsOfAnchors steady.anchors (.inl pending), .inl (.inl links)⟩

theorem attachServed {s : Session} (sound : s.Sound) (linked : Int) :
    (attachLink linked).Ends s fun _ later => Served s later := by
  refine Run.endsMono (attachLinkEnds sound linked) ?_
  intro _ later post
  obtain ⟨sound', editor, pending, links, -⟩ := post
  have anchors : later.buffer.anchors = s.buffer.anchors := congrArg (·.buffer.anchors) editor
  refine ⟨sound', extendsOfAnchors anchors (.inr pending), ?_⟩
  rcases links with same | ⟨id, a, waiting, found, live, put⟩
  · exact .inl (.inl same)
  · exact .inr ⟨id, a, linked, waiting, found, live, put⟩

theorem endingOfServed {s : Session} {input : Input}
    (notKey : ∀ name modifiers, input ≠ .key name modifiers)
    (ends : input.run.Ends s fun _ later => Served s later) :
    input.run.After s fun r later => Input.Ending s input r later := by
  have noMisread : ¬ input.Misreads s := by
    intro post
    obtain ⟨c, modifiers, same, -⟩ := post
    exact notKey _ _ same
  have noOverrun : ¬ input.Overruns s := by
    intro post
    obtain ⟨name, modifiers, same, -⟩ := post
    exact notKey _ _ same
  refine Run.afterOfEnds (Run.endsMono ends ?_)
  intro u later served
  refine ⟨served, ⟨?_, ?_⟩, fun misread => absurd misread noMisread,
    fun overrun => absurd overrun noOverrun, Run.noFault⟩
  · intro post
    obtain ⟨fault, failed⟩ := post
    contradiction
  · intro post
    rcases post with misread | overrun
    · exact absurd misread noMisread
    · exact absurd overrun noOverrun

theorem keyEnding {s : Session} (sound : s.Sound) (name : Text) (modifiers : List Text) :
    (Input.key name modifiers).run.After s fun r later =>
      Input.Ending s (.key name modifiers) r later := by
  unfold Input.run
  rw [Run.afterBind]
  refine Run.afterMono (keyAfter sound name modifiers) ?_
  intro r later ending
  cases r with
  | ok reply =>
    obtain ⟨keyed, noMisread, noOverlong⟩ := ending
    rw [misreadKey] at noMisread
    rw [overlongKey] at noOverlong
    refine ⟨⟨keyed.sound, keyed.anchors, .inl keyed.links⟩, ⟨?_, ?_⟩,
      fun misread => absurd misread noMisread, fun overrun => absurd overrun noOverlong,
      Run.noFault⟩
    · intro post
      obtain ⟨fault, failed⟩ := post
      contradiction
    · intro post
      rcases post with misread | overrun
      · exact absurd misread noMisread
      · exact absurd overrun noOverlong
  | error fault =>
    rcases ending with ⟨misread, cause, rfl⟩ | ⟨long, cause, sound', steady, rest⟩
    · have still := Buffer.steadyRefl sound.editor.buffer
      refine ⟨servedSteady sound still rfl rfl,
        ⟨fun _ => .inl (misreadKey.mp misread), fun _ => ⟨fault, rfl⟩⟩, fun _ => rfl,
        fun _ => ⟨rfl, still⟩, fun fault' failed => ?_⟩
      cases failed
      exact .inl ⟨_, cause⟩
    · have links : later.links = s.links := by rw [rest]
      have pending : later.pendingAnchor = s.pendingAnchor := by rw [rest]
      refine ⟨servedSteady sound' steady links pending,
        ⟨fun _ => .inr (overlongKey.mp long), fun _ => ⟨fault, rfl⟩⟩, ?_, fun _ => ⟨rest, steady⟩,
        fun fault' failed => ?_⟩
      · -- Both causes at once would need a token that is a digit and ends a hop.
        intro misread
        obtain ⟨-, -, c, token, digit, -⟩ := misreadKey.mpr misread
        have ends := long.2.2.1
        have digit' : Editor.isDigitKey [c] = true := digit
        rw [token, Editor.digitNotEnd digit'] at ends
        contradiction
      · cases failed
        exact .inr cause

theorem inputEnding {s : Session} (sound : s.Sound) (input : Input) :
    input.run.After s fun r later => Input.Ending s input r later := by
  cases input with
  | key name modifiers => exact keyEnding sound name modifiers
  | search pattern =>
    refine endingOfServed (fun _ _ => by simp) ?_
    unfold Input.run
    rw [Run.endsBind]
    refine Run.endsMono (searchEnds sound pattern) ?_
    intro _ later post
    obtain ⟨sound', steady, links, pending⟩ := post
    exact Run.endsPure.mpr (servedSteady sound' steady links pending)
  | attach linked =>
    refine endingOfServed (fun _ _ => by simp) ?_
    unfold Input.run
    rw [Run.endsBind]
    refine Run.endsMono (attachServed sound linked) ?_
    exact fun _ _ served => Run.endsPure.mpr served
  | cancel =>
    refine endingOfServed (fun _ _ => by simp) ?_
    refine Run.endsMono (cancelLinkEnds sound) ?_
    intro _ later post
    obtain ⟨sound', anchors, -, links, -⟩ := post
    exact ⟨sound', anchors, .inl (.inl links)⟩

theorem inputServed {s : Session} (sound : s.Sound) (input : Input) :
    Served s (input.run s).state := (inputEnding sound input).served

theorem afterSound {s : Session} (sound : s.Sound) (inputs : List Input) : (s.after inputs).Sound := by
  induction inputs generalizing s with
  | nil => exact sound
  | cons input rest ih => exact ih (inputServed sound input).sound

/- Along every run of inputs the buffer is sound. The next input fails exactly for one of the two causes:
for the first it changes nothing, for the second nothing outside the editor and none of the text. -/
theorem inputsSound {s : Session} (opened : Opened s) (inputs : List Input) :
    (s.after inputs).buffer.Sound ∧ ∀ input : Input,
      ((∃ fault, (input.run (s.after inputs)).result = .error fault) ↔
        input.Misreads (s.after inputs) ∨ input.Overruns (s.after inputs)) ∧
      (input.Misreads (s.after inputs) → (input.run (s.after inputs)).state = s.after inputs) ∧
      (input.Overruns (s.after inputs) →
        (input.run (s.after inputs)).state =
          { s.after inputs with editor := (input.run (s.after inputs)).state.editor } ∧
        (s.after inputs).buffer.Steady (input.run (s.after inputs)).state.buffer) := by
  have sound := afterSound (openedSound opened) inputs
  refine ⟨sound.editor.buffer, fun input => ?_⟩
  have ending := inputEnding sound input
  exact ⟨ending.fails, ending.misread, ending.overrun⟩

theorem superscriptMisread :
    Opened (ofBuffer Keymap.standard.state (Buffer.ofText ['a', 'b'] 100) [] {}) ∧
      (∃ fault, ((Input.key ['²'] []).run
        (ofBuffer Keymap.standard.state (Buffer.ofText ['a', 'b'] 100) [] {})).result = .error fault) ∧
      ((Input.key ['²'] []).run
        (ofBuffer Keymap.standard.state (Buffer.ofText ['a', 'b'] 100) [] {})).state =
          ofBuffer Keymap.standard.state (Buffer.ofText ['a', 'b'] 100) [] {} := by
  have opened : Opened (ofBuffer Keymap.standard.state (Buffer.ofText ['a', 'b'] 100) [] {}) :=
    .fresh [] ['a', 'b'] 100 rfl
  obtain ⟨fails, misread, -⟩ := (inputsSound opened []).2 (.key ['²'] [])
  have misreads : Input.Misreads (ofBuffer Keymap.standard.state (Buffer.ofText ['a', 'b'] 100) [] {})
      (.key ['²'] []) :=
    ⟨'²', [], rfl, fun _ member => absurd member List.not_mem_nil, by decide, by decide,
      (fun insert => nomatch (insert : Mode.normal = .insert)), .inl rfl⟩
  exact ⟨opened, fails.mpr (.inl misreads), misread misreads⟩

end ModalNotes.Session
