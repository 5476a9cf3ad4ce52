import ModalNotes.Proofs.Session.Sound

/-! Keys on sound sessions. Links follow their anchors whenever the text has changed, and an anchor that
was just drawn takes the place of the one that waited. A key fails only where the editor fails. -/
namespace ModalNotes.Session

def Tracks (s later : Session) : Prop :=
  later.links = s.links ∨ ∃ anchors, later.links =
    { s.links with links := s.links.links.mapValues (LinkStore.refreshed anchors) }

structure Keyed (s later : Session) : Prop where
  sound : later.Sound
  anchors : Extends s later
  links : Tracks s later
  title : later.title = s.title

def Ending (s : Session) (token : Text) (r : Except Fault Reply) (later : Session) : Prop :=
  match r with
  | .ok _ => Keyed s later ∧ ¬ s.editor.Misread token ∧ ¬ s.editor.Overlong token
  | .error fault =>
    s.editor.Misread token ∧ fault = .notANumber token ∧ later = s ∨
      s.editor.Overlong token ∧ fault = .tooLongToWrite ∧ later.Sound ∧
        s.buffer.Steady later.buffer ∧ later = { s with editor := later.editor }

theorem editorTaken {e : Editor} (sound : e.Sound) :
    Editor.Sound { e with buffer := { e.buffer with newAnchor := none } } :=
  editorWith sound ⟨sound.buffer.document, sound.buffer.cursor, sound.buffer.anchors⟩ rfl rfl rfl

theorem soundFollows {s : Session} {e : Editor} {links : LinkStore} (sound : s.Sound)
    (editor : e.Sound) (follows : s.buffer.Follows e.buffer)
    (tracked : e.buffer.version ≠ s.buffer.version ∧
        links = { s.links with links := s.links.links.mapValues (LinkStore.refreshed e.buffer.anchors) } ∨
      e.buffer.version = s.buffer.version ∧ links = s.links) :
    Keyed s { s with editor := { e with buffer := { e.buffer with newAnchor := none } }, links } := by
  have kept : Extends s
      { s with editor := { e with buffer := { e.buffer with newAnchor := none } }, links } := by
    refine ⟨fun id a found _ => follows.kept id a found, fun _ _ other => other, ?_,
      fun id member => .inl (follows.keys ▸ member)⟩
    intro id a a' found found' gone
    obtain ⟨a'', found'', gone'⟩ := follows.kept id a found
    cases found''.symm.trans found'
    exact gone' gone
  have waiting : ∀ keys : List Int, keys = s.links.links.keys → ∀ id, s.pendingAnchor = some id →
      id ∈ e.buffer.anchors.keys ∧ ∀ k ∈ keys, k < id := by
    intro _ same id pending
    obtain rfl := same
    rw [follows.keys]
    exact sound.pending id pending
  rcases tracked with ⟨-, rfl⟩ | ⟨same, rfl⟩
  · refine ⟨⟨editorTaken editor, rfl, LinkStore.mirrorsRefreshed sound.mirrors follows.kept, ?_,
      waiting _ (Table.keysMap _ _)⟩, kept, .inr ⟨_, rfl⟩, rfl⟩
    intro id l member
    obtain ⟨⟨id', l'⟩, old, same⟩ := List.mem_map.mp member
    cases same
    exact (LinkStore.refreshedSame _ l').2.1.trans (sound.owned id' l' old)
  · have anchors := (follows.still same).2
    refine ⟨⟨editorTaken editor, rfl, ?_, sound.owned, waiting _ rfl⟩, kept, .inl rfl, rfl⟩
    have mirrors := sound.mirrors
    rw [← anchors] at mirrors
    exact mirrors

theorem getDrawn {b later : Buffer} {a : Anchor}
    (anchors : later.anchors = b.anchors.put b.anchors.nextId a) {id : Int} (old : id ∈ b.anchors.keys) :
    later.anchors.get? id = b.anchors.get? id := by
  rw [anchors, Table.get?_put, if_neg]
  intro same
  obtain rfl := same
  exact b.anchors.nextIdFresh old

theorem keysDrawn {b later : Buffer} {a : Anchor}
    (anchors : later.anchors = b.anchors.put b.anchors.nextId a) :
    later.anchors.keys = b.anchors.keys ++ [b.anchors.nextId] := by
  rw [anchors, Table.keys_put, if_neg b.anchors.nextIdFresh]

theorem soundDraws {s : Session} {e : Editor} (sound : s.Sound) (editor : e.Sound)
    (draws : s.buffer.Draws e.buffer) :
    Sound { s with editor := { e with buffer := { e.buffer with newAnchor := none } } } := by
  obtain ⟨a, -, -, anchors⟩ := draws.anchors
  refine ⟨editorTaken editor, rfl, ?_, sound.owned, ?_⟩
  · refine LinkStore.mirrorsSame sound.mirrors ?_
    intro id member
    exact getDrawn anchors (LinkStore.mirrorsKeys sound.mirrors member)
  · intro id pending
    obtain ⟨inside, above⟩ := sound.pending id pending
    refine ⟨?_, above⟩
    have keys : id ∈ e.buffer.anchors.keys := by
      rw [keysDrawn anchors]
      exact List.mem_append_left _ inside
    exact keys

theorem keyedDraws {s v : Session} {e : Editor} (sound : s.Sound)
    (draws : s.buffer.Draws e.buffer) (sound' : v.Sound)
    (gone : Extends { s with editor := { e with buffer := { e.buffer with newAnchor := none } } } v)
    (links : v.links = s.links) (title : v.title = s.title)
    (others : ∀ id, s.pendingAnchor ≠ some id → v.buffer.anchors.get? id = e.buffer.anchors.get? id)
    (shrunk : ∀ id ∈ v.buffer.anchors.keys, id ∈ e.buffer.anchors.keys) :
    Keyed s { v with pendingAnchor := some s.buffer.anchors.nextId } := by
  obtain ⟨a, -, -, anchors⟩ := draws.anchors
  have old : ∀ id ∈ s.buffer.anchors.keys, id ≠ s.buffer.anchors.nextId := by
    intro id member same
    obtain rfl := same
    exact s.buffer.anchors.nextIdFresh member
  have unlike : s.pendingAnchor ≠ some s.buffer.anchors.nextId := by
    intro pending
    exact s.buffer.anchors.nextIdFresh (sound.pending _ pending).1
  have inside : s.buffer.anchors.nextId ∈ v.buffer.anchors.keys := by
    refine Table.memOfSome (a := a) ((others _ unlike).trans ?_)
    rw [anchors, Table.get?_put, if_pos rfl]
  refine ⟨⟨sound'.editor, sound'.taken, sound'.mirrors, sound'.owned, ?_⟩, ⟨?_, ?_, ?_, ?_⟩, .inl links,
    title⟩
  · intro id pending
    cases pending
    refine ⟨inside, ?_⟩
    intro k member
    rw [links] at member
    exact AnchorTable.ltNextId (LinkStore.mirrorsKeys sound.mirrors member)
  · intro id a' found other
    refine ⟨a', (others id other).trans ?_, fun deleted => deleted⟩
    exact (getDrawn anchors (Table.memOfSome found)).trans found
  · intro id member _ pending
    exact old id member (Option.some.inj pending).symm
  · intro id a' a'' found found' deleted
    have same := (getDrawn anchors (Table.memOfSome found)).trans found
    exact gone.same id a' a'' same found' deleted
  · intro id member
    have old := shrunk id member
    rw [keysDrawn anchors] at old
    simpa using old

theorem versionOf {b later : Buffer} (draws : b.Draws later) : later.version = b.version := by
  simp only [Buffer.version, draws.document]

section
variable {s t : Session} {reply : Reply} {Q : Reply → Session → Prop}

theorem takeNone (sound : t.buffer.Sound) (nothing : t.buffer.newAnchor = none)
    (post : Q reply { t with
      editor := { t.editor with buffer := { t.buffer with newAnchor := none } } }) :
    Run.Ends (do
      match ← onBuffer Buffer.takeNewAnchor with
      | none => pure reply
      | some id =>
        cancelLink
        Run.modify fun s => { s with pendingAnchor := some id }
        pure reply) t Q := by
  rw [Run.endsBind, endsOnBuffer]
  refine Run.endsMono (Buffer.takeNewAnchorEnds sound) ?_
  intro id b post
  obtain ⟨rfl, rfl, -⟩ := post
  rw [nothing]
  exact Run.endsPure.mpr post

theorem takeSome {id : Int} (sound : t.buffer.Sound) (drawn : t.buffer.newAnchor = some id)
    (post : cancelLink.Ends
      { t with editor := { t.editor with buffer := { t.buffer with newAnchor := none } } }
      fun _ v => Q reply { v with pendingAnchor := some id }) :
    Run.Ends (do
      match ← onBuffer Buffer.takeNewAnchor with
      | none => pure reply
      | some id =>
        cancelLink
        Run.modify fun s => { s with pendingAnchor := some id }
        pure reply) t Q := by
  rw [Run.endsBind, endsOnBuffer]
  refine Run.endsMono (Buffer.takeNewAnchorEnds sound) ?_
  intro taken b post
  obtain ⟨rfl, rfl, -⟩ := post
  rw [drawn]
  dsimp only
  rw [Run.endsBind]
  refine Run.endsMono post ?_
  intro _ v done
  rw [Run.endsBind, Run.endsModify, Run.endsPure]
  exact done

theorem takeGives {P : Reply → Prop} (given : P reply) :
    Run.Gives (do
      match ← onBuffer Buffer.takeNewAnchor with
      | none => pure reply
      | some id =>
        cancelLink
        Run.modify fun s => { s with pendingAnchor := some id }
        pure reply) t P := by
  refine Run.givesLast fun drawn u => ?_
  cases drawn with
  | none => exact Run.givesPure given
  | some id => exact Run.givesLast fun _ _ => Run.givesLast fun _ _ => Run.givesPure given

theorem settleEnds {e : Editor} (sound : s.Sound) (keyed : Editor.Keyed s.editor e) :
    Run.Ends (do
      let t ← Run.get
      if t.buffer.version ≠ s.buffer.version then
        let _ ← onLinks (LinkStore.reconcile t.buffer.anchors)
      match ← onBuffer Buffer.takeNewAnchor with
      | none => pure reply
      | some id =>
        cancelLink
        Run.modify fun s => { s with pendingAnchor := some id }
        pure reply) { s with editor := e } fun _ later => Keyed s later := by
  have buffer := keyed.sound.buffer
  rw [Run.endsBind, Run.endsGet]
  rcases keyed.turns with follows | draws
  · have nothing : e.buffer.newAnchor = none := follows.drawn.trans sound.taken
    split
    · rename_i changed
      rw [Run.endsBind, endsOnLinks]
      refine Run.endsMono (LinkStore.reconcileEnds (s := s.links) ?_) ?_
      · intro id l member
        obtain ⟨a, found, -⟩ := sound.mirrors.present id l member
        obtain ⟨a', found', -⟩ := follows.kept id a found
        exact ⟨a', by rw [sound.mirrors.own id l member]; exact found'⟩
      · intro _ links same
        obtain rfl := same
        exact takeNone buffer nothing
          (soundFollows sound keyed.sound follows (.inl ⟨changed, rfl⟩))
    · rename_i unchanged
      exact takeNone buffer nothing
        (soundFollows sound keyed.sound follows (.inr ⟨Decidable.not_not.mp unchanged, rfl⟩))
  · have same : ({ s with editor := e } : Session).buffer.version = s.buffer.version :=
      versionOf draws
    rw [if_neg (not_not_intro same)]
    refine takeSome buffer draws.drawn ?_
    have waits := soundDraws sound keyed.sound draws
    refine Run.endsMono (cancelLinkEnds waits) ?_
    intro _ v post
    obtain ⟨sound', gone, -, links, title, others, shrunk⟩ := post
    exact keyedDraws sound draws sound' gone links title others shrunk

end

theorem keyAfter {s : Session} (sound : s.Sound) (name : Text) (modifiers : List Text) :
    (key name modifiers).After s (Ending s (KeyPress.token name modifiers)) := by
  unfold key
  refine Run.afterBindEnds (Run.endsGet.mpr ?_)
  rw [Run.afterBind]
  have run : (onEditor (Editor.key name modifiers)).After s fun r later =>
      s.editor.Ending (KeyPress.token name modifiers) (fun _ e => Editor.Keyed s.editor e) r
        later.editor ∧ later = { s with editor := later.editor } :=
    ⟨Editor.keyAfter sound.editor name modifiers, rfl⟩
  refine Run.afterMono run ?_
  intro r later post
  obtain ⟨ending, rest⟩ := post
  cases r with
  | error fault =>
    rcases ending with ⟨misread, what, same⟩ | ⟨overlong, what, editor, steady⟩
    · refine .inl ⟨misread, what, ?_⟩
      rw [rest, same]
    · refine .inr ⟨overlong, what, ?_, steady, rest⟩
      rw [rest]
      exact soundSteady sound editor steady rfl rfl
  | ok reply =>
    obtain ⟨keyed, noMisread, noOverlong⟩ := ending
    rw [rest]
    refine Run.afterOfEnds (Run.endsMono (settleEnds sound keyed) ?_)
    intro _ last done
    exact ⟨done, noMisread, noOverlong⟩

section
variable {P : Buffer → Prop}

def Within (P : Buffer → Prop) (s : Session) : Prop := P s.buffer

theorem cancelKept (erased : ∀ b id, P b → P { b with anchors := b.anchors.erase id }) :
    Run.Keeps (Within P) cancelLink := by
  refine Run.keepsGet fun s held => ?_
  cases waiting : s.pendingAnchor with
  | none => exact held
  | some id => exact erased s.buffer id held

/- Behind the editor's own work an anchor may be taken out, and the new one is no longer new. -/
theorem keyKept {s : Session} {name : Text} {modifiers : List Text}
    (taken : ∀ b, P b → P { b with newAnchor := none })
    (erased : ∀ b id, P b → P { b with anchors := b.anchors.erase id })
    (edited : P (Editor.key name modifiers s.editor).state.buffer) :
    Within P (key name modifiers s).state := by
  have settled : ∀ reply : Reply, Run.Keeps (Within P) (do
      match ← onBuffer Buffer.takeNewAnchor with
      | none => pure reply
      | some id =>
        cancelLink
        Run.modify fun s => { s with pendingAnchor := some id }
        pure reply) := by
    intro reply
    refine Run.keepsBind (fun s held => taken s.buffer held) fun drawn => ?_
    split
    · exact Run.keepsPure reply
    · exact Run.keepsBind (cancelKept erased) fun _ => Run.keepsBind (fun _ held => held) fun _ =>
        Run.keepsPure reply
  change (key name modifiers).After s fun _ later => Within P later
  unfold key
  refine Run.afterBindEnds (Run.endsGet.mpr ?_)
  refine Run.keptBind (P := Within P) edited fun reply => ?_
  refine Run.keepsGet fun t held => ?_
  dsimp only
  split
  · exact Run.keepsBind (fun _ held => held) (fun _ => settled reply) t held
  · exact settled reply t held

end

end ModalNotes.Session
