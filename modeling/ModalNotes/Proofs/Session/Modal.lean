import ModalNotes.Proofs.Editor.Modal
import ModalNotes.Proofs.Session.Input

/-! The modal state along every run of inputs, also past inputs that fail. The selection is what depends on
the text, so it is followed in sound sessions only. -/
namespace ModalNotes

namespace Editor

open Run (Leaves leavesBind leavesPure leavesGet leavesReads)

structure Marked (e : Editor) : Prop where
  active : e.buffer.selectionStart.isSome = true ↔ e.mode = .visual
  start : ∀ c, e.buffer.selectionStart = some c → e.buffer.document.Holds c

def Selected (e : Editor) : Prop := e.mode = .visual → e.buffer.selectionStart.isSome = true

theorem markedSound {e : Editor} (sound : e.Sound) (selected : e.Selected) : e.Marked where
  active := by
    refine ⟨fun some' => ?_, selected⟩
    by_cases visual : e.mode = .visual
    · exact visual
    · simp [sound.unselected visual] at some'
  start := sound.selects

theorem selectedResponded {e middle : Editor} {reply : Reply} (selected : e.Selected)
    (handled : Handled e middle reply) : Selected (responded reply middle) := by
  unfold responded
  cases target : reply.switchTo with
  | none =>
    obtain ⟨selection, -⟩ := handled.staying target
    intro visual
    simp only [selection]
    exact selected (handled.mode ▸ visual)
  | some mode =>
    intro visual
    change mode = .visual at visual
    simp [switched, visual]

theorem selectedReplied {e : Editor} {m : Run Editor Reply} (token : Text) (selected : e.Selected)
    (handled : m.After e (Ending e token fun reply later => Handled e later reply)) :
    Run.After (do
      let reply ← m
      respond reply
      if (← Run.get).buffer.version ≠ e.buffer.version then recordColumn
      pure reply) e fun r later => (∃ reply, r = .ok reply) → Selected later := by
  rw [Run.afterBind]
  refine Run.afterMono handled fun r middle ending => ?_
  cases r with
  | error fault => simp
  | ok reply =>
    refine Run.afterOfEnds (Run.endsBind.mpr (Run.endsMono (respondState reply middle) ?_))
    rintro _ _ rfl
    have marked := selectedResponded selected ending.1
    rw [Run.endsBind, Run.endsGet]
    split
    · rw [Run.endsBind, recordColumn, Run.endsModify, Run.endsPure]
      exact fun _ => marked
    · exact Run.endsPure.mpr fun _ => marked

theorem keySelected {e : Editor} (sound : e.Sound) (modal : e.Modal) (selected : e.Selected)
    (name : Text) (modifiers : List Text) : Selected (key name modifiers e).state := by
  have answered : (key name modifiers).After e fun r later =>
      (∃ reply, r = .ok reply) → Selected later := by
    unfold key
    refine Run.afterBindEnds (Run.endsGet.mpr ?_)
    dsimp only
    split
    · rename_i insert
      refine selectedReplied (KeyPress.token name modifiers) selected
        (Run.afterOfEnds (Run.endsMono (insertKeyEnds sound insert _) ?_))
      exact fun _ _ handled => ⟨handled, fun misread => misread.1 insert, fun overlong => overlong.1 insert⟩
    · rename_i other
      exact selectedReplied _ selected (modalKeyAfter sound other _)
  have settled := keySettled modal name modifiers
  have ending := keyAfter sound name modifiers
  unfold Run.After at answered settled ending
  cases result : (key name modifiers e).result with
  | ok reply => exact answered ⟨reply, result⟩
  | error fault =>
    rw [result] at ending
    rcases ending with ⟨-, -, same⟩ | ⟨⟨-, hop, -⟩, -⟩
    · rw [same]
      exact selected
    · intro visual
      have mode := settled.2 ⟨fault, result⟩
      have waits := modal.visual (mode ▸ visual)
      simp [hop] at waits

def stance (e : Editor) : Controls × Document × Option Cursor :=
  (e.controls, e.buffer.document, e.buffer.selectionStart)

theorem stanceStill {α : Type} {m : Run Buffer α} {e : Editor} (h : Leaves Buffer.still m e.buffer) :
    Leaves stance (onBuffer m) e := by
  refine Run.leavesOn h fun b same => ?_
  simp only [Buffer.still, Prod.mk.injEq] at same
  obtain ⟨hop, document, selection⟩ := same
  simp only [stance, controls, hop, document, selection]

theorem modalStance {e later : Editor} (same : later.stance = e.stance) (modal : e.Modal) :
    later.Modal := by
  simp only [stance, controls, Prod.mk.injEq, Controls.mk.injEq] at same
  obtain ⟨⟨registry, mode, command, pending, hop⟩, document, -⟩ := same
  have found : later.buffer.hopKey = e.buffer.hopKey ∧ later.buffer.hopMatches = e.buffer.hopMatches := by
    simpa [Buffer.hop] using hop
  refine ⟨registry.trans modal.registry, ?_, ?_, ?_, ?_, fun other => ?_⟩
  · rw [mode, command, pending]
    exact modal.inserting
  · rw [command, pending]
    exact modal.collects
  · rw [mode, command]
    exact modal.visual
  · rw [command]
    unfold Hopping hopIndex
    rw [found.1, found.2, document, pending, hop]
    exact modal.hopping
  · exact hop.trans (modal.hopless (command ▸ other))

theorem selectedStance {e later : Editor} (same : later.stance = e.stance) (selected : e.Selected) :
    later.Selected := by
  simp only [stance, controls, Prod.mk.injEq, Controls.mk.injEq] at same
  obtain ⟨⟨-, mode, -⟩, -, selection⟩ := same
  unfold Selected
  rw [mode, selection]
  exact selected

end Editor

namespace Session

open Run (Leaves leavesBind leavesPure leavesGet leavesReads leavesOn leavesLog)

def stance (s : Session) : Editor.Controls × Document × Option Cursor := s.editor.stance

section
variable {γ : Type} {view : Session → γ} {s : Session}

theorem cancelView (erased : ∀ (t : Session) (id : Int), Leaves view (onBuffer (Buffer.removeAnchor id)) t)
    (waits : ∀ t : Session, view { t with pendingAnchor := none } = view t) : Leaves view cancelLink s := by
  refine leavesGet ?_
  split
  · exact leavesPure () s
  · exact leavesBind (erased s _) fun _ t => waits t

theorem attachView {linked : Int} (waits : ∀ t : Session, view { t with pendingAnchor := none } = view t)
    (inserted : ∀ (t : Session) (links : LinkStore), view { t with links } = view t) :
    Leaves view (attachLink linked) s := by
  refine leavesGet (leavesBind (m := Run.put _) (waits s) fun _ t => ?_)
  split
  · exact leavesPure none t
  · split
    · exact leavesBind (leavesLog _ t) fun _ u => leavesPure none u
    · exact leavesReads fun _ => leavesBind (m := Run.modify _) (inserted t _) fun _ u =>
        leavesBind (leavesLog _ u) fun _ v => leavesPure _ v

theorem searchView {pattern : Option Text}
    (set : ∀ t, Leaves view (onBuffer (Buffer.setSearchPattern pattern)) t)
    (sought : ∀ t, Leaves view (onBuffer Buffer.searchForward) t)
    (recorded : ∀ t, Leaves view (onEditor Editor.recordColumn) t) : Leaves view (search pattern) s := by
  refine leavesBind (set s) fun _ t => leavesBind (sought t) fun found u => ?_
  split
  · exact leavesBind (recorded u) fun _ v => leavesPure true v
  · exact leavesPure false u

end

theorem stanceCancelLink (s : Session) : Leaves stance cancelLink s :=
  cancelView (fun _ _ => rfl) fun _ => rfl

theorem stanceAttachLink (linked : Int) (s : Session) : Leaves stance (attachLink linked) s :=
  attachView (fun _ => rfl) fun _ _ => rfl

theorem stanceSearch (pattern : Option Text) (s : Session) : Leaves stance (search pattern) s :=
  searchView (fun _ => rfl) (fun t => Editor.stanceStill (Buffer.stillSearchWith _ t.buffer)) fun _ => rfl

theorem drawnView {γ : Type} {view : Session → γ}
    (taken : ∀ t, Leaves view (onBuffer Buffer.takeNewAnchor) t) (cancelled : ∀ t, Leaves view cancelLink t)
    (waits : ∀ (id : Int) (t : Session), view { t with pendingAnchor := some id } = view t) (reply : Reply)
    (s : Session) :
    Leaves view (do
      match ← onBuffer Buffer.takeNewAnchor with
      | none => pure reply
      | some id =>
        cancelLink
        Run.modify fun s => { s with pendingAnchor := some id }
        pure reply) s := by
  refine leavesBind (taken s) fun id u => ?_
  split
  · exact leavesPure reply u
  · rename_i id
    exact leavesBind (cancelled u) fun _ v =>
      leavesBind (m := Run.modify _) (waits id v) fun _ w => leavesPure reply w

theorem keyView {γ : Type} {view : Session → γ} {s : Session} {name : Text} {modifiers : List Text}
    (linked : ∀ t : Session, t.editor = (Editor.key name modifiers s.editor).state →
      t.buffer.version ≠ s.buffer.version → Leaves view (onLinks (LinkStore.reconcile t.buffer.anchors)) t)
    (taken : ∀ t, Leaves view (onBuffer Buffer.takeNewAnchor) t) (cancelled : ∀ t, Leaves view cancelLink t)
    (waits : ∀ (id : Int) (t : Session), view { t with pendingAnchor := some id } = view t) :
    view (key name modifiers s).state =
      view { s with editor := (Editor.key name modifiers s.editor).state } := by
  have settled : ∀ (reply : Reply) (t : Session), t.editor = (Editor.key name modifiers s.editor).state →
      Leaves view (do
        let u ← Run.get
        if u.buffer.version ≠ s.buffer.version then
          let _ ← onLinks (LinkStore.reconcile u.buffer.anchors)
        match ← onBuffer Buffer.takeNewAnchor with
        | none => pure reply
        | some id =>
          cancelLink
          Run.modify fun s => { s with pendingAnchor := some id }
          pure reply) t := by
    intro reply t after
    refine leavesGet ?_
    dsimp only
    split
    · rename_i changed
      exact leavesBind (linked t after changed) fun _ u => drawnView taken cancelled waits reply u
    · exact drawnView taken cancelled waits reply t
  have done : (key name modifiers).After s fun _ later =>
      view later = view { s with editor := (Editor.key name modifiers s.editor).state } := by
    unfold key
    refine Run.afterBindEnds (Run.endsGet.mpr ?_)
    rw [Run.afterBind]
    unfold Run.After
    cases (onEditor (Editor.key name modifiers) s).result with
    | error fault => rfl
    | ok reply => exact settled reply _ rfl
  exact done

theorem stanceKey (name : Text) (modifiers : List Text) (s : Session) :
    (key name modifiers s).state.stance = (Editor.key name modifiers s.editor).state.stance :=
  keyView (fun _ _ _ => rfl) (fun _ => rfl) stanceCancelLink fun _ _ => rfl

theorem stanceInput (input : Input) (s : Session) :
    (input.run s).state.stance =
      match input with
      | .key name modifiers => (Editor.key name modifiers s.editor).state.stance
      | _ => s.stance := by
  cases input with
  | key name modifiers => exact (congrArg stance (Run.ignoredState _ s)).trans (stanceKey name modifiers s)
  | search pattern => exact (congrArg stance (Run.ignoredState _ s)).trans (stanceSearch pattern s)
  | attach linked => exact (congrArg stance (Run.ignoredState _ s)).trans (stanceAttachLink linked s)
  | cancel => exact stanceCancelLink s

theorem modalInput {s : Session} (modal : s.editor.Modal) (input : Input) :
    (input.run s).state.editor.Modal := by
  have same := stanceInput input s
  cases input with
  | key name modifiers => exact Editor.modalStance same (Editor.keySettled modal name modifiers).1
  | search pattern | attach linked | cancel => exact Editor.modalStance same modal

theorem selectedInput {s : Session} (sound : s.Sound) (modal : s.editor.Modal)
    (selected : s.editor.Selected) (input : Input) : (input.run s).state.editor.Selected := by
  have same := stanceInput input s
  cases input with
  | key name modifiers =>
    exact Editor.selectedStance same (Editor.keySelected sound.editor modal selected name modifiers)
  | search pattern | attach linked | cancel => exact Editor.selectedStance same selected

theorem modalAfter {s : Session} (modal : s.editor.Modal) (inputs : List Input) :
    (s.after inputs).editor.Modal := by
  induction inputs generalizing s with
  | nil => exact modal
  | cons input rest ih => exact ih (modalInput modal input)

theorem markedAfter {s : Session} (sound : s.Sound) (modal : s.editor.Modal)
    (selected : s.editor.Selected) (inputs : List Input) : (s.after inputs).editor.Marked := by
  induction inputs generalizing s with
  | nil => exact Editor.markedSound sound.editor selected
  | cons input rest ih =>
    exact ih (inputServed sound input).sound (modalInput modal input)
      (selectedInput sound modal selected input)

def Begins (s : Session) : Prop :=
  ∃ b title links, s = ofBuffer Keymap.standard.state b title links ∧ b.hop = (none, [])

theorem freshBegins {title text : Text} {maxHistory : Int} {s : Session}
    (opened : ((fresh title text maxHistory : Run Unit Session) ()).result = .ok s) : s.Begins := by
  cases opened
  exact ⟨_, title, {}, rfl, rfl⟩

theorem reopenBegins {noteId : Int} {title body : Text} {rows : List LinkRow} {maxHistory : Int}
    {s : Session} (opened : ((reopen noteId title body rows maxHistory : Run Unit Session) ()).result = .ok s) :
    s.Begins := by
  unfold reopen at opened
  rw [Run.bind_apply, Run.ofExcept] at opened
  cases links : LinkStore.ofRows noteId rows with
  | error fault =>
    rw [links] at opened
    contradiction
  | ok store =>
    rw [links] at opened
    cases opened
    exact ⟨_, title, store, rfl, rfl⟩

theorem idleModal {registry : Registry Action} (standard : registry = Keymap.standard.state) {b : Buffer}
    (hop : b.hop = (none, [])) : Editor.Modal { buffer := b, registry } :=
  Editor.modalIdle standard rfl rfl (fun _ => rfl) hop

theorem beginsModal {s : Session} (begins : s.Begins) : s.editor.Modal := by
  obtain ⟨b, title, links, rfl, hop⟩ := begins
  exact idleModal rfl hop

theorem beginsSelected {s : Session} (begins : s.Begins) : s.editor.Selected := by
  obtain ⟨b, title, links, rfl, -⟩ := begins
  exact fun visual => nomatch (visual : Mode.normal = .visual)

/- In every session with the standard keymap, whatever its rows say and whatever fails on the way, the mode,
the waiting command, the pending input and the hop agree. The selection agrees with the mode wherever the
rows lie in the text. -/
theorem modalConsistent {s : Session} (begins : s.Begins) (inputs : List Input) :
    (s.after inputs).editor.Modal ∧ (Opened s → (s.after inputs).editor.Marked) := by
  have modal := beginsModal begins
  exact ⟨modalAfter modal inputs, fun opened =>
    markedAfter (openedSound opened) modal (beginsSelected begins) inputs⟩

theorem freshConsistent :
    Begins (ofBuffer Keymap.standard.state (Buffer.ofText ['a', 'b'] 100) [] {}) ∧
      Opened (ofBuffer Keymap.standard.state (Buffer.ofText ['a', 'b'] 100) [] {}) ∧
      ((ofBuffer Keymap.standard.state (Buffer.ofText ['a', 'b'] 100) [] {}).after
        [.key ['v'] []]).editor.Modal ∧
      ((ofBuffer Keymap.standard.state (Buffer.ofText ['a', 'b'] 100) [] {}).after
        [.key ['v'] []]).editor.Marked := by
  have opened : Opened (ofBuffer Keymap.standard.state (Buffer.ofText ['a', 'b'] 100) [] {}) :=
    .fresh [] ['a', 'b'] 100 rfl
  have begins : Begins (ofBuffer Keymap.standard.state (Buffer.ofText ['a', 'b'] 100) [] {}) :=
    freshBegins (rfl : ((fresh [] ['a', 'b'] 100 : Run Unit Session) ()).result = .ok _)
  obtain ⟨modal, marked⟩ := modalConsistent begins [.key ['v'] []]
  exact ⟨begins, opened, modal, marked opened⟩

end Session

end ModalNotes
