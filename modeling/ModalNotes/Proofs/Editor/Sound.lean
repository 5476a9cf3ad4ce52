import ModalNotes.Editor.Keys
import ModalNotes.Proofs.Editor.Perform

/-! Sound editors, and how a reply is carried out on them. Outside visual mode nothing is selected, insert
mode has no waiting command, and a hop waits with matches that lie in the document. -/
namespace ModalNotes.Editor

structure Sound (e : Editor) : Prop where
  registry : e.registry = Keymap.standard.state
  buffer : e.buffer.Sound
  selects : e.buffer.Selects
  unselected : e.mode ≠ .visual → e.buffer.selectionStart = none
  hops : e.command = .executeHop → e.buffer.Hops
  inserting : e.mode = .insert → e.command = .none
  visual : e.mode = .visual → e.command ≠ .delete ∧ e.command ≠ .yank

structure Keyed (e later : Editor) : Prop where
  sound : later.Sound
  turns : e.buffer.Follows later.buffer ∨ e.buffer.Draws later.buffer

/- What stands between the key's own work and its reply being carried out. -/
structure Handled (e later : Editor) (reply : Reply) : Prop where
  turns : e.buffer.Follows later.buffer ∨ e.buffer.Draws later.buffer
  registry : later.registry = e.registry
  mode : later.mode = e.mode
  waiting : later.command = .none ∨ e.mode ≠ .insert ∧
    (later.command = .primeHop ∨ later.command = .executeHop ∧ later.buffer.Hops)
  armed : ∀ c, reply.command = some c → c ≠ .executeHop ∧ e.mode ≠ .insert ∧
    (e.mode = .visual → c ≠ .delete ∧ c ≠ .yank)
  staying : reply.switchTo = none → later.buffer.selectionStart = e.buffer.selectionStart ∧
    (e.mode = .visual → later.buffer.document = e.buffer.document)
  selecting : reply.switchTo = some .visual → later.buffer.Selects

theorem turnsSound {b later : Buffer} (turns : b.Follows later ∨ b.Draws later) : later.Sound := by
  rcases turns with follows | draws
  · exact follows.sound
  · exact draws.sound

theorem turnsSteady {b middle later : Buffer} (turns : b.Follows middle ∨ b.Draws middle)
    (steady : middle.Steady later) : b.Follows later ∨ b.Draws later := by
  rcases turns with follows | draws
  · exact .inl (follows.trans (steady.follows follows.sound))
  · exact .inr (draws.steady steady)

theorem selectsSteady {b later : Buffer} (steady : b.Steady later) (selects : b.Selects)
    (same : later.selectionStart = b.selectionStart) : later.Selects := by
  intro c start
  rw [steady.document]
  exact selects c (same ▸ start)

theorem selectsNone {b : Buffer} (none' : b.selectionStart = none) : b.Selects := by
  intro c start
  rw [none'] at start
  contradiction

theorem handledOfPerformed {e later : Editor} {reply : Reply} (h : Performed e later reply)
    (idle : later.command = .none) : Handled e later reply :=
  ⟨h.turns, h.controls.registry, h.controls.mode, .inl idle, h.armed, h.staying, h.selecting⟩

def Quiet (reply : Reply) : Prop := reply.command = none ∧ reply.switchTo = none

theorem handledQuiet {e later : Editor} {reply : Reply} (quiet : Quiet reply)
    (turns : e.buffer.Follows later.buffer) (registry : later.registry = e.registry)
    (mode : later.mode = e.mode)
    (waiting : later.command = .none ∨ e.mode ≠ .insert ∧
      (later.command = .primeHop ∨ later.command = .executeHop ∧ later.buffer.Hops))
    (selection : later.buffer.selectionStart = e.buffer.selectionStart)
    (still : e.mode = .visual → later.buffer.document = e.buffer.document) :
    Handled e later reply where
  turns := .inl turns
  registry := registry
  mode := mode
  waiting := waiting
  armed c armed := by
    rw [quiet.1] at armed
    contradiction
  staying _ := ⟨selection, still⟩
  selecting visual := by
    rw [quiet.2] at visual
    contradiction

theorem setModeEnds {e : Editor} (sound : e.buffer.Sound) (mode : Mode)
    (selects : mode = .visual → e.buffer.Selects) :
    (setMode mode).Ends e fun _ later => e.buffer.Steady later.buffer ∧ later.registry = e.registry ∧
      later.mode = mode ∧ later.command = .none ∧ later.buffer.Selects ∧
      (mode ≠ .visual → later.buffer.selectionStart = none) := by
  have settled : ∀ f : Editor, e.buffer.Steady f.buffer → f.registry = e.registry → f.buffer.Selects →
      (mode ≠ .visual → f.buffer.selectionStart = none) →
      Run.Ends (do
        Run.modify fun e : Editor => { e with mode }
        resetPending
        if e.mode ≠ mode then
          Run.log (Entry.event Level.debug Logger.interpreter "interpreter.mode".toList
            [("from".toList, .text e.mode.name), ("to".toList, .text mode.name)])
          let b := (← Run.get).buffer
          Run.emit (.modeChanged {
            mode, cursor := b.cursor, selection := b.selection, version := b.version })) f
        fun _ later => e.buffer.Steady later.buffer ∧ later.registry = e.registry ∧
          later.mode = mode ∧ later.command = .none ∧ later.buffer.Selects ∧
          (mode ≠ .visual → later.buffer.selectionStart = none) := by
    intro f steady registry marked unmarked
    rw [Run.endsBind, Run.endsModify, Run.endsBind, resetPending, Run.endsModify]
    split
    · rw [Run.endsBind, Run.endsLog, Run.endsBind, Run.endsGet, Run.endsEmit]
      exact ⟨steady, registry, rfl, rfl, marked, unmarked⟩
    · rw [Run.endsPure]
      exact ⟨steady, registry, rfl, rfl, marked, unmarked⟩
  unfold setMode
  rw [Run.endsBind, Run.endsGet]
  dsimp only
  rw [Run.endsBind, endsOnBuffer]
  refine Run.endsMono (Buffer.calmClearSearch e.buffer sound) ?_
  intro _ b post
  obtain ⟨steady, selection, -⟩ := post
  have sound' := (steady.follows sound).sound
  rw [Run.endsBind, Run.endsGet]
  split
  · rename_i visual
    split
    · rw [Run.endsBind, endsOnBuffer]
      refine Run.endsMono (Buffer.startSelectionEnds sound') ?_
      intro _ b' post
      obtain ⟨steady', start⟩ := post
      refine settled { e with buffer := b' } (steady.trans steady') rfl ?_
        fun other => absurd visual other
      intro c same
      rw [start] at same
      cases same
      rw [steady'.document]
      exact sound'.cursor
    · exact settled { e with buffer := b } steady rfl
        (selectsSteady steady (selects visual) selection) fun other => absurd visual other
  · rw [Run.endsBind, endsOnBuffer]
    refine Run.endsMono (Buffer.cancelSelectionEnds sound') ?_
    intro _ b' post
    obtain ⟨steady', unmarked⟩ := post
    exact settled { e with buffer := b' } (steady.trans steady') rfl (selectsNone unmarked)
      fun _ => unmarked

theorem keyedStaying {e later : Editor} {reply : Reply} (sound : e.Sound) (h : Handled e later reply)
    (stays : reply.switchTo = none) (command : Command)
    (chosen : reply.command = some command ∨ reply.command = none ∧ command = later.command) :
    Keyed e { later with command } := by
  obtain ⟨selection, still⟩ := h.staying stays
  refine ⟨⟨h.registry.trans sound.registry, turnsSound h.turns, ?_, ?_, ?_, ?_, ?_⟩, h.turns⟩
  · by_cases visual : e.mode = .visual
    · intro c start
      rw [still visual]
      exact sound.selects c (selection ▸ start)
    · exact selectsNone (selection.trans (sound.unselected visual))
  · intro other
    exact selection.trans (sound.unselected (h.mode ▸ other))
  · intro hop
    rcases chosen with armed | ⟨-, rfl⟩
    · exact absurd hop (h.armed command armed).1
    · rcases h.waiting with idle | ⟨-, prime | ⟨-, hops⟩⟩
      · exact absurd (idle.symm.trans hop) (by decide)
      · exact absurd (prime.symm.trans hop) (by decide)
      · exact hops
  · intro insert
    have inserting : e.mode = .insert := h.mode ▸ insert
    rcases chosen with armed | ⟨-, rfl⟩
    · exact absurd inserting (h.armed command armed).2.1
    · rcases h.waiting with idle | ⟨other, -⟩
      · exact idle
      · exact absurd inserting other
  · intro visual
    have visual' : e.mode = .visual := h.mode ▸ visual
    rcases chosen with armed | ⟨-, rfl⟩
    · exact (h.armed command armed).2.2 visual'
    · rcases h.waiting with idle | ⟨-, prime | ⟨hop, -⟩⟩
      · simp [idle]
      · simp [prime]
      · simp [hop]

theorem keyedSwitched {e later last : Editor} {mode : Mode} {reply : Reply} (sound : e.Sound)
    (h : Handled e later reply) (steady : later.buffer.Steady last.buffer)
    (registry : last.registry = later.registry) (switched : last.mode = mode)
    (idle : last.command = .none) (selects : last.buffer.Selects)
    (unselected : mode ≠ .visual → last.buffer.selectionStart = none) : Keyed e last := by
  have turns := turnsSteady h.turns steady
  refine ⟨⟨(registry.trans h.registry).trans sound.registry, turnsSound turns, selects, ?_, ?_, ?_, ?_⟩,
    turns⟩
  · exact fun other => unselected (switched ▸ other)
  · intro hop
    exact absurd (idle.symm.trans hop) (by decide)
  · exact fun _ => idle
  · simp [idle]

theorem respondEnds {e later : Editor} {reply : Reply} (sound : e.Sound) (h : Handled e later reply) :
    (respond reply).Ends later fun _ last => Keyed e last := by
  have switch : ∀ (f : Editor) (mode : Mode), f.buffer = later.buffer → f.registry = later.registry →
      reply.switchTo = some mode → (setMode mode).Ends f fun _ last => Keyed e last := by
    intro f mode buffer registry target
    have sound' : f.buffer.Sound := buffer ▸ turnsSound h.turns
    refine Run.endsMono (setModeEnds sound' mode ?_) ?_
    · intro same
      obtain rfl := same
      exact buffer ▸ h.selecting target
    · intro _ last post
      obtain ⟨steady, registry', switched, idle, selects, unselected⟩ := post
      exact keyedSwitched sound h (buffer ▸ steady) (registry'.trans registry) switched idle selects
        unselected
  unfold respond
  dsimp only
  cases target : reply.switchTo with
  | none =>
    cases armed : reply.command with
    | none => exact Run.endsPure.mpr (keyedStaying sound h target later.command (.inr ⟨armed, rfl⟩))
    | some command =>
      dsimp only
      rw [Run.endsBind, Run.endsModify, Run.endsPure]
      exact keyedStaying sound h target command (.inl armed)
  | some mode =>
    cases armed : reply.command with
    | none => exact switch later mode rfl rfl target
    | some command =>
      dsimp only
      rw [Run.endsBind, Run.endsModify]
      exact switch { later with command } mode rfl rfl target

end ModalNotes.Editor
