import ModalNotes.Proofs.Buffer.Lettered
import ModalNotes.Proofs.Editor.Lasting
import ModalNotes.Proofs.Session.Modal
import ModalNotes.View.Styled

/-! Two things that no input of a session breaks, failed inputs included: a text without control characters
stays without them, and no two anchors have the same id. -/
namespace ModalNotes

theorem Text.printableAbove {c : Char} (printable : Text.isPrintable c = true) : 32 ≤ c.toNat := by
  rw [isPrintable, printableRanges, inRanges] at printable
  split at printable
  · contradiction
  · omega

theorem Buffer.insertableKept (text : Text) (insertable : Insertable text) :
    ∀ c ∈ text, Styled.isDropped c = false := by
  rcases insertable with rfl | rfl | ⟨c, rfl, printable⟩
  · exact List.forall_mem_singleton.mpr rfl
  · intro c inside
    have blank : c = ' ' := by simpa [tabText] using inside
    rw [blank]
    rfl
  · have above := Text.printableAbove printable
    simp [Styled.isDropped]
    omega

namespace Session

open Run (Leaves)

variable {kind : Char → Prop} {P : Buffer → Prop} {s : Session}

theorem matterSearch (pattern : Option Text) (s : Session) :
    Leaves (fun s : Session => s.buffer.matter) (search pattern) s := by
  have sought : ∀ t : Session, Leaves Buffer.matter Buffer.searchForward t.buffer :=
    fun t => Buffer.matterSearchWith _ t.buffer
  exact searchView (fun _ => rfl) sought fun _ => rfl

theorem matterAttachLink (linked : Int) (s : Session) :
    Leaves (fun s : Session => s.buffer.matter) (attachLink linked) s :=
  attachView (fun _ => rfl) fun _ _ => rfl

theorem inputKept (matter : ∀ b later, later.matter = b.matter → P b → P later)
    (taken : ∀ b, P b → P { b with newAnchor := none })
    (erased : ∀ b id, P b → P { b with anchors := b.anchors.erase id })
    (keyed : ∀ name modifiers, P (Editor.key name modifiers s.editor).state.buffer) (held : P s.buffer)
    (input : Input) : P (input.run s).state.buffer := by
  cases input with
  | key name modifiers =>
    rw [Input.run, Run.ignoredState]
    exact keyKept taken erased (keyed name modifiers)
  | search pattern =>
    rw [Input.run, Run.ignoredState]
    exact matter s.buffer _ (matterSearch pattern s) held
  | attach linked =>
    rw [Input.run, Run.ignoredState]
    exact matter s.buffer _ (matterAttachLink linked s) held
  | cancel => exact cancelKept erased s held

theorem letteredAfter (inserts : ∀ text, Buffer.Insertable text → ∀ c ∈ text, kind c)
    (held : s.buffer.Lettered kind) (inputs : List Input) : (s.after inputs).buffer.Lettered kind := by
  induction inputs generalizing s with
  | nil => exact held
  | cons input rest ih =>
    have lasting := Buffer.letteredLasting inserts
    exact ih (inputKept Buffer.letteredMatter (fun _ h => h.same rfl rfl rfl) (fun _ _ h => h.same rfl rfl rfl)
      (fun name modifiers => Editor.lastsKey lasting name modifiers s.editor held) held input)

theorem openedLettered (opened : Opened s) (clean : ∀ c ∈ s.text, kind c) : s.buffer.Lettered kind := by
  have blank : s.buffer.registers = RegisterBank.fresh ∧ s.buffer.history.done = [] ∧
      s.buffer.history.undone = [] := by
    cases opened with
    | fresh title text maxHistory opened =>
      cases opened
      exact ⟨rfl, rfl, rfl⟩
    | stored maxHistory rows' opened =>
      obtain ⟨rfl, -⟩ := Run.endsAt (reopenOk rows' maxHistory) opened
      exact ⟨rfl, rfl, rfl⟩
  obtain ⟨registers, done, undone⟩ := blank
  refine ⟨clean, ?_, ?_⟩
  · rw [registers]
    exact List.forall_mem_nil _
  · rw [done, undone]
    exact List.forall_mem_nil _

def Distinct (b : Buffer) : Prop := b.anchors.keys.Nodup

theorem openedDistinct (opened : Opened s) : Distinct s.buffer := by
  cases opened with
  | fresh title text maxHistory opened =>
    cases opened
    exact List.nodup_nil
  | stored maxHistory rows' opened =>
    rename_i noteId title body rows
    obtain ⟨rfl, -⟩ := Run.endsAt (reopenOk rows' maxHistory) opened
    have anchors : (reopened noteId title body rows maxHistory).buffer.anchors =
        ⟨rows.map fun r => (r.anchor, (Link.ofRow r).toAnchor)⟩ := congrArg Table.mk (reopenedAnchors rows)
    unfold Distinct
    rw [anchors]
    simpa [Table.keys, Function.comp_def] using rows'.distinct

theorem keyDistinct {e : Editor} (sound : e.Sound) (distinct : Distinct e.buffer) (name : Text)
    (modifiers : List Text) : Distinct (Editor.key name modifiers e).state.buffer := by
  have ending := Editor.keyAfter sound name modifiers
  unfold Run.After Editor.Ending at ending
  split at ending
  · rcases ending.1.turns with follows | draws
    · unfold Distinct
      rw [follows.keys]
      exact distinct
    · obtain ⟨a, -, -, anchors⟩ := draws.anchors
      unfold Distinct
      rw [anchors]
      exact Table.nodupPut distinct _ _
  · rcases ending with ⟨-, -, same⟩ | ⟨-, -, -, steady⟩
    · rw [same]
      exact distinct
    · unfold Distinct
      rw [steady.anchors]
      exact distinct

theorem distinctAfter (sound : s.Sound) (distinct : Distinct s.buffer) (inputs : List Input) :
    Distinct (s.after inputs).buffer := by
  induction inputs generalizing s with
  | nil => exact distinct
  | cons input rest ih =>
    refine ih (inputServed sound input).sound (inputKept (P := Distinct) (fun b later same held => ?_)
      (fun _ held => held) (fun b id held => ?_)
      (fun name modifiers => keyDistinct sound.editor distinct name modifiers) distinct input)
    · have anchors : later.anchors = b.anchors := congrArg (fun m => m.1.2.1) same
      unfold Distinct
      rw [anchors]
      exact held
    · unfold Distinct
      rw [Table.keysErase]
      exact held.filter _

end Session

end ModalNotes
