import ModalNotes.Proofs.Session.Modal

/-! The version of a session's text under inputs. It never goes back, and for as long as it stays the text
stays, and so do the links that are saved. -/
namespace ModalNotes

namespace Editor

theorem keyVersion {e : Editor} (sound : e.Sound) (name : Text) (modifiers : List Text) :
    e.buffer.version ≤ (key name modifiers e).state.buffer.version ∧
      ((key name modifiers e).state.buffer.version = e.buffer.version →
        (key name modifiers e).state.buffer.document = e.buffer.document) := by
  have still : ∀ {later : Buffer}, later.document = e.buffer.document →
      e.buffer.version ≤ later.version ∧ (later.version = e.buffer.version →
        later.document = e.buffer.document) :=
    fun same => ⟨Nat.le_of_eq (congrArg Document.version same).symm, fun _ => same⟩
  have ending := keyAfter sound name modifiers
  unfold Run.After at ending
  cases result : (key name modifiers e).result with
  | ok reply =>
    rw [result] at ending
    rcases ending.1.turns with follows | draws
    · exact ⟨follows.version, fun same => (follows.still same).1⟩
    · exact still draws.document
  | error fault =>
    rw [result] at ending
    rcases ending with ⟨-, -, same⟩ | ⟨-, -, -, steady⟩
    · rw [same]
      exact still rfl
    · exact still steady.document

end Editor

namespace Session

open Run (Leaves)

structure Ages (s later : Session) : Prop where
  saved : later.savedVersion = s.savedVersion
  version : s.buffer.version ≤ later.buffer.version
  still : later.buffer.version = s.buffer.version → later.text = s.text ∧
    ∀ l ∈ later.links.all, l.saved = true → l ∈ s.links.all

theorem agesStill {s later : Session} (saved : later.savedVersion = s.savedVersion)
    (document : later.buffer.document = s.buffer.document)
    (links : ∀ l ∈ later.links.all, l.saved = true → l ∈ s.links.all) : Ages s later where
  saved := saved
  version := Nat.le_of_eq (congrArg Document.version document).symm
  still _ := ⟨congrArg Document.text document, links⟩

theorem agesRefl (s : Session) : Ages s s := agesStill rfl rfl fun _ member _ => member

def books (s : Session) : LinkStore × Nat := (s.links, s.savedVersion)

theorem booksCancelLink (s : Session) : Leaves books cancelLink s := cancelView (fun _ _ => rfl) fun _ => rfl

theorem booksSearch (pattern : Option Text) (s : Session) : Leaves books (search pattern) s :=
  searchView (fun _ => rfl) (fun _ => rfl) fun _ => rfl

theorem savedAttachLink (linked : Int) (s : Session) : Leaves Session.savedVersion (attachLink linked) s :=
  attachView (fun _ => rfl) fun _ _ => rfl

theorem savedKey (name : Text) (modifiers : List Text) (s : Session) :
    (key name modifiers s).state.savedVersion = s.savedVersion :=
  keyView (fun _ _ _ => rfl) (fun _ => rfl) (fun t => congrArg Prod.snd (booksCancelLink t)) fun _ _ => rfl

theorem linksKey {name : Text} {modifiers : List Text} {s : Session}
    (same : (Editor.key name modifiers s.editor).state.buffer.version = s.buffer.version) :
    (key name modifiers s).state.links = s.links :=
  keyView (fun _ after changed => absurd ((congrArg (·.buffer.version) after).trans same) changed)
    (fun _ => rfl) (fun t => congrArg Prod.fst (booksCancelLink t)) fun _ _ => rfl

theorem attachAges {s : Session} (sound : s.Sound) (linked : Int) :
    Ages s (attachLink linked s).state := by
  obtain ⟨-, -, -, editor, -, links, -⟩ := attachLinkEnds sound linked
  refine agesStill (savedAttachLink linked s) (congrArg (·.buffer.document) editor) ?_
  intro l member marked
  rcases links with same | ⟨id, a, -, -, -, put⟩
  · exact same ▸ member
  · rw [put] at member
    rcases Table.memPut member with rfl | old
    · contradiction
    · exact old

theorem keyAges {s : Session} (sound : s.Sound) (name : Text) (modifiers : List Text) :
    Ages s (key name modifiers s).state := by
  obtain ⟨version, still⟩ := Editor.keyVersion sound.editor name modifiers
  have document : (key name modifiers s).state.buffer.document =
      (Editor.key name modifiers s.editor).state.buffer.document :=
    congrArg (fun t => t.2.1) (stanceKey name modifiers s)
  refine ⟨savedKey name modifiers s, ?_, fun same => ?_⟩
  · exact Nat.le_trans version (Nat.le_of_eq (congrArg Document.version document).symm)
  · have same' := (congrArg Document.version document).symm.trans same
    exact ⟨congrArg Document.text (document.trans (still same')),
      fun l member _ => linksKey same' ▸ member⟩

theorem inputAges {s : Session} (sound : s.Sound) (input : Input) : Ages s (input.run s).state := by
  cases input with
  | key name modifiers => exact (Run.ignoredState (key name modifiers) s).symm ▸ keyAges sound name modifiers
  | attach linked => exact (Run.ignoredState (attachLink linked) s).symm ▸ attachAges sound linked
  | search pattern =>
    have books := booksSearch pattern s
    refine (Run.ignoredState (search pattern) s).symm ▸ agesStill (congrArg Prod.snd books)
      (congrArg (fun t => t.2.1) (stanceSearch pattern s)) fun l member _ => ?_
    exact (congrArg (fun t => t.1.all) books) ▸ member
  | cancel =>
    have books := booksCancelLink s
    refine agesStill (congrArg Prod.snd books) (congrArg (fun t => t.2.1) (stanceCancelLink s))
      fun l member _ => ?_
    exact (congrArg (fun t => t.1.all) books) ▸ member

end Session

end ModalNotes
