import ModalNotes.Proofs.Session.Lettered
import ModalNotes.Proofs.View.Styled

/-! What a host sees highlighted. In every state that a session comes to, selection and hop are up to date with
the text, so its picture can be styled, and the spans have under them what they stand for. -/
namespace ModalNotes

theorem Editor.drawable {e : Editor} (sound : e.Sound) (modal : e.Modal) : e.buffer.Drawable where
  sound := sound.buffer
  selects := sound.selects
  hops := by
    intro c member
    have matched : e.buffer.hop ≠ (none, []) := by
      intro none
      have nothing : e.buffer.hopMatches = [] := congrArg Prod.snd none
      rw [nothing] at member
      contradiction
    have waits : e.command = .executeHop :=
      Decidable.byContradiction fun other => matched (modal.hopless other)
    have two := modal.collects
    rw [waits] at two
    rcases modal.hopping waits with ⟨key, finds⟩ | ⟨none, -⟩
    · obtain ⟨line, found, short, stands⟩ := (finds.exact c).mp member
      exact ⟨e.pending.typed, key, two, Document.standsInText found short stands⟩
    · exact absurd none matched

namespace Session

variable {s : Session}

theorem openedBegins (opened : Opened s) : s.Begins := by
  cases opened with
  | fresh title text maxHistory opened => exact freshBegins opened
  | stored maxHistory rows opened => exact reopenBegins opened

theorem highlightedAsMeant (opened : Opened s) (clean : ∀ c ∈ s.text, Styled.isDropped c = false)
    (inputs : List Input) (attributes : List (Text × Text)) :
    ∃ t, ((s.after inputs).buffer.picture attributes).styled = .ok t ∧ t.Shows (s.after inputs).buffer := by
  have sound := afterSound (openedSound opened) inputs
  have modal := modalAfter (beginsModal (openedBegins opened)) inputs
  have distinct := distinctAfter (openedSound opened) (openedDistinct opened) inputs
  have letters := letteredAfter Buffer.insertableKept (openedLettered opened clean) inputs
  have draws : (s.after inputs).buffer.Drawable := Editor.drawable sound.editor modal
  exact ⟨_, Buffer.pictureStyled draws letters.text, Buffer.drawnShows draws distinct⟩

theorem searchedNoteShown :
    let s := Session.reopened 1 ['n'] "ab\nab".toList [⟨1, 1, 0, 0, 2, 5⟩] 10
    Opened s ∧ (∀ c ∈ s.text, Styled.isDropped c = false) ∧
      ∃ t, ((s.after [.search (some ['b'])]).buffer.picture []).styled = .ok t ∧
        t.Shows (s.after [.search (some ['b'])]).buffer ∧ t.plain = "ab\nab ".toList := by
  intro s
  have rows : LinkRow.Stored 1 "ab\nab".toList [⟨1, 1, 0, 0, 2, 5⟩] := by decide
  have opened : Opened s := by
    have ends : (reopen 1 ['n'] "ab\nab".toList [⟨1, 1, 0, 0, 2, 5⟩] 10 : Run Unit Session).Ends ()
        fun later last => later = s ∧ last = () := reopenOk rows 10
    obtain ⟨later, result, same, -⟩ := ends
    rw [same] at result
    exact .stored 10 rows result
  have clean : ∀ c ∈ s.text, Styled.isDropped c = false := by
    have text : s.text = ['a', 'b', '\n', 'a', 'b'] := by decide +kernel
    simp [text, Styled.isDropped]
  obtain ⟨t, styled, shows⟩ := highlightedAsMeant opened clean [.search (some ['b'])] []
  refine ⟨opened, clean, t, styled, shows, shows.plain.trans ?_⟩
  decide +kernel

end Session

end ModalNotes
