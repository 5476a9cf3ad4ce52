import ModalNotes.Proofs.Buffer.Kill
import ModalNotes.Proofs.Buffer.Stable

/-! The characters of a buffer. An operation puts back what was in the text, the register or the history, or puts
in what a key inserts; so all of it stays within any kind of characters that has all that keys insert. -/
namespace ModalNotes

theorem Document.lineLetters {d : Document} {row : Nat} {line : Text} (found : d.line? row = .ok line) :
    ∀ c ∈ line, c ∈ d.text := by
  intro c inside
  obtain ⟨_, ok, here, -⟩ := lineOk (lineFound found).1
  cases found.symm.trans ok
  obtain ⟨col, at_col⟩ := List.mem_iff_getElem?.mp inside
  have short : col < line.length := (List.getElem?_eq_some_iff.mp at_col).1
  have place : d.text[d.start row + col]? = some c := by
    rw [lineInText here, List.getElem?_append_left short, at_col]
  exact List.mem_of_getElem? place

namespace Timeline

variable {α : Type} {t u : Timeline α} {a : α}

theorem pushMember {b : α} (member : b ∈ (t.push a).done ++ (t.push a).undone) :
    b = a ∨ b ∈ t.done ++ t.undone := by
  simp only [push, List.append_nil] at member
  rcases List.mem_cons.mp (List.mem_of_mem_take member) with same | old
  · exact .inl same
  · exact .inr (List.mem_append_left _ old)

theorem undoMoves (found : t.undo? = some (a, u)) :
    a ∈ t.done ++ t.undone ∧ (u.done ++ u.undone).Perm (t.done ++ t.undone) := by
  unfold undo? at found
  split at found
  · contradiction
  · rename_i a rest past
    cases found
    rw [past]
    exact ⟨List.mem_append_left _ List.mem_cons_self, List.perm_middle⟩

theorem redoMoves (found : t.redo? = some (a, u)) :
    a ∈ t.done ++ t.undone ∧ (u.done ++ u.undone).Perm (t.done ++ t.undone) := by
  unfold redo? at found
  split at found
  · contradiction
  · rename_i a rest past
    cases found
    rw [past]
    exact ⟨List.mem_append_right _ List.mem_cons_self, List.perm_middle.symm⟩

end Timeline

namespace Buffer

open Run (keepsBind keptReads keepsPure)

structure Lettered (kind : Char → Prop) (b : Buffer) : Prop where
  text : ∀ c ∈ b.text, kind c
  yanked : ∀ c ∈ (b.registers.read RegisterBank.unnamed).text, kind c
  noted : ∀ r ∈ b.history.done ++ b.history.undone, (∀ c ∈ r.removed, kind c) ∧ ∀ c ∈ r.inserted, kind c

def Yields (kind : Char → Prop) (m : Run Buffer Text) : Prop :=
  ∀ b, Lettered kind b → Lettered kind (m b).state ∧ m.Gives b fun text => ∀ c ∈ text, kind c

variable {kind : Char → Prop} {b : Buffer}

theorem Lettered.same {later : Buffer} (h : Lettered kind b) (document : later.document = b.document)
    (registers : later.registers = b.registers) (history : later.history = b.history) : Lettered kind later := by
  have text : later.text = b.text := congrArg Document.text document
  exact ⟨text ▸ h.text, registers ▸ h.yanked, history ▸ h.noted⟩

theorem letteredMatter (b later : Buffer) (same : later.matter = b.matter) (h : Lettered kind b) :
    Lettered kind later := by
  simp only [matter, ground, Prod.mk.injEq] at same
  obtain ⟨⟨document, -⟩, registers, history⟩ := same
  exact h.same document registers history

theorem Lettered.yank (h : Lettered kind b) (value : Register) (letters : ∀ c ∈ value.text, kind c) :
    Lettered kind (b.yank value) := by
  refine ⟨h.text, ?_, h.noted⟩
  rw [Buffer.yank, RegisterBank.readWritten]
  exact letters

theorem Lettered.piece (h : Lettered kind b) (start n : Nat) : ∀ c ∈ (b.text.drop start).take n, kind c :=
  fun c inside => h.text c (List.mem_of_mem_drop (List.mem_of_mem_take inside))

theorem Lettered.edited (h : Lettered kind b) {e : Edit} (letters : ∀ c ∈ e.text, kind c) :
    ∀ c ∈ (b.document.replaceText (b.text.take e.start ++ e.text ++ b.text.drop e.stop)).text, kind c := by
  intro c inside
  rw [Document.text, Document.replaceText, Text.unlines_lines, List.append_assoc] at inside
  rcases List.mem_append.mp inside with front | inside
  · exact h.text c (List.mem_of_mem_take front)
  rcases List.mem_append.mp inside with new | back
  · exact letters c new
  · exact h.text c (List.mem_of_mem_drop back)

theorem yieldsApplyEdit {e : Edit} (letters : ∀ c ∈ e.text, kind c) : Yields kind (applyEdit e) := by
  intro b h
  have text := h.edited letters
  have removed := h.piece e.start (e.stop - e.start)
  unfold Run.Gives applyEdit
  dsimp only
  split
  · exact ⟨⟨text, h.yanked, h.noted⟩, nofun⟩
  · refine ⟨⟨text, h.yanked, ?_⟩, fun given same => ?_⟩
    · dsimp only
      split
      · intro r member
        rcases Timeline.pushMember member with rfl | old
        · exact ⟨removed, letters⟩
        · exact h.noted r old
      · exact h.noted
    · cases same
      exact removed

theorem Yields.bind {α : Type} {m : Run Buffer Text} {f : Text → Run Buffer α} {Q : α → Prop}
    (first : Yields kind m) (h : Lettered kind b) (rest : ∀ text t, (∀ c ∈ text, kind c) → Lettered kind t →
      Lettered kind (f text t).state ∧ (f text).Gives t Q) :
    Lettered kind ((m >>= f) b).state ∧ (m >>= f).Gives b Q := by
  obtain ⟨middle, given⟩ := first b h
  unfold Run.Gives at given ⊢
  rw [Run.bind_apply]
  rcases ran : m b with ⟨t, trace, r⟩
  rw [ran] at middle given
  cases r with
  | error fault => exact ⟨middle, nofun⟩
  | ok text => exact rest text t (given text rfl) middle

theorem yieldsEdit {e : Edit} (letters : ∀ c ∈ e.text, kind c) : Yields kind (edit e) := by
  intro b h
  refine Yields.bind (m := Run.spanned _ (applyEdit e)) (yieldsApplyEdit letters) h fun removed t gone h' => ?_
  split
  · exact ⟨h'.yank _ gone, Run.givesPure gone⟩
  · exact ⟨h', Run.givesPure gone⟩

theorem yieldsReads {α : Type} {r : Except Fault α} {f : α → Run Buffer Text} (h : Lettered kind b)
    (rest : ∀ a, r = .ok a → Lettered kind (f a b).state ∧ (f a).Gives b fun text => ∀ c ∈ text, kind c) :
    Lettered kind ((Run.ofExcept r >>= f) b).state ∧
      (Run.ofExcept r >>= f).Gives b fun text => ∀ c ∈ text, kind c := by
  cases r with
  | ok a => exact rest a rfl
  | error fault => exact ⟨h, nofun⟩

theorem yieldsReplaceRange (start stop : Point) (label : Text) :
    Yields kind (replaceRange start stop [] label) := fun b h =>
  yieldsReads h fun _ _ => yieldsReads h fun _ _ => yieldsReads h fun _ _ => yieldsReads h fun _ _ =>
    yieldsEdit (fun _ none => nomatch none) b h

theorem letteredEdit {e : Edit} (letters : ∀ c ∈ e.text, kind c) : Run.Keeps (Lettered kind) (edit e) :=
  fun b h => (yieldsEdit letters b h).1

theorem letteredThen {m : Run Buffer Text} (yields : Yields kind m) {f : Text → Buffer → Buffer}
    (keeps : ∀ text b, (∀ c ∈ text, kind c) → Lettered kind b → Lettered kind (f text b)) :
    Run.Keeps (Lettered kind) (do
      let text ← m
      Run.modify (f text)
      pure true) := fun _ h =>
  (yields.bind h (Q := fun _ => True) fun text t letters h' =>
    ⟨keeps text t letters h', fun _ _ => trivial⟩).1

theorem letteredRemove (start stop : Point) (label : Text) : Run.Keeps (Lettered kind) (do
    let removed ← replaceRange start stop [] label
    Run.modify (·.yank (characterwise removed))
    pure true) :=
  letteredThen (f := fun removed b => b.yank (characterwise removed)) (yieldsReplaceRange start stop label)
    fun _ _ letters h => h.yank _ letters

theorem letteredInsertText {text : Text} (letters : ∀ c ∈ text, kind c) :
    Run.Keeps (Lettered kind) (insertText text) := fun b h =>
  keptReads h fun _ _ => keepsBind (letteredEdit letters) (fun _ => keepsPure ()) b h

theorem letteredDeleteChar : Run.Keeps (Lettered kind) deleteChar := by
  refine fun b h => keptReads h fun offset _ => ?_
  split
  · exact h
  · exact stableMade (letteredEdit (List.forall_mem_nil _)) b h

theorem letteredDeleteNextChar : Run.Keeps (Lettered kind) deleteNextChar := by
  refine fun b h => keptReads h fun offset _ => ?_
  split
  · exact h
  · exact stableMade (letteredEdit (List.forall_mem_nil _)) b h

theorem letteredDeleteToLineEnd : Run.Keeps (Lettered kind) deleteToLineEnd := by
  refine fun b h => keptReads h fun length _ => ?_
  split
  · exact h
  · exact letteredRemove _ _ _ b h

theorem letteredDeleteLine (moveUp : Bool) : Run.Keeps (Lettered kind) (deleteLine moveUp) := by
  refine fun b h => keptReads h fun line found => ?_
  split
  · exact h
  refine keptReads h fun e deletion => letteredThen (yieldsEdit ?_) (fun _ _ _ h' => ?_) b h
  · obtain ⟨inside, size⟩ := Document.lineFound found
    obtain ⟨-, -, -, none⟩ := lineDeletionCuts inside size deletion
    rw [none]
    exact List.forall_mem_nil _
  · have yanked := h'.yank (Register.linewise line) fun c inside =>
      h.text c (Document.lineLetters found c inside)
    dsimp only
    split
    · exact yanked.same rfl rfl rfl
    · exact yanked

theorem letteredDeleteNextWord : Run.Keeps (Lettered kind) deleteNextWord := by
  refine fun b h => keptReads h fun line _ => ?_
  split
  · exact letteredDeleteNextChar b h
  · exact letteredThen (f := fun removed t => { t with cursor := b.cursor }.yank (characterwise removed))
      (yieldsReplaceRange _ _ _) (fun _ _ letters h' => (h'.yank _ letters).same rfl rfl rfl) b h

theorem letteredDeleteWord : Run.Keeps (Lettered kind) deleteWord := by
  refine Run.keepsGet fun b h => ?_
  dsimp only
  split
  · exact letteredDeleteChar b h
  · exact keptReads h fun line _ => letteredRemove _ _ _ b h

theorem letteredOpenLineBelow (newline : ∀ c ∈ ['\n'], kind c) :
    Run.Keeps (Lettered kind) openLineBelow := fun _ h =>
  keptReads h fun _ _ => Run.keptBind (h.same rfl rfl rfl) fun _ => letteredInsertText newline

theorem letteredOpenLineAbove (newline : ∀ c ∈ ['\n'], kind c) :
    Run.Keeps (Lettered kind) openLineAbove := fun b h =>
  keptReads h fun _ _ => keepsBind (letteredEdit newline) (fun _ => keepsPure ()) b h

theorem letteredPaste (newline : ∀ c ∈ ['\n'], kind c) : Run.Keeps (Lettered kind) paste := by
  refine Run.keepsGet fun b h => ?_
  dsimp only
  split
  · exact h
  split
  · have letters : ∀ c ∈ '\n' :: (b.registers.read RegisterBank.unnamed).text, kind c :=
      List.forall_mem_cons.mpr ⟨newline '\n' (List.mem_singleton_self _), h.yanked⟩
    exact keptReads h fun _ _ => keptReads h fun _ _ => stableMade (letteredEdit letters) b h
  · exact stableMade (letteredInsertText h.yanked) b h

theorem letteredReplay {history : Timeline Replacement} {e : Edit} (letters : ∀ c ∈ e.text, kind c)
    (h : Lettered kind b) (moved : (history.done ++ history.undone).Perm (b.history.done ++ b.history.undone)) :
    Lettered kind ((do
      Run.put { b with history }
      let _ ← edit e
      pure true : Run Buffer Bool) b).state :=
  Run.keptBind (m := Run.put _) ⟨h.text, h.yanked, fun r member => h.noted r (moved.mem_iff.mp member)⟩
    fun _ => stableMade (letteredEdit letters)

theorem letteredUndo : Run.Keeps (Lettered kind) undo := by
  refine Run.keepsGet fun b h => ?_
  split
  · exact h
  · rename_i r history found
    obtain ⟨member, moved⟩ := Timeline.undoMoves found
    exact letteredReplay (h.noted r member).1 h moved

theorem letteredRedo : Run.Keeps (Lettered kind) redo := by
  refine Run.keepsGet fun b h => ?_
  split
  · exact h
  · rename_i r history found
    obtain ⟨member, moved⟩ := Timeline.redoMoves found
    exact letteredReplay (h.noted r member).2 h moved

theorem letteredCopy : Run.Keeps (Lettered kind) copy := by
  refine keepsBind (Run.keepsLeaves matterSelectionRange letteredMatter) fun range => ?_
  split
  · exact keepsPure false
  · refine Run.keepsGet fun b h => keptReads h fun start _ => keptReads h fun stop _ => ?_
    have yanked := h.yank (characterwise ((b.text.drop start).take (stop - start))) (h.piece start _)
    exact yanked.same rfl rfl rfl

theorem letteredCut : Run.Keeps (Lettered kind) cut := by
  refine keepsBind (Run.keepsLeaves matterSelectionRange letteredMatter) fun range => ?_
  split
  · exact keepsPure false
  · refine keepsBind (fun b h => h.same rfl rfl rfl) fun _ => ?_
    split
    · exact keepsPure false
    · exact letteredRemove _ _ _

theorem letteredAnchorSelection : Run.Keeps (Lettered kind) anchorSelection := by
  refine Run.keepsLeaves sparedAnchorSelection fun b c same h => ?_
  simp only [spared, seat, Prod.mk.injEq] at same
  obtain ⟨⟨-, document, -⟩, registers, history⟩ := same
  exact h.same document registers history

theorem letteredLasting (inserts : ∀ text, Insertable text → ∀ c ∈ text, kind c) : Lasting (Lettered kind) :=
  have newline : ∀ c ∈ ['\n'], kind c := inserts ['\n'] (.inl rfl)
  { matter := letteredMatter
    insertText text insertable := letteredInsertText (inserts text insertable)
    deleteChar := letteredDeleteChar
    deleteNextChar := letteredDeleteNextChar
    deleteToLineEnd := letteredDeleteToLineEnd
    deleteLine := letteredDeleteLine
    deleteNextWord := letteredDeleteNextWord
    deleteWord := letteredDeleteWord
    openLineBelow := letteredOpenLineBelow newline
    openLineAbove := letteredOpenLineAbove newline
    paste := letteredPaste newline
    undo := letteredUndo
    redo := letteredRedo
    copy := letteredCopy
    cut := letteredCut
    anchorSelection := letteredAnchorSelection }

end Buffer

end ModalNotes
