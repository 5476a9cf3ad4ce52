import ModalNotes.Proofs.Editor.Modal

/-! Commands and their keys. A key of the keymap arms a command, and the next key is the command's. One that
nothing takes, neither the waiting command nor, when none waits, a count or the keymap of the mode, gives the
command up and changes nothing else. No other key is refused. -/
namespace ModalNotes

def Command.completions : Command → List Text
  | .delete => [['d'], ['j'], ['k'], ['h'], ['l'], ['w'], ['b']]
  | .yank => [['l'], ['w'], ['b']]
  | .goto => [['g']]
  | _ => []

def Reply.refuses (reply : Reply) : Bool := reply.status == .ignored || reply.status == .aborted

namespace Editor

def takes (e : Editor) (token : Text) : Bool :=
  match e.command with
  | .none => isDigitKey token || (e.registry.lookup e.mode.name token).isSome
  | .delete | .yank | .goto => e.command.completions.contains token
  | .findForward | .findBackward | .primeHop => KeyPress.isPrintable token
  | .executeHop => isDigitKey token || endsHop token

def rested (e : Editor) : Editor :=
  { e with command := .none, pending := {}, buffer := { e.buffer with hopKey := none, hopMatches := [] } }

def armed (e : Editor) (command : Command) (opener : Text) : Editor :=
  { e with command, pending := { e.pending with typed := e.pending.typed ++ opener } }

def refusal (e : Editor) : Reply :=
  if e.command = .none then { consumed := false, status := .ignored } else { status := .aborted }

section
variable {e : Editor} {token : Text}

theorem refusalRefuses (e : Editor) : e.refusal.refuses = true := by
  unfold refusal
  split <;> rfl

theorem restedHopless (hop : e.buffer.hop = (none, [])) :
    e.rested = { e with command := .none, pending := {} } := by
  obtain ⟨key, found⟩ := Prod.mk.inj hop
  simp only [rested, ← key, ← found]

theorem abandonRests (waits : e.command ≠ .none) (hop : e.buffer.hop = (none, [])) :
    (abandon token).Ends e fun reply later => reply = e.refusal ∧ later = e.rested :=
  ⟨{ status := .aborted }, rfl, (if_neg waits).symm, (restedHopless hop).symm⟩

theorem strayCharwise (other : token ∉ Command.yank.completions) (notBack : token ≠ ['h']) :
    charwise? token = none := by
  simp only [Command.completions, List.mem_cons, List.not_mem_nil, or_false, not_or] at other
  unfold charwise?
  split
  all_goals simp_all

theorem strayYanking (other : token ∉ Command.yank.completions) : yanking? token = none := by
  simp only [Command.completions, List.mem_cons, List.not_mem_nil, or_false, not_or] at other
  unfold yanking?
  split
  all_goals simp_all

theorem strayDeletion (other : token ∉ Command.delete.completions) (startRow : Nat) :
    deletion? token startRow = none := by
  have notYank : token ∉ Command.yank.completions := fun member =>
    other (List.mem_cons_of_mem _ (List.mem_cons_of_mem _ (List.mem_cons_of_mem _
      (List.mem_cons_of_mem _ member))))
  simp only [Command.completions, List.mem_cons, List.not_mem_nil, or_false, not_or] at other
  unfold deletion?
  split
  · exact absurd rfl other.1
  · exact absurd rfl other.2.1
  · exact absurd rfl other.2.2.1
  · exact strayCharwise notYank other.2.2.2.1

theorem completeStray (modal : e.Modal) (waits : e.command ≠ .none) (stray : e.takes token = false) :
    (complete e.command token).Ends e fun reply later => reply = e.refusal ∧ later = e.rested := by
  unfold complete
  rw [Run.endsBind, Run.endsGet]
  have gives : e.command ≠ .executeHop →
      (abandon token).Ends e fun reply later => reply = e.refusal ∧ later = e.rested :=
    fun other => abandonRests waits (modal.hopless other)
  unfold takes at stray
  cases command : e.command with
  | none => exact absurd command waits
  | delete =>
    have other : token ∉ Command.delete.completions := by simpa [command] using stray
    simp only [completeRepeated, strayDeletion other]
    exact gives (by simp [command])
  | yank =>
    have other : token ∉ Command.yank.completions := by simpa [command] using stray
    simp only [completeRepeated, strayYanking other]
    exact gives (by simp [command])
  | goto =>
    have other : token ≠ ['g'] := by simpa [command, Command.completions] using stray
    simp only [completeGoto, if_neg other]
    exact gives (by simp [command])
  | findForward | findBackward =>
    have other : ¬ KeyPress.isPrintable token = true := by simpa [command] using stray
    simp only [completeFind, if_neg other]
    exact gives (by simp [command])
  | primeHop =>
    have other : ¬ KeyPress.isPrintable token = true := by simpa [command] using stray
    simp only [completePrimeHop, if_neg other]
    exact gives (by simp [command])
  | executeHop =>
    rw [command] at stray
    obtain ⟨noDigit, noEnd⟩ := Bool.or_eq_false_iff.mp stray
    simp only [completeExecuteHop, noDigit, noEnd, Bool.false_eq_true, if_false]
    rw [Run.endsBind, endsOnBuffer, Buffer.clearHop, Run.endsModify]
    exact ⟨{ status := .aborted }, rfl, (if_neg waits).symm, rfl⟩

theorem modalKeyStray (modal : e.Modal) (stray : e.takes token = false) :
    (modalKey token).Ends e fun reply later => reply = e.refusal ∧ later = e.rested := by
  unfold modalKey
  rw [Run.endsBind, Run.endsGet]
  split
  · rename_i waits
    exact completeStray modal waits stray
  · rename_i idle
    have idle' : e.command = .none := Decidable.not_not.mp idle
    simp only [takes, idle', Bool.or_eq_false_iff, Option.isSome_eq_false_iff, Option.isNone_iff_eq_none]
      at stray
    obtain ⟨noDigit, unbound⟩ := stray
    have hop := modal.hopless (by simp [idle'])
    rw [noDigit, if_neg Bool.false_ne_true, boundKey, Run.endsBind, Run.endsGet]
    simp only [unbound, Run.endsBind, Run.endsLog, resetPending, Run.endsModify, Run.endsPure]
    exact ⟨(if_pos idle').symm, (restedHopless hop).symm⟩

section
variable {name : Text} {modifiers : List Text}

theorem keyStray (modal : e.Modal) (other : e.mode ≠ .insert)
    (stray : e.takes (KeyPress.token name modifiers) = false) :
    (key name modifiers).Ends e fun reply later => reply = e.refusal ∧ later = e.rested := by
  unfold key
  rw [Run.endsBind, Run.endsGet, if_neg other, Run.endsBind]
  refine Run.endsMono (modalKeyStray modal stray) ?_
  rintro _ _ ⟨rfl, rfl⟩
  rw [Run.endsBind]
  refine Run.endsMono (respondState e.refusal e.rested) ?_
  rintro _ _ rfl
  have same : responded e.refusal e.rested = e.rested := by
    unfold refusal
    split <;> rfl
  have version : e.rested.buffer.version = e.buffer.version := rfl
  rw [same, Run.endsBind, Run.endsGet, if_neg (not_not_intro version), Run.endsPure]
  exact ⟨rfl, rfl⟩

theorem keyArms {b : Binding} {action : NamedAction Action} {command : Command} {opener : Text}
    (other : e.mode ≠ .insert) (idle : e.command = .none)
    (noDigit : isDigitKey (KeyPress.token name modifiers) = false)
    (found : e.registry.lookup e.mode.name (KeyPress.token name modifiers) = some (b, action))
    (arms : action.handler = .arm command opener) :
    (key name modifiers).Ends e fun reply later =>
      reply.status = .pending ∧ later = e.armed command opener := by
  have replied : (modalKey (KeyPress.token name modifiers)).Ends e fun reply later =>
      reply.status = .pending ∧ responded reply later = e.armed command opener := by
    unfold modalKey
    rw [Run.endsBind, Run.endsGet, if_neg (not_not_intro idle), noDigit, if_neg Bool.false_ne_true, boundKey,
      Run.endsBind, Run.endsGet]
    simp only [found, performBound, arms, perform, Run.endsBind, Run.endsSpanned, Run.endsModify,
      Run.endsPure, Option.isNone_some, Bool.false_eq_true, if_false]
    exact ⟨trivial, rfl⟩
  unfold key
  rw [Run.endsBind, Run.endsGet, if_neg other, Run.endsBind]
  refine Run.endsMono replied ?_
  rintro reply middle ⟨status, done⟩
  rw [Run.endsBind]
  refine Run.endsMono (respondState reply middle) ?_
  rintro _ _ rfl
  have version : (e.armed command opener).buffer.version = e.buffer.version := rfl
  rw [done, Run.endsBind, Run.endsGet, if_neg (not_not_intro version), Run.endsPure]
  exact ⟨status, rfl⟩

def Accepts (m : Run Editor Reply) (e : Editor) : Prop := m.Gives e fun reply => reply.refuses = false

theorem acceptsOutcome (changed : Bool) (message : String) (e : Editor) :
    Accepts (pure (outcomeOf changed message)) e := by
  refine Run.givesPure ?_
  cases changed <;> rfl

theorem acceptsSearch (search : Run Buffer Bool) (message : String) (e : Editor) :
    Accepts (searchStep search message) e := by
  refine Run.givesLast fun moved t => ?_
  dsimp only
  split
  · exact Run.givesLast fun _ u => acceptsOutcome _ _ u
  · exact acceptsOutcome _ _ t

theorem performAccepts (action : Action) (e : Editor) : Accepts (perform action) e := by
  cases action with
  | nothing | noop | enterInsert | exitToNormal | enterVisual => exact Run.givesPure rfl
  | append | appendLineEnd | insertLineHead | lineHead | lineEnd | openBelow | openAbove | enterVisualLine
  | changeToLineEnd | arm | copy | cut | align | newline | tab | backspace | deleteForward | arrow =>
    exact Run.givesLast fun _ _ => Run.givesPure rfl
  | move | deleteNextChar => exact Run.givesLast fun _ _ => Run.givesLast fun _ _ => Run.givesPure rfl
  | bottom =>
    exact Run.givesLast fun _ _ => Run.givesLast fun _ _ => Run.givesLast fun _ _ => Run.givesPure rfl
  | paste | undo | redo | deleteToLineEnd => exact Run.givesLast fun _ t => acceptsOutcome _ _ t
  | searchNext | searchPrevious => exact acceptsSearch _ _ e
  | link =>
    refine Run.givesLast fun id _ => ?_
    cases id <;> exact Run.givesPure rfl

theorem finishAccepts (message : Text) (e : Editor) : Accepts (finish message) e :=
  Run.givesLast fun _ _ => Run.givesPure rfl

theorem repeatedAccepts (opener : Char) (step : Run Editor Unit) (token : Text) (e : Editor) :
    Accepts (completeRepeated opener (some step) token) e :=
  Run.givesLast fun _ _ => Run.givesLast fun _ t => finishAccepts _ t

theorem yankingTaken (known : token ∈ Command.yank.completions) : ∃ step, yanking? token = some step := by
  simp only [Command.completions, List.mem_cons, List.not_mem_nil, or_false] at known
  rcases known with rfl | rfl | rfl <;> exact ⟨_, rfl⟩

theorem deletionTaken (known : token ∈ Command.delete.completions) (startRow : Nat) :
    ∃ step, deletion? token startRow = some step := by
  simp only [Command.completions, List.mem_cons, List.not_mem_nil, or_false] at known
  rcases known with rfl | rfl | rfl | rfl | rfl | rfl | rfl <;> exact ⟨_, rfl⟩

theorem hopAccepts (taken : (isDigitKey token || endsHop token) = true) :
    Accepts (completeExecuteHop token) e := by
  unfold completeExecuteHop
  split
  · exact Run.givesLast fun _ _ => Run.givesPure rfl
  · rename_i noDigit
    have ends : endsHop token = true := by simpa [noDigit] using taken
    rw [if_pos ends]
    refine Run.givesLast fun f _ => Run.givesLast fun jumped _ => Run.givesLast fun _ _ => ?_
    rw [← hopIndex]
    generalize Text.isWritable (hopIndex f) = writable
    have last : ∀ g : Editor, Accepts (if writable then finish ("hop:".toList ++ Text.ofInt (hopIndex f))
        else Run.fail .tooLongToWrite) g := by
      intro g
      cases writable with
      | true => exact finishAccepts _ g
      | false => exact Run.givesFail
    cases jumped with
    | true => exact Run.givesLast fun _ g => last g
    | false => exact last _

theorem completeAccepts (waits : e.command ≠ .none) (taken : e.takes token = true) :
    Accepts (complete e.command token) e := by
  unfold takes at taken
  unfold complete
  refine Run.givesGet ?_
  cases command : e.command with
  | none => exact absurd command waits
  | delete =>
    rw [command] at taken
    obtain ⟨step, found⟩ := deletionTaken (List.contains_iff_mem.mp taken) e.buffer.cursor.row
    simp only [found]
    exact repeatedAccepts _ _ _ _
  | yank =>
    rw [command] at taken
    obtain ⟨step, found⟩ := yankingTaken (List.contains_iff_mem.mp taken)
    simp only [found]
    exact repeatedAccepts _ _ _ _
  | goto =>
    have known : token = ['g'] := by simpa [command, Command.completions] using taken
    simp only [completeGoto, if_pos known]
    exact Run.givesLast fun _ _ => Run.givesLast fun _ _ => Run.givesLast fun _ t => finishAccepts _ t
  | findForward | findBackward =>
    rw [command] at taken
    simp only [completeFind, if_pos taken]
    refine Run.givesLast fun f _ => Run.givesLast fun line _ => ?_
    split
    · exact finishAccepts _ _
    · exact Run.givesLast fun _ _ => Run.givesLast fun _ t => finishAccepts _ t
  | primeHop =>
    rw [command] at taken
    simp only [completePrimeHop, if_pos taken]
    refine Run.givesLast fun _ _ => Run.givesLast fun f _ => ?_
    split
    · exact Run.givesPure rfl
    · exact Run.givesLast fun _ _ => Run.givesLast fun _ _ => Run.givesPure rfl
  | executeHop =>
    rw [command] at taken
    exact hopAccepts taken

theorem modalKeyAccepts (taken : e.takes token = true) : Accepts (modalKey token) e := by
  unfold modalKey
  refine Run.givesGet ?_
  split
  · rename_i waits
    exact completeAccepts waits taken
  · rename_i idle
    have idle' : e.command = .none := Decidable.not_not.mp idle
    split
    · exact Run.givesLast fun _ _ => Run.givesPure rfl
    · rename_i noDigit
      have bound : (e.registry.lookup e.mode.name token).isSome = true := by
        simpa [takes, idle', noDigit] using taken
      obtain ⟨⟨binding, action⟩, found⟩ := Option.isSome_iff_exists.mp bound
      unfold boundKey
      refine Run.givesGet ?_
      simp only [found]
      refine Run.givesBind (performAccepts action.handler e) fun reply t accepted => ?_
      split
      · exact Run.givesLast fun _ _ => Run.givesPure accepted
      · exact Run.givesPure accepted

theorem keyAccepts (other : e.mode ≠ .insert) (taken : e.takes (KeyPress.token name modifiers) = true) :
    Accepts (key name modifiers) e := by
  unfold key
  refine Run.givesGet ?_
  rw [if_neg other]
  refine Run.givesBind (modalKeyAccepts taken) fun reply t accepted => ?_
  refine Run.givesLast fun _ _ => Run.givesLast fun f _ => ?_
  dsimp only
  split
  · exact Run.givesLast fun _ _ => Run.givesPure accepted
  · exact Run.givesPure accepted

end

/- A command that is at its end, unless it was a hop whose index cannot be written. -/
def Ended (e : Editor) (token : Text) (r : Except Fault Reply) (later : Editor) : Prop :=
  match r with
  | .ok reply => Quiet reply ∧ later.command = .none
  | .error _ => e.Overlong token

theorem endedQuiet {f : Editor} {m : Run Editor Reply}
    (done : m.Ends f fun reply later => Quiet reply ∧ later = { f with command := .none, pending := {} }) :
    m.After f (Ended e token) := by
  refine Run.afterOfEnds (Run.endsMono done ?_)
  rintro reply _ ⟨quiet, rfl⟩
  exact ⟨quiet, rfl⟩

theorem hopEnded (other : e.mode ≠ .insert) (hop : e.command = .executeHop) (ends : endsHop token = true)
    (noDigit : isDigitKey token = false) : (completeExecuteHop token).After e (Ended e token) := by
  unfold completeExecuteHop
  rw [noDigit, ends, if_neg Bool.false_ne_true, if_pos rfl]
  refine Run.afterBindEnds (Run.endsGet.mpr ?_)
  dsimp only
  rw [← hopIndex]
  generalize writes : Text.isWritable (hopIndex e) = writable
  have last : ∀ f : Editor, (if writable then finish ("hop:".toList ++ Text.ofInt (hopIndex e))
      else Run.fail .tooLongToWrite).After f (Ended e token) := by
    intro f
    cases writable with
    | true => exact endedQuiet (finishEnds f _)
    | false => exact ⟨other, hop, ends, writes⟩
  refine Run.afterBindEnds (endsOnBuffer.mpr (Run.endsMono (hopToState (hopIndex e) e.buffer) ?_))
  rintro jumped _ ⟨cursor, rfl⟩
  refine Run.afterBindEnds (endsOnBuffer.mpr (Run.endsModify.mpr ?_))
  cases jumped with
  | true => exact Run.afterBindEnds (Run.endsModify.mpr (last _))
  | false => exact last _

theorem enterEnded (other : e.mode ≠ .insert) (waits : e.command ≠ .none) :
    (complete e.command "enter".toList).After e (Ended e "enter".toList) := by
  have gives : (abandon "enter".toList).After e (Ended e "enter".toList) := endedQuiet (abandonEnds e _)
  unfold complete
  refine Run.afterBindEnds (Run.endsGet.mpr ?_)
  cases command : e.command with
  | none => exact absurd command waits
  | executeHop => exact hopEnded other command (by decide) (by decide)
  | delete | yank | goto | findForward | findBackward | primeHop => exact gives

theorem keyEnter (other : e.mode ≠ .insert) (waits : e.command ≠ .none) :
    (key "enter".toList []).After e fun _ later =>
      later.command = .none ∨ e.Overlong "enter".toList := by
  have token : KeyPress.token "enter".toList [] = "enter".toList := by decide +kernel
  unfold key
  refine Run.afterBindEnds (Run.endsGet.mpr ?_)
  rw [token, if_neg other, Run.afterBind]
  have modal : (modalKey "enter".toList).After e (Ended e "enter".toList) := by
    unfold modalKey
    refine Run.afterBindEnds (Run.endsGet.mpr ?_)
    rw [if_pos waits]
    exact enterEnded other waits
  refine Run.afterMono modal fun r later ended => ?_
  cases r with
  | error fault => exact .inr ended
  | ok reply =>
    obtain ⟨⟨command, switchTo⟩, none⟩ := ended
    refine Run.afterOfEnds (Run.endsBind.mpr (Run.endsMono (respondState reply later) ?_))
    rintro _ _ rfl
    have rests : (responded reply later).command = .none := by
      simp [responded, switchTo, command, none]
    rw [Run.endsBind, Run.endsGet]
    split
    · rw [Run.endsBind, recordColumn, Run.endsModify, Run.endsPure]
      exact .inl rests
    · exact Run.endsPure.mpr (.inl rests)

end

end Editor

end ModalNotes
