import ModalNotes.Proofs.Editor.Count

/-! Hops. A hop takes two characters for its key, then the digits of an index, and goes to the match with that
index when it is told to end. -/
namespace ModalNotes.Editor

variable {e : Editor} {name : Text} {modifiers : List Text}

def hopping (key : Text) (e : Editor) : Editor :=
  { e with
    command := .executeHop, pending := { typed := key }
    buffer := { e.buffer with
      hopKey := some key, hopMatches := Buffer.matchesOf e.buffer.document.lines key } }

def hopped (index : Nat) (e : Editor) : Editor :=
  { e with
    column := match e.buffer.hopMatches[index]? with
      | some c => some c.col
      | none => e.column
    buffer := { e.buffer with
      cursor := e.buffer.hopMatches.getD index e.buffer.cursor, hopKey := none, hopMatches := [] } }

theorem waitingKey {command : Command} {token : Text} (waits : e.command = command) (some : command ≠ .none)
    {Q : Reply → Editor → Prop} (completes : (complete command token).Ends e Q) : (modalKey token).Ends e Q := by
  unfold modalKey
  rw [Run.endsBind, Run.endsGet, if_pos (waits ▸ some), waits]
  exact completes

theorem keyCollects {c : Char} (other : e.mode ≠ .insert) (waits : e.command = .primeHop)
    (none : e.pending.typed = []) (printable : Text.isPrintable c = true) :
    (key [c] []).Ends e fun _ later => later = { e with pending := { e.pending with typed := [c] } } := by
  have collected : (modalKey (KeyPress.token [c] [])).Ends e fun reply f =>
      Quiet reply ∧ f = { e with pending := { e.pending with typed := [c] } } := by
    refine waitingKey waits (by decide) ?_
    have short : (e.pending.typed ++ [c]).length < hopLength := by simp [none, hopLength]
    rw [KeyPress.tokenSingle, complete, Run.endsBind, Run.endsGet]
    simp only [completePrimeHop, KeyPress.isPrintable, printable, if_true, Run.endsBind, Run.endsModify,
      Run.endsGet, if_pos short, Run.endsPure]
    exact ⟨⟨rfl, rfl⟩, by rw [none, List.nil_append]⟩
  refine Run.endsMono (keyRecords other collected) ?_
  rintro _ _ ⟨_, rfl, rfl⟩
  exact recordedStill rfl

theorem keySeeks {c c' : Char} (other : e.mode ≠ .insert) (waits : e.command = .primeHop)
    (one : e.pending.typed = [c]) (printable : Text.isPrintable c' = true) :
    (key [c'] []).Ends e fun _ later => later = e.hopping [c, c'] := by
  have sought : (modalKey (KeyPress.token [c'] [])).Ends e fun reply f =>
      Quiet reply ∧ f = e.hopping [c, c'] := by
    refine waitingKey waits (by decide) ?_
    have long : ¬ (e.pending.typed ++ [c']).length < hopLength := by simp [one, hopLength]
    rw [KeyPress.tokenSingle, complete, Run.endsBind, Run.endsGet]
    simp only [completePrimeHop, KeyPress.isPrintable, printable, if_true, Run.endsBind, Run.endsModify,
      Run.endsGet, if_neg long, endsOnBuffer, Buffer.setHopPattern, Run.endsPut, Run.endsLog, Run.endsPure]
    refine ⟨⟨rfl, rfl⟩, ?_⟩
    simp only [one, List.singleton_append]
    rfl
  refine Run.endsMono (keyRecords other sought) ?_
  rintro _ _ ⟨_, rfl, rfl⟩
  exact recordedStill rfl

theorem hopToLands (index : Nat) (b : Buffer) : (Buffer.hopTo index).Ends b fun jumped later =>
    match b.hopMatches[index]? with
    | some c => jumped = true ∧ later = { b with cursor := c }
    | none => jumped = false ∧ later = b := by
  have positive : ¬ (index : Int) < 0 := Int.not_lt.mpr (Int.natCast_nonneg index)
  unfold Buffer.hopTo
  rw [Run.endsBind, Run.endsGet, if_neg positive, Int.toNat_natCast]
  cases b.hopMatches[index]? with
  | none => exact Run.endsPure.mpr ⟨rfl, rfl⟩
  | some c =>
    rw [Run.endsBind, Run.endsPut, Run.endsPure]
    exact ⟨rfl, rfl⟩

/- An index that can be written ends the hop and leaves nothing pending; with one that cannot the hop is over as
well, but its command and its digits are still there. -/
def HopEnds (index : Nat) (e : Editor) (r : Except Fault Reply) (later : Editor) : Prop :=
  match r with
  | .ok reply => Text.isWritable index = true ∧ Quiet reply ∧
      later = (e.hopped index).rests (e.hopped index).buffer
  | .error _ => Text.isWritable index = false ∧ later = e.hopped index

theorem hopCompletes {token : Text} {index : Nat} (ends : endsHop token = true) (told : hopIndex e = index) :
    (completeExecuteHop token).After e (HopEnds index e) := by
  have noDigit : isDigitKey token = false := by
    cases digit : isDigitKey token with
    | false => rfl
    | true => exact absurd ends (by rw [digitNotEnd digit]; exact Bool.false_ne_true)
  unfold completeExecuteHop
  rw [noDigit, ends, if_neg Bool.false_ne_true, if_pos rfl]
  refine Run.afterBindEnds (Run.endsGet.mpr ?_)
  dsimp only
  rw [← hopIndex, told]
  generalize writes : Text.isWritable index = writable
  have last : ∀ f : Editor, f = e.hopped index →
      (if writable then finish ("hop:".toList ++ Text.ofInt index)
        else Run.fail .tooLongToWrite).After f (HopEnds index e) := by
    rintro _ rfl
    cases writable with
    | true =>
      refine Run.afterOfEnds (Run.endsMono (finishEnds _ _) ?_)
      rintro reply _ ⟨quiet, rfl⟩
      exact ⟨writes, quiet, rfl⟩
    | false => exact ⟨writes, rfl⟩
  refine Run.afterBindEnds (endsOnBuffer.mpr (Run.endsMono (hopToLands index e.buffer) ?_))
  intro jumped b landed
  refine Run.afterBindEnds (endsOnBuffer.mpr (Run.endsModify.mpr ?_))
  cases place : e.buffer.hopMatches[index]? with
  | none =>
    simp only [place] at landed
    obtain ⟨rfl, rfl⟩ := landed
    refine last _ ?_
    simp [hopped, place]
  | some c =>
    simp only [place] at landed
    obtain ⟨rfl, rfl⟩ := landed
    refine Run.afterBindEnds (Run.endsModify.mpr (last _ ?_))
    simp [hopped, place]

theorem keyHops {index : Nat} (other : e.mode ≠ .insert) (waits : e.command = .executeHop)
    (ends : endsHop (KeyPress.token name modifiers) = true) (told : hopIndex e = index) :
    (key name modifiers).After e fun r later =>
      match r with
      | .ok _ => Text.isWritable index = true ∧ later = (e.hopped index).rests (e.hopped index).buffer
      | .error _ => Text.isWritable index = false ∧ later = e.hopped index := by
  have modal : (modalKey (KeyPress.token name modifiers)).After e (HopEnds index e) := by
    unfold modalKey
    refine Run.afterBindEnds (Run.endsGet.mpr ?_)
    rw [if_pos (by simp [waits]), waits, complete]
    exact Run.afterBindEnds (Run.endsGet.mpr (hopCompletes ends told))
  unfold key
  refine Run.afterBindEnds (Run.endsGet.mpr ?_)
  rw [if_neg other, Run.afterBind]
  refine Run.afterMono modal fun r middle done => ?_
  cases r with
  | error fault => exact done
  | ok reply =>
    obtain ⟨writes, quiet, rfl⟩ := done
    refine Run.afterOfEnds ?_
    rw [Run.endsBind]
    refine Run.endsMono (respondState reply _) ?_
    rintro _ _ rfl
    have version : ((e.hopped index).rests (e.hopped index).buffer).buffer.version = e.buffer.version := rfl
    rw [respondedQuiet quiet, Run.endsBind, Run.endsGet, if_neg (not_not_intro version), Run.endsPure]
    exact ⟨writes, rfl⟩

end ModalNotes.Editor
