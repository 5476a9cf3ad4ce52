import ModalNotes.Proofs.Buffer.Apart
import ModalNotes.Proofs.Buffer.History

/-! Undo and redo of edits that leave an anchor alone. Such an edit moves the anchor, and the edit that takes
it back moves the anchor back: the history leads from the anchor before to the anchor behind it, and each
undo and each redo is one step on that way. -/
namespace ModalNotes

namespace Anchor

variable {a : Anchor} {d d' : Document}

theorem carriedLines {after after' : Document} (same : d.lines = d'.lines)
    (same' : after.lines = after'.lines) (start stop inserted : Int) :
    carried d after start stop inserted = carried d' after' start stop inserted := by
  obtain ⟨_, _⟩ := d
  obtain ⟨_, _⟩ := d'
  obtain ⟨_, _⟩ := after
  obtain ⟨_, _⟩ := after'
  cases same
  cases same'
  rfl

variable {start stop : Nat} {t u : Text}

theorem clearReturns {moved : Anchor} (sound : d.Sound) (h : a.Spans d) (ordered : start ≤ stop)
    (clear : a.Clear d start stop) (size : u.length = stop - start)
    (takes : Takes a moved d' (a.firstKept d start stop t) (a.text d)) :
    moved.Clear d' start (start + t.length) ∧
      moved.firstKept d' start (start + t.length) u = a.first d := by
  have ascends := firstLtLast h
  have ends := takesLast sound h takes
  have begins := takes.first
  rw [firstKeptClear h clear] at begins ends
  rcases clear with ahead | behind
  · rw [if_pos ahead] at begins
    have clear : start + t.length ≤ moved.first d' := by omega
    refine ⟨.inl clear, ?_⟩
    rw [firstKeptClear takes.spans (.inl clear), if_pos clear]
    omega
  · rw [if_neg (by omega)] at begins ends
    have clear : moved.last d' ≤ start := by omega
    refine ⟨.inr clear, ?_⟩
    rw [firstKeptClear takes.spans (.inr clear), if_neg (by omega), begins]

theorem carriedReturns (sound : d.Sound) (live : a.deleted = false) (h : a.Spans d) (ordered : start ≤ stop)
    (clear : a.Clear d start stop) (size : u.length = stop - start)
    (back : ((d.spliced start stop t).spliced start (start + t.length) u).lines = d.lines) :
    carried (d.spliced start stop t) ((d.spliced start stop t).spliced start (start + t.length) u) start
      (start + t.length : Nat) u.length (carried d (d.spliced start stop t) start stop t.length a) = a := by
  have sound' : (d.spliced start stop t).Sound := Document.soundSpliced d start stop t
  have forth := carriedClear (t := t) sound live h ordered clear
  obtain ⟨text, edited⟩ := takesClean sound h forth
  obtain ⟨clear', place⟩ := clearReturns sound h ordered clear size forth
  have ends := takesLast sound h forth
  generalize carried d (d.spliced start stop t) start stop t.length a = moved at *
  have again := carriedClear (t := u) sound' (forth.deleted.trans live) forth.spans
    (Nat.le_add_right start t.length) clear'
  obtain ⟨-, edited'⟩ := takesClean sound' forth.spans again
  have begins' := again.first
  have ends' := takesLast sound' forth.spans again
  rw [place, firstLines _ back] at begins'
  rw [place, ends, forth.first, Nat.add_sub_cancel_left, lastLines _ back] at ends'
  generalize carried (d.spliced start stop t) _ start (start + t.length : Nat) u.length moved = returned at *
  have geometry : returned.geometry = a.geometry :=
    geometryOfEnds (spansLines again.spans back.symm) h begins' (by have := firstLtLast h; omega)
  have deleted : returned.deleted = a.deleted := again.deleted.trans forth.deleted
  obtain ⟨row, startCol, endCol, _, _⟩ := a
  obtain ⟨row', startCol', endCol', _, _⟩ := returned
  simp only [Anchor.geometry, Prod.mk.injEq] at geometry
  obtain ⟨rfl, rfl, rfl⟩ := geometry
  cases edited'.trans edited
  cases deleted
  rfl

end Anchor

structure Replacement.Swaps (r : Replacement) (x y : Text × Anchor) : Prop where
  turns : r.Turns x.1 y.1
  forth : r.moved (Document.ofText x.1) (Document.ofText y.1) x.2 = y.2
  back : r.reversed.moved (Document.ofText y.1) (Document.ofText x.1) y.2 = x.2

namespace Buffer

variable {b later : Buffer} {id : Int} {a : Anchor} {r : Replacement}

theorem movedText (sound : b.Sound) (sound' : later.Sound) (r : Replacement) :
    r.moved b.document later.document = r.moved (Document.ofText b.text) (Document.ofText later.text) := by
  have lines : ∀ d : Document, d.Sound → d.lines = (Document.ofText d.text).lines :=
    fun d sound => (Text.linesUnlines sound.nonempty sound.clean).symm
  exact Anchor.carriedLines (lines _ sound.document) (lines _ sound'.document) _ _ _

theorem worksFound (sound : b.Sound) (sound' : later.Sound) (works : r.Works b later)
    (found : b.anchors.get? id = some a) :
    later.anchors.get? id = some (r.moved (Document.ofText b.text) (Document.ofText later.text) a) := by
  rw [works.anchors, Table.getMap, found, movedText sound sound']
  rfl

theorem worksSwaps (sound : b.Sound) (sound' : later.Sound) (turns : r.Turns b.text later.text)
    (works : r.Works b later) (found : b.anchors.get? id = some a) (live : a.deleted = false)
    (clear : a.Clear b.document r.offset (r.offset + r.removed.length)) :
    ∃ a', later.anchors.get? id = some a' ∧ a'.deleted = false ∧ r.Swaps (b.text, a) (later.text, a') := by
  have spans : a.Spans b.document := sound.anchors id a (Table.memOfGet found) live
  have ordered : r.offset ≤ r.offset + r.removed.length := Nat.le_add_right _ _
  have takes := Anchor.carriedClear (t := r.inserted) sound.document live spans ordered clear
  have returns := Anchor.carriedReturns (t := r.inserted) (u := r.removed) sound.document live spans
    ordered clear (Nat.add_sub_cancel_left _ _).symm
  rw [← works.document] at takes returns
  have there := worksFound sound sound' works found
  rw [← movedText sound sound'] at there
  refine ⟨_, there, takes.deleted.trans live, turns, by rw [movedText sound sound'], ?_⟩
  -- The text taken back is the text before, and only the lines of a document move an anchor.
  have text : (later.document.spliced r.offset (r.offset + r.inserted.length) r.removed).text = b.text :=
    (Document.splicedText _ _ _ _).trans turns.reversed.made
  have lines := Document.linesOfText (Document.soundSpliced _ _ _ _) sound.document text
  have back := returns lines
  rw [Anchor.carriedLines rfl lines] at back
  rw [← movedText sound' sound]
  exact back

/- A step that goes on from where the text is: an edit within the text that is noted, or an operation other
than undo and redo. -/
def Stroke.Advances (b : Buffer) : Stroke → Prop
  | .edit e => e.recorded = true ∧ e.start ≤ e.stop ∧ e.stop ≤ b.text.length
  | .op .undo | .op .redo => False
  | .op _ => True

def Stroke.Spares (id : Int) (b : Buffer) (s : Stroke) : Prop :=
  s.Advances b ∧ ∀ r a, (s.run b).state.version ≠ b.version →
    (s.run b).state.history = b.history.push r → b.anchors.get? id = some a →
      a.Clear b.document r.offset (r.offset + r.removed.length)

theorem sparesNoted {s : Stroke} (advances : s.Advances b) (limit : 0 < b.history.limit)
    (clear : (s.run b).state.version = b.version ∨ ∀ r ∈ (s.run b).state.history.done.head?,
      ∀ a ∈ b.anchors.get? id, a.Clear b.document r.offset (r.offset + r.removed.length)) :
    s.Spares id b := by
  refine ⟨advances, fun r a changed noted found => ?_⟩
  refine clear.resolve_left changed r ?_ a found
  rw [noted, Timeline.push, Option.mem_def, List.head?_take, if_neg (Nat.ne_of_gt limit)]
  rfl

def Spares (id : Int) (b : Buffer) : List Stroke → Prop
  | [] => True
  | s :: rest => s.Spares id b ∧ Spares id (s.run b).state rest

theorem strokeAdvances (sound : b.Sound) {s : Stroke} (advances : s.Advances b) :
    (s.run b).state.Sound ∧
      (b.Untouched (s.run b).state ∨ ∃ place, b.Recorded (s.run b).state place) := by
  cases s with
  | edit e =>
    obtain ⟨recorded, ordered, inside⟩ := advances
    obtain ⟨_, -, ⟨follows, -⟩, noted⟩ :=
      Run.endsBoth (safeEdit e b sound) (editRecorded sound recorded ordered inside)
    rw [Stroke.run, Run.ignoredState]
    exact ⟨follows.sound, .inr ⟨_, noted⟩⟩
  | op o =>
    rw [Stroke.run, Run.ignoredState]
    cases o with
    | jump row col =>
      obtain ⟨sound', same⟩ := Op.jumpUntouched sound row col
      exact ⟨sound', .inl same⟩
    | move m =>
      obtain ⟨sound', same⟩ := Op.moveUntouched sound m
      exact ⟨sound', .inl same⟩
    | change c =>
      have made : Change.Made b (c.place b) (c.run b).result (c.run b).state := c.runAfter sound
      generalize (c.run b).result = answer at made
      obtain ⟨sound', noted⟩ := made
      refine ⟨sound', ?_⟩
      match answer, noted with
      | .ok true, recorded => exact .inr ⟨_, recorded⟩
      | .ok false, same => exact .inl same
      | .error _, same => exact .inl same
    | undo => exact advances.elim
    | redo => exact advances.elim

def Came : List Replacement → Text × Anchor → Text × Anchor → Prop
  | [], x, z => x = z
  | r :: past, x, z => ∃ y, Came past x y ∧ r.Swaps y z

def Goes : List Replacement → Text × Anchor → Text × Anchor → Prop
  | [], x, z => x = z
  | r :: future, x, z => ∃ y, r.Swaps x y ∧ Goes future y z

structure Trail (id : Int) (first : Text × Anchor) (origin limit : Nat) (past : List Replacement)
    (b : Buffer) : Prop where
  sound : b.Sound
  anchor : ∃ a, b.anchors.get? id = some a ∧ a.deleted = false ∧ Came past first (b.text, a)
  noted : past.take limit <+: b.history.done
  limit : b.history.limit = limit
  version : b.version = origin + past.length

theorem trailStroke {first : Text × Anchor} {origin limit : Nat} {past : List Replacement}
    (trail : Trail id first origin limit past b) {s : Stroke} (spares : s.Spares id b) :
    ∃ past, Trail id first origin limit past (s.run b).state := by
  obtain ⟨sound, ⟨a, found, live, came⟩, noted, bound, version⟩ := trail
  obtain ⟨sound', same | ⟨place, -, r, turns, -, history, works⟩⟩ := strokeAdvances sound spares.1
  · obtain ⟨document, history, anchors⟩ := same
    have text : (s.run b).state.text = b.text := congrArg Document.text document
    refine ⟨past, sound', ⟨a, by rw [anchors, found], live, by rw [text]; exact came⟩, ?_, ?_, ?_⟩
    · rwa [history]
    · rwa [history]
    · rw [← version]
      exact congrArg Document.version document
  · have next : (s.run b).state.version = b.version + 1 := congrArg Document.version works.document
    have clear := spares.2 r a (by omega) history found
    obtain ⟨a', found', live', swaps⟩ := worksSwaps sound sound' turns works found live clear
    refine ⟨r :: past, sound', ⟨a', found', live', _, came, swaps⟩, ?_, ?_, ?_⟩
    · rw [history, ← bound]
      exact Timeline.pushNoted (bound.symm ▸ noted) r
    · rw [history, ← bound]
      rfl
    · rw [next, version, List.length_cons]
      omega

theorem trailStrokes {first : Text × Anchor} {origin limit : Nat} {past : List Replacement}
    (trail : Trail id first origin limit past b) {done : List Stroke} (spares : b.Spares id done) :
    ∃ past, Trail id first origin limit past (b.strokes done) := by
  induction done generalizing b past with
  | nil => exact ⟨past, trail⟩
  | cons s rest ih =>
    obtain ⟨_, trail'⟩ := trailStroke trail spares.1
    exact ih trail' spares.2

/- On the way between two texts, with what was replaced to come here and what was undone on the way back. -/
structure Between (id : Int) (first last : Text × Anchor) (past future : List Replacement)
    (b : Buffer) : Prop where
  sound : b.Sound
  anchor : ∃ a, b.anchors.get? id = some a ∧ Came past first (b.text, a) ∧ Goes future (b.text, a) last
  done : past <+: b.history.done
  undone : future <+: b.history.undone

theorem stepBack {first last : Text × Anchor} {past future : List Replacement}
    (between : Between id first last (r :: past) future b) :
    Between id first last past (r :: future) ((Stroke.op .undo).run b).state := by
  obtain ⟨sound, ⟨a, found, ⟨⟨text, a'⟩, came, swaps⟩, goes⟩, ⟨older, taken⟩, undone⟩ := between
  obtain ⟨_, -, -, sound', whole, history, -, works⟩ := undoRewrites sound taken.symm swaps.turns
  have there := worksFound sound sound' works found
  rw [whole, swaps.back] at there
  have run : ((Stroke.op .undo).run b).state = (undo b).state := Run.ignoredState _ b
  rw [run]
  refine ⟨sound', ⟨a', there, ?_, (b.text, a), ?_, goes⟩, ?_, ?_⟩
  · rw [whole]
    exact came
  · rw [whole]
    exact swaps
  · rw [history]
    exact List.prefix_append past older
  · rw [history]
    exact (List.prefix_cons_inj r).mpr undone

theorem stepForth {first last : Text × Anchor} {past future : List Replacement}
    (between : Between id first last past (r :: future) b) :
    Between id first last (r :: past) future ((Stroke.op .redo).run b).state := by
  obtain ⟨sound, ⟨a, found, came, ⟨text, a'⟩, swaps, goes⟩, done, ⟨newer, taken⟩⟩ := between
  obtain ⟨_, -, -, sound', whole, history, works⟩ := redoRewrites sound taken.symm swaps.turns
  have there := worksFound sound sound' works found
  rw [whole, swaps.forth] at there
  have run : ((Stroke.op .redo).run b).state = (redo b).state := Run.ignoredState _ b
  rw [run]
  refine ⟨sound', ⟨a', there, ⟨(b.text, a), came, ?_⟩, ?_⟩, ?_, ?_⟩
  · rw [whole]
    exact swaps
  · rw [whole]
    exact goes
  · rw [history]
    exact (List.prefix_cons_inj r).mpr done
  · rw [history]
    exact List.prefix_append future newer

theorem allBack {first last : Text × Anchor} {past future : List Replacement}
    (between : Between id first last past future b) :
    ∃ future', future'.length = past.length + future.length ∧
      Between id first last [] future' (b.strokes (List.replicate past.length (.op .undo))) := by
  induction past generalizing b future with
  | nil => exact ⟨future, (Nat.zero_add _).symm, between⟩
  | cons r past ih =>
    obtain ⟨future', size, back⟩ := ih (stepBack between)
    exact ⟨future', by simp only [List.length_cons] at size ⊢; omega, back⟩

theorem allForth {first last : Text × Anchor} {past future : List Replacement}
    (between : Between id first last past future b) :
    ∃ past', Between id first last past' [] (b.strokes (List.replicate future.length (.op .redo))) := by
  induction future generalizing b past with
  | nil => exact ⟨past, between⟩
  | cons r future ih => exact ih (stepForth between)

/- Edits that take no character of an anchor and are not made strictly inside it, with any motions between
them. As many undos as there were edits bring back the anchor as it was, wherever the edits moved it, and as
many redos bring it where the edits had left it. -/
theorem undosBringBack {done : List Stroke} {edits : Nat} (sound : b.Sound)
    (found : b.anchors.get? id = some a) (live : a.deleted = false) (spares : b.Spares id done)
    (count : (b.strokes done).version = b.version + edits) (kept : edits ≤ b.history.limit) :
    let after := b.strokes done
    let back := after.strokes (List.replicate edits (.op .undo))
    let again := back.strokes (List.replicate edits (.op .redo))
    (back.anchors.get? id = some a ∧ back.text = b.text) ∧
      ∃ a', after.anchors.get? id = some a' ∧ a'.deleted = false ∧
        again.anchors.get? id = some a' ∧ again.text = after.text := by
  intro after back again
  have start : Trail id (b.text, a) b.version b.history.limit [] b :=
    ⟨sound, ⟨a, found, live, rfl⟩, by simp, rfl, rfl⟩
  obtain ⟨past, sound', ⟨a', found', live', came⟩, noted, -, version⟩ := trailStrokes start spares
  have size : past.length = edits := by omega
  rw [List.take_of_length_le (by omega)] at noted
  have between : Between id (b.text, a) (after.text, a') past [] after :=
    ⟨sound', ⟨a', found', came, rfl⟩, noted, List.nil_prefix⟩
  obtain ⟨future, size', between'⟩ := allBack between
  rw [size] at between' size'
  obtain ⟨past', between''⟩ := allForth between'
  rw [size', List.length_nil, Nat.add_zero] at between''
  obtain ⟨-, ⟨a₁, found₁, came₁, -⟩, -, -⟩ := between'
  obtain ⟨-, ⟨a₂, found₂, -, goes₂⟩, -, -⟩ := between''
  obtain ⟨text₁, rfl⟩ := Prod.mk.inj came₁
  obtain ⟨text₂, rfl⟩ := Prod.mk.inj goes₂
  exact ⟨⟨found₁, text₁.symm⟩, a₂, found', live', found₂, text₂⟩

theorem wordBackOnItsLine :
    let b := Buffer.ofDocument (Document.ofText "ab\nlink".toList) 2 ⟨[(1, ⟨1, 0, 4, false, false⟩)]⟩
    let done : List Stroke := [.op (.jump 1 4), .op (.change .insertNewline), .op (.jump 0 2),
      .edit { label := [], start := 2, stop := 3, text := [] }]
    (b.Sound ∧ b.Spares 1 done ∧ (b.strokes done).version = b.version + 2) ∧
      (b.strokes done).anchors.get? 1 = some ⟨0, 2, 6, false, false⟩ ∧
      ((b.strokes done).strokes [.op .undo, .op .undo]).anchors.get? 1 = some ⟨1, 0, 4, false, false⟩ := by
  intro b done
  have sound : b.Sound := ⟨Document.soundOfText _, ⟨by decide, by decide⟩, by decide⟩
  have spares : b.Spares 1 done :=
    ⟨sparesNoted trivial (by decide) (by decide), sparesNoted trivial (by decide) (by decide),
      sparesNoted trivial (by decide) (by decide),
      sparesNoted ⟨rfl, by decide, by decide⟩ (by decide) (by decide), trivial⟩
  have count : (b.strokes done).version = b.version + 2 := by decide
  have found : b.anchors.get? 1 = some ⟨1, 0, 4, false, false⟩ := rfl
  obtain ⟨⟨back, -⟩, -⟩ := undosBringBack sound found rfl spares count (by decide)
  exact ⟨⟨sound, spares, count⟩, by decide, back⟩

end Buffer

end ModalNotes
