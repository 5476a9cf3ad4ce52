import Mathlib.Data.List.Infix
import ModalNotes.Proofs.Buffer.Apart
import ModalNotes.Proofs.Editor.Lasting
import ModalNotes.Proofs.Session.Input

/-! The anchors of a session stay apart. An input changes them through edits, takes one out or draws a new
one; as long as each new one is drawn apart from the others, no position ever has two live links. -/
namespace ModalNotes

namespace AnchorTable

theorem orderedLess {t u : AnchorTable} {i j : Int}
    (less : ∀ k ∈ [i, j], ∀ a, u.get? k = some a → t.get? k = some a) (ordered : t.Ordered i j) :
    u.Ordered i j :=
  fun a b found found' => ordered a b (less i (by simp) a found) (less j (by simp) b found')

theorem erasedLess {t : AnchorTable} (id : Int) {k : Int} {a : Anchor}
    (found : (t.erase id).get? k = some a) : t.get? k = some a := by
  rw [Table.get?_erase] at found
  split at found
  · contradiction
  · exact found

end AnchorTable

theorem Editor.keyArranged {e : Editor} (sound : e.Sound) (taken : e.buffer.newAnchor = none) (name : Text)
    (modifiers : List Text) :
    Buffer.Arranged e.buffer.anchors (key name modifiers e).state.buffer ∨
      e.buffer.Draws (key name modifiers e).state.buffer := by
  have still : Buffer.Undrawn (Buffer.Arranged e.buffer.anchors) (key name modifiers e).state.buffer :=
    lastsKey (Buffer.stableLasting (Buffer.stableUndrawn (Buffer.stableArranged e.buffer.anchors))
      Buffer.waivesUndrawn) name modifiers e fun _ => Buffer.arrangedSelf sound.buffer
  have ending := keyAfter sound name modifiers
  unfold Run.After Ending at ending
  split at ending
  · rcases ending.1.turns with follows | draws
    · exact .inl (still (follows.drawn.trans taken))
    · exact .inr draws
  · refine .inl (still ?_)
    rcases ending with ⟨-, -, same⟩ | ⟨-, -, -, steady⟩
    · rw [same]
      exact taken
    · exact steady.drawn.trans taken

namespace Session

variable {s : Session}

def From (t : AnchorTable) (b : Buffer) : Prop := ∀ k a, b.anchors.get? k = some a → t.get? k = some a

theorem fromErased (t : AnchorTable) (b : Buffer) (id : Int) (held : From t b) :
    From t { b with anchors := b.anchors.erase id } :=
  fun k a found => held k a (AnchorTable.erasedLess id found)

theorem keyFrom (name : Text) (modifiers : List Text) (s : Session) :
    From (Editor.key name modifiers s.editor).state.buffer.anchors (key name modifiers s).state.buffer :=
  keyKept (P := From _) (fun _ held => held) (fromErased _) fun _ _ found => found

theorem keyOrdered (sound : s.Sound) (name : Text) (modifiers : List Text) {i j : Int}
    (old : i ∈ s.buffer.anchors.keys) (old' : j ∈ s.buffer.anchors.keys)
    (ordered : s.buffer.anchors.Ordered i j) :
    (key name modifiers s).state.buffer.anchors.Ordered i j := by
  refine AnchorTable.orderedLess (fun k _ => keyFrom name modifiers s k) ?_
  rcases Editor.keyArranged sound.editor sound.taken name modifiers with arranged | draws
  · exact arranged.order i j ordered
  · obtain ⟨a, -, -, anchors⟩ := draws.anchors
    refine AnchorTable.orderedLess (fun k member a found => ?_) ordered
    have old : k ∈ s.buffer.anchors.keys := by
      simp only [List.mem_cons, List.not_mem_nil, or_false] at member
      rcases member with rfl | rfl <;> assumption
    exact (getDrawn anchors old).symm.trans found

theorem inputOrdered (sound : s.Sound) (input : Input) {i j : Int} (old : i ∈ s.buffer.anchors.keys)
    (old' : j ∈ s.buffer.anchors.keys) (ordered : s.buffer.anchors.Ordered i j) :
    (input.run s).state.buffer.anchors.Ordered i j := by
  have less : From s.buffer.anchors (input.run s).state.buffer →
      (input.run s).state.buffer.anchors.Ordered i j :=
    fun kept => AnchorTable.orderedLess (fun k _ => kept k) ordered
  cases input with
  | key name modifiers =>
    have run : (Input.run (.key name modifiers) s).state = (key name modifiers s).state :=
      Run.ignoredState _ s
    rw [run]
    exact keyOrdered sound name modifiers old old' ordered
  | search pattern =>
    obtain ⟨_, -, -, steady, -⟩ := searchEnds sound pattern
    have run : (Input.run (.search pattern) s).state = (search pattern s).state := Run.ignoredState _ s
    exact less fun k a found => by rwa [run, steady.anchors] at found
  | attach linked =>
    obtain ⟨_, -, -, editor, -⟩ := attachLinkEnds sound linked
    have run : (Input.run (.attach linked) s).state = (attachLink linked s).state := Run.ignoredState _ s
    exact less fun k a found => by rwa [run, buffer, editor] at found
  | cancel => exact less (cancelKept (fromErased _) s fun _ _ found => found)

/- Whatever the inputs draw, it has no place in common with the other live anchors there are by then. -/
def DrawsApart (s : Session) : List Input → Prop
  | [] => True
  | input :: rest =>
    (∀ i j, i ∉ s.buffer.anchors.keys → i ≠ j → (input.run s).state.buffer.anchors.Ordered i j ∨
      (input.run s).state.buffer.anchors.Ordered j i) ∧ DrawsApart (input.run s).state rest

theorem apartAfter (sound : s.Sound) (apart : s.buffer.anchors.Apart) {inputs : List Input}
    (draws : s.DrawsApart inputs) : (s.after inputs).buffer.anchors.Apart := by
  induction inputs generalizing s with
  | nil => exact apart
  | cons input rest ih =>
    obtain ⟨first, others⟩ := draws
    refine ih (inputServed sound input).sound (fun i j differs => ?_) others
    by_cases old : i ∈ s.buffer.anchors.keys
    · by_cases old' : j ∈ s.buffer.anchors.keys
      · exact (apart i j differs).imp (inputOrdered sound input old old') (inputOrdered sound input old' old)
      · exact (first j i old' (Ne.symm differs)).symm
    · exact first i j old differs

theorem drawsApart {inputs : List Input}
    (apart : ∀ before ∈ inputs.inits, (s.after before).buffer.anchors.Apart) : s.DrawsApart inputs := by
  induction inputs generalizing s with
  | nil => trivial
  | cons input rest ih =>
    simp only [List.inits_cons, List.forall_mem_cons, List.forall_mem_map] at apart
    have first := apart.2 [] ((List.mem_inits _ _).mpr List.nil_prefix)
    exact ⟨fun i j _ differs => first i j differs, ih apart.2⟩

def LinksOnce (s : Session) : Prop :=
  ∀ p i j l l', s.links.links.get? i = some l → s.links.links.get? j = some l' → l.deleted = false →
    l'.deleted = false → l.covers p = true → l'.covers p = true → i = j

theorem coversGeometry {l : Link} {a : Anchor} {p : Point} (same : l.geometry = a.geometry) :
    l.covers p = a.covers p := by
  simp only [Link.geometry, Anchor.geometry, Prod.mk.injEq] at same
  obtain ⟨row, startCol, endCol⟩ := same
  simp only [Link.covers, Link.toAnchor, Anchor.covers, row, startCol, endCol]

theorem linksOnce (sound : s.Sound) (once : s.buffer.anchors.CoversOnce) : s.LinksOnce := by
  intro p i j l l' found found' live live' covers covers'
  obtain ⟨a, here, gone, geometry⟩ := sound.mirrors.present i l (Table.memOfGet found)
  obtain ⟨a', here', gone', geometry'⟩ := sound.mirrors.present j l' (Table.memOfGet found')
  have alive : a.deleted = false := gone.symm.trans live
  have alive' : a'.deleted = false := gone'.symm.trans live'
  refine once p i j a a' here here' alive alive' ?_ ?_
  · rw [← coversGeometry (geometry alive)]
    exact covers
  · rw [← coversGeometry (geometry' alive')]
    exact covers'

end Session

/- Anchors neither collide nor change places: not by one edit, whatever else is in the table, not by any
sequence of edits and operations on a buffer, and not in a session whose inputs draw each new anchor apart
from the others. -/
theorem anchorsStayApart :
    (∀ (b : Buffer) (e : Edit) (i j : Int) (a a' : Anchor), b.document.Sound →
      b.anchors.Reaches b.document → e.start ≤ e.stop → b.anchors.get? i = some a →
      b.anchors.get? j = some a' → a.deleted = false → a'.deleted = false → a.Spans b.document →
      a'.Spans b.document → a.Before a' →
        (Buffer.edit e).Ends b fun _ later => later.anchors.Ordered i j) ∧
    (∀ (b : Buffer) (done : List Buffer.Stroke), b.Sound → (∀ s ∈ done, s.Forward) →
      (∀ i j, b.anchors.Ordered i j → (b.strokes done).anchors.Ordered i j) ∧
      (b.anchors.Apart → (b.strokes done).anchors.Apart ∧ (b.strokes done).anchors.CoversOnce)) ∧
    ∀ (s : Session) (inputs : List Session.Input), s.Sound → s.buffer.anchors.Apart →
      s.DrawsApart inputs → (s.after inputs).buffer.anchors.Apart ∧
        (s.after inputs).buffer.anchors.CoversOnce ∧ (s.after inputs).LinksOnce := by
  refine ⟨?_, ?_, ?_⟩
  · intro b e i j a a' sound reach le found found' live live' spans spans' before
    refine Buffer.editOrdered sound reach le ?_ ?_ ?_
    · intro c here
      cases found.symm.trans here
      exact fun _ => spans
    · intro c here
      cases found'.symm.trans here
      exact fun _ => spans'
    · intro c c' here here' _ _
      cases found.symm.trans here
      cases found'.symm.trans here'
      exact before
  · intro b done sound forward
    have arranged := Buffer.stableStrokes (Buffer.stableArranged b.anchors) forward
      (Buffer.arrangedSelf sound)
    refine ⟨arranged.order, fun apart => ?_⟩
    have apart' := arranged.apart apart
    exact ⟨apart', AnchorTable.apartCoversOnce apart'⟩
  · intro s inputs sound apart draws
    have apart' := Session.apartAfter sound apart draws
    have once := AnchorTable.apartCoversOnce apart'
    exact ⟨apart', once, Session.linksOnce (Session.afterSound sound inputs) once⟩

/- A note with two words as links, beside each other. The first is cut short, and the letter behind both is linked. -/
def neighbours : Session := Session.reopened 1 ['n'] "abcde".toList [⟨1, 1, 0, 0, 2, 5⟩, ⟨1, 2, 0, 2, 4, 6⟩] 10

def shortening : List Session.Input := [
  .search (some ['b']), .key ['x'] [], .search (some ['e']), .key ['v'] [], .key ['l'] ["ctrl".toList], .attach 7]

theorem neighboursStayApart :
    let b := Buffer.ofDocument (Document.ofText "abcd".toList) 10
      ⟨[(1, ⟨0, 0, 2, false, false⟩), (2, ⟨0, 2, 4, false, false⟩)]⟩
    let e : Edit := { label := [], start := 1, stop := 3, text := "x\ny".toList }
    (b.Sound ∧ b.anchors.Apart ∧ neighbours.Sound ∧ neighbours.buffer.anchors.Apart ∧
        neighbours.DrawsApart shortening) ∧
      ((Buffer.edit e).Ends b fun _ later => later.anchors.Ordered 1 2) ∧
      (b.strokes [.edit e, .op .undo]).anchors.CoversOnce ∧
      (neighbours.after shortening).text = "acde".toList ∧
      (neighbours.after shortening).links.live.map Link.geometry = [(0, 0, 1), (0, 1, 3), (0, 3, 4)] ∧
      (neighbours.after shortening).LinksOnce := by
  intro b e
  obtain ⟨oneEdit, through, session⟩ := anchorsStayApart
  have fits : b.anchors.Fits b.document := by decide
  have sound : b.Sound := ⟨Document.soundOfText _, ⟨by decide, by decide⟩, fits⟩
  have apart : b.anchors.Apart := AnchorTable.apartPairwise (by decide)
  have rows : LinkRow.Stored 1 "abcde".toList [⟨1, 1, 0, 0, 2, 5⟩, ⟨1, 2, 0, 2, 4, 6⟩] := by decide
  have sound' : neighbours.Sound := Session.reopenedSound rows 10
  have evaluated : (∀ before ∈ shortening.inits, (neighbours.after before).buffer.anchors.entries.Pairwise
        fun e f => e.2.Before f.2 ∨ f.2.Before e.2) ∧
      (neighbours.after shortening).text = "acde".toList ∧
      (neighbours.after shortening).links.live.map Link.geometry = [(0, 0, 1), (0, 1, 3), (0, 3, 4)] := by
    rw [neighbours, Session.reopened, Keymap.standardTables]
    decide +kernel
  obtain ⟨pairwise, text, links⟩ := evaluated
  have draws : neighbours.DrawsApart shortening :=
    Session.drawsApart fun before member => AnchorTable.apartPairwise (pairwise before member)
  have apart' : neighbours.buffer.anchors.Apart :=
    AnchorTable.apartPairwise (pairwise [] ((List.mem_inits _ _).mpr List.nil_prefix))
  refine ⟨⟨sound, apart, sound', apart', draws⟩, ?_, ?_, text, links, ?_⟩
  · exact oneEdit b e 1 2 _ _ sound.document (AnchorTable.fitsReaches fits) (by decide) rfl rfl rfl rfl
      (by decide) (by decide) (by decide)
  · refine ((through b [.edit e, .op .undo] sound ?_).2 apart).2
    intro stroke member e' same
    rcases List.mem_cons.mp member with rfl | member
    · cases same
      decide
    · cases List.mem_singleton.mp member
      exact nomatch same
  · exact (session neighbours shortening sound' apart' draws).2.2

end ModalNotes
