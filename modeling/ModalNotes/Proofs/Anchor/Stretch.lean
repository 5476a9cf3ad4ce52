import ModalNotes.Proofs.Anchor.Carry

/-! Anchors around a place where characters come and go. One that ends there stays, one that begins there is
moved, and one around it is stretched, as long as no line end comes into it. Taking the characters out again,
one by one from the last, brings each back to where it was. -/
namespace ModalNotes

namespace Anchor

variable {a moved : Anchor} {d d' : Document} {start stop : Nat} {t : Text}

theorem remainsClean (sound : d.Sound) (h : a.Spans d) (reached : ¬ a.Clear d start stop) (clean : '\n' ∉ t) :
    '\n' ∉ a.remains d start stop t := by
  simp only [Clear, not_or] at reached
  simp only [remains, List.mem_append, not_or]
  refine ⟨?_, ?_, ?_⟩
  · split
    · rename_i ahead
      exact partClean sound h (Nat.le_refl _) (Nat.le_of_lt ahead) (by omega)
    · exact List.not_mem_nil
  · split
    · exact clean
    · exact List.not_mem_nil
  · split
    · rename_i behind
      exact partClean sound h (by omega) (Nat.le_of_lt behind) (Nat.le_refl _)
    · exact List.not_mem_nil

theorem carriedWhole (sound : d.Sound) (live : a.deleted = false) (h : a.Spans d) (ordered : start ≤ stop)
    (spared : ¬ (start ≤ a.first d ∧ a.last d ≤ stop)) (plain : a.Clear d start stop ∨ '\n' ∉ t) :
    let moved := carried d (d.spliced start stop t) start stop t.length a
    moved.deleted = false ∧ moved.Spans (d.spliced start stop t) ∧
      moved.first (d.spliced start stop t) = a.firstKept d start stop t ∧
      moved.last (d.spliced start stop t) = a.lastKept d start stop t := by
  have ascends := firstLtLast h
  by_cases clear : a.Clear d start stop
  · have takes := carriedClear (t := t) sound live h ordered clear
    refine ⟨takes.deleted.trans live, takes.spans, takes.first, ?_⟩
    rw [takesLast sound h takes, firstKeptClear h clear, lastKept]
    unfold Clear at clear
    repeat' split
    all_goals omega
  · have takes := carriedCut (t := t) sound live h ordered clear spared
    have piece := remainsPlaced (t := t) h ordered clear spared
    have climbs := keptAscends (t := t) ordered clear spared
    have clean := remainsClean sound h clear (plain.resolve_left clear)
    refine ⟨takes.deleted.trans live, takes.spans, takes.first, ?_⟩
    have inside : a.lastKept d start stop t ≤ (d.spliced start stop t).text.length := by
      have last := lastLe h
      simp only [Clear, not_or] at clear
      rw [Document.splicedLength (by omega), lastKept, if_neg clear.2]
      split <;> omega
    rw [takes.last, Text.firstLineSelf clean, ← piece, Text.betweenLength inside]
    omega

structure Stretched (a : Anchor) (d : Document) (p k : Nat) (moved : Anchor) (d' : Document) : Prop where
  live : moved.deleted = false
  spans : moved.Spans d'
  first : moved.first d' = if p ≤ a.first d then a.first d + k else a.first d
  last : moved.last d' = if a.last d ≤ p then a.last d else a.last d + k

variable {p k : Nat}

theorem stretchedNone (live : a.deleted = false) (h : a.Spans d) : Stretched a d p 0 a d :=
  ⟨live, h, (ite_self _).symm, (ite_self _).symm⟩

theorem Stretched.grown (stretched : Stretched a d p k moved d') (sound : d'.Sound) (h : a.Spans d)
    (plain : a.Clear d p p ∨ '\n' ∉ t) :
    Stretched a d p (k + t.length)
      (carried d' (d'.spliced (p + k) (p + k) t) (p + k : Nat) (p + k : Nat) t.length moved)
      (d'.spliced (p + k) (p + k) t) := by
  obtain ⟨live, spans, first, last⟩ := stretched
  have ascends := firstLtLast h
  have plain' : moved.Clear d' (p + k) (p + k) ∨ '\n' ∉ t := by
    refine plain.imp_left fun clear => ?_
    unfold Clear at clear ⊢
    rw [first, last]
    split <;> split <;> omega
  have spared : ¬ (p + k ≤ moved.first d' ∧ moved.last d' ≤ p + k) := by
    have ascends' := firstLtLast spans
    omega
  obtain ⟨live', spans', first', last'⟩ :=
    carriedWhole (t := t) sound live spans (Nat.le_refl _) spared plain'
  refine ⟨live', spans', ?_, ?_⟩
  · rw [first', firstKept, first]
    repeat' split
    all_goals omega
  · rw [last', lastKept, last]
    repeat' split
    all_goals omega

theorem Stretched.shrunk (stretched : Stretched a d p (k + 1) moved d') (sound : d'.Sound) (h : a.Spans d) :
    Stretched a d p k
      (carried d' (d'.spliced (p + k) (p + k + 1) []) (p + k : Nat) (p + k + 1 : Nat) ([] : Text).length moved)
      (d'.spliced (p + k) (p + k + 1) []) := by
  obtain ⟨live, spans, first, last⟩ := stretched
  have ascends := firstLtLast h
  have spared : ¬ (p + k ≤ moved.first d' ∧ moved.last d' ≤ p + k + 1) := by
    rw [first, last]
    split <;> split <;> omega
  obtain ⟨live', spans', first', last'⟩ :=
    carriedWhole (t := []) sound live spans (Nat.le_succ _) spared (.inr List.not_mem_nil)
  refine ⟨live', spans', ?_, ?_⟩
  · rw [first', firstKept, first, List.length_nil]
    repeat' split
    all_goals omega
  · rw [last', lastKept, last, List.length_nil]
    repeat' split
    all_goals omega

theorem Stretched.geometry (stretched : Stretched a d p 0 moved d') (h : a.Spans d)
    (lines : d'.lines = d.lines) : moved.geometry = a.geometry := by
  obtain ⟨-, spans, first, last⟩ := stretched
  rw [Nat.add_zero, ite_self, firstLines moved lines] at first
  rw [Nat.add_zero, ite_self, lastLines moved lines] at last
  exact geometryOfEnds (spansLines spans lines.symm) h first last

end Anchor

end ModalNotes
