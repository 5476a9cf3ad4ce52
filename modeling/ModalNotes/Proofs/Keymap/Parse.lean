import Mathlib.Data.List.Sort
import Mathlib.Data.List.TakeWhile
import ModalNotes.Proofs.Keymap.Stroke

/-! Strokes read back from their tokens. However its modifiers are spelt, a stroke is the same one, and its
token is read as that stroke, except where a plus has one modifier: both plusses are then part of the key. -/
namespace ModalNotes

namespace Text

def Plain (w : Text) : Prop :=
  w ≠ [] ∧ ∀ c ∈ w, c.toNat < 128 ∧ c.isUpper = false ∧ isBlank c = false ∧ c ≠ '+'

instance (w : Text) : Decidable (Plain w) := @instDecidableAnd _ _ inferInstance (List.decidableBAll _ w)

def Spells (m w : Text) : Prop :=
  ∃ before core after, m = before ++ core ++ after ∧ core.lower = w ∧
    ∀ c ∈ before ++ after, isBlank c = true

/- Modifiers that spell these words, each at least once; some may be nothing but blanks. -/
structure Spelling (given words : List Text) : Prop where
  only : ∀ m ∈ given, (∀ c ∈ m, isBlank c = true) ∨ ∃ w ∈ words, Spells m w
  each : ∀ w ∈ words, ∃ m ∈ given, Spells m w

theorem Spelling.inOrder {given words : List Text} (spelt : List.Forall₂ Spells given words) :
    Spelling given words := by
  induction spelt with
  | nil => exact ⟨by simp, by simp⟩
  | cons first _ rest =>
    constructor
    · exact List.forall_mem_cons.mpr ⟨.inr ⟨_, List.mem_cons_self, first⟩, fun m member =>
        (rest.only m member).imp_right fun ⟨w, inside, spells⟩ => ⟨w, List.mem_cons_of_mem _ inside, spells⟩⟩
    · exact List.forall_mem_cons.mpr ⟨⟨_, List.mem_cons_self, first⟩, fun w member =>
        have ⟨m, inside, spells⟩ := rest.each w member
        ⟨m, List.mem_cons_of_mem _ inside, spells⟩⟩

theorem lowOutside (low high : Nat) {c : Char} (apart : ∀ r ∈ lowered, r.misses low high 1 = true)
    (above : low ≤ c.toNat) (below : c.toNat ≤ high) : isLow c = true := by
  refine lowFree fun r member => ?_
  obtain ⟨k, place⟩ := Nat.exists_eq_add_of_le above
  rw [place] at below ⊢
  simpa using CaseRun.missed (k := k) (apart r member) (by omega)

theorem lowBlank {c : Char} (blank : isBlank c = true) : isLow c = true := by
  obtain ⟨range, member, above, below⟩ := exists_of_inRanges blank
  have apart : ∀ b ∈ blankRanges, ∀ r ∈ lowered, r.misses b.1 b.2 1 = true := by decide +kernel
  exact lowOutside _ _ (apart range member) above below

theorem lowAscii {c : Char} (ascii : c.toNat < 128) (small : c.isUpper = false) : isLow c = true := by
  have outside : ¬ (65 ≤ c.toNat ∧ c.toNat ≤ 90) := by
    have apart := of_decide_eq_false small
    rw [ge_iff_le, UInt32.le_iff_toNat_le, UInt32.le_iff_toNat_le] at apart
    exact apart
  rcases Nat.lt_or_ge c.toNat 65 with below | above
  · exact lowOutside 0 64 (by decide +kernel) (by omega) (by omega)
  · exact lowOutside 91 127 (by decide +kernel) (by omega) (by omega)

theorem lowerKeeps {s : Text} {c : Char} (low : isLow c = true) (member : c ∈ s) (seen : Text) :
    c ∈ lowerAfter seen s := by
  induction s generalizing seen with
  | nil => contradiction
  | cons d rest ih =>
    rw [lowerAfter]
    rcases List.mem_cons.mp member with rfl | later
    · simp only [isLow, Bool.and_eq_true, beq_iff_eq, bne_iff_ne] at low
      rw [if_neg low.2, low.1]
      exact List.mem_append_left _ (List.mem_singleton_self c)
    · exact List.mem_append_right _ (ih later (d :: seen))

theorem Plain.low {w : Text} (plain : Plain w) : w.lower = w :=
  lowerAfterLow [] fun c member => lowAscii (plain.2 c member).1 (plain.2 c member).2.1

theorem dropUntil {p : Char → Bool} {before core : Text} (dropped : ∀ c ∈ before, p c = true)
    (kept : ∀ c ∈ core, p c = false) (written : core ≠ []) (after : Text) :
    (before ++ core ++ after).dropWhile p = core ++ after := by
  obtain ⟨c, rest, rfl⟩ := List.exists_cons_of_ne_nil written
  rw [List.append_assoc, List.dropWhile_append_of_pos dropped, List.cons_append,
    List.dropWhile_cons_of_neg (by simp [kept c List.mem_cons_self])]

theorem stripBetween {before core after : Text} (blank : ∀ c ∈ before ++ after, isBlank c = true)
    (solid : ∀ c ∈ core, isBlank c = false) (written : core ≠ []) :
    strip (before ++ core ++ after) = core := by
  have blankBefore : ∀ c ∈ before, isBlank c = true := fun c member =>
    blank c (List.mem_append_left after member)
  have blankAfter : ∀ c ∈ after.reverse, isBlank c = true := fun c member =>
    blank c (List.mem_append_right before (List.mem_reverse.mp member))
  have solidBack : ∀ c ∈ core.reverse, isBlank c = false := fun c member => solid c (List.mem_reverse.mp member)
  have front := dropUntil blankBefore solid written after
  have back := dropUntil blankAfter solidBack (by simpa using written) []
  rw [List.append_nil, List.append_nil] at back
  rw [strip, stripLeft, front, stripRight, List.reverse_append, back, List.reverse_reverse]

theorem Spells.cleaned {m w : Text} (spells : Spells m w) (plain : Plain w) :
    m.strip ≠ [] ∧ m.strip.lower = w := by
  obtain ⟨before, core, after, rfl, lower, blank⟩ := spells
  have written : core ≠ [] := by
    rintro rfl
    exact plain.1 lower.symm
  have solid : ∀ c ∈ core, isBlank c = false := by
    refine fun c member => Bool.eq_false_iff.mpr fun blank' => ?_
    have inside : c ∈ w := lower ▸ lowerKeeps (lowBlank blank') member []
    exact Bool.false_ne_true ((plain.2 c inside).2.2.1.symm.trans blank')
  rw [stripBetween blank solid written]
  exact ⟨written, lower⟩

theorem Plain.self {w : Text} (plain : Plain w) : Spells w w :=
  ⟨[], w, [], by simp, plain.low, by simp⟩

theorem stripBlank {s : Text} (blank : ∀ c ∈ s, isBlank c = true) : s.strip = [] := by
  simp [strip, stripLeft, stripRight, List.dropWhile_eq_nil_iff.mpr blank]

theorem eraseDupsNodup (words : List Text) : words.eraseDups.Nodup := by
  match words with
  | [] => exact List.nodup_nil
  | w :: rest =>
    have shorter := List.length_filter_le (fun v => !v == w) rest
    rw [List.eraseDups_cons, List.nodup_cons]
    exact ⟨by simp [List.mem_eraseDups], eraseDupsNodup (rest.filter fun v => !v == w)⟩
termination_by words.length
decreasing_by exact Nat.lt_succ_of_le shorter

theorem atMostTotal (s t : Text) : (atMost s t || atMost t s) = true := by
  induction s generalizing t with
  | nil => simp [atMost]
  | cons a s ih =>
    cases t with
    | nil => simp [atMost]
    | cons b t =>
      simp only [atMost, Bool.or_eq_true, decide_eq_true_eq, Bool.and_eq_true, beq_iff_eq] at ih ⊢
      rcases Nat.lt_trichotomy a.toNat b.toNat with less | same | more
      · exact .inl (.inl less)
      · have equal := Char.toNat_inj.mp same
        exact (ih t).imp (fun h => .inr ⟨equal, h⟩) fun h => .inr ⟨equal.symm, h⟩
      · exact .inr (.inl more)

theorem atMostTrans (s t u : Text) (first : atMost s t = true) (second : atMost t u = true) :
    atMost s u = true := by
  induction s generalizing t u with
  | nil => rfl
  | cons a s ih =>
    match t, u with
    | b :: t, c :: u =>
      simp only [atMost, Bool.or_eq_true, decide_eq_true_eq, Bool.and_eq_true, beq_iff_eq] at first second ⊢
      rcases first with less | ⟨rfl, first⟩
      · rcases second with less' | ⟨rfl, -⟩
        · exact .inl (by omega)
        · exact .inl less
      · exact second.imp_right fun ⟨same, second⟩ => ⟨same, ih t u first second⟩

theorem atMostAntisymm {s t : Text} (first : atMost s t = true) (second : atMost t s = true) : s = t := by
  induction s generalizing t with
  | nil =>
    cases t with
    | nil => rfl
    | cons b t => contradiction
  | cons a s ih =>
    match t with
    | b :: t =>
      simp only [atMost, Bool.or_eq_true, decide_eq_true_eq, Bool.and_eq_true, beq_iff_eq] at first second
      rcases first with less | ⟨rfl, first⟩
      · rcases second with more | ⟨rfl, -⟩ <;> omega
      · rw [ih first (second.resolve_left (Nat.lt_irrefl _)).2]

theorem sortSame {xs ys : List Text} (perm : xs.Perm ys) : xs.mergeSort atMost = ys.mergeSort atMost := by
  have ordered : ∀ zs : List Text, (zs.mergeSort atMost).Pairwise fun s t => atMost s t = true :=
    List.pairwise_mergeSort atMostTrans atMostTotal
  have sorted := (List.mergeSort_perm xs atMost).trans (perm.trans (List.mergeSort_perm ys atMost).symm)
  exact sorted.eq_of_pairwise (fun _ _ _ _ => atMostAntisymm) (ordered xs) (ordered ys)

end Text

namespace Stroke

def wordsOf (given : List Text) : List Text := ((given.map Text.strip).filter (!·.isEmpty)).map Text.lower

def arranged (words : List Text) : List Text :=
  modifierOrder.filter (words.contains ·) ++
    (words.eraseDups.filter (!modifierOrder.contains ·)).mergeSort Text.atMost

theorem normalizeArranges (given : List Text) : normalize given = arranged (wordsOf given) := rfl

theorem normalizeNil : normalize [] = [] := by simp [normalize]

theorem wordsOfMem {given : List Text} {w : Text} :
    w ∈ wordsOf given ↔ ∃ m ∈ given, m.strip ≠ [] ∧ m.strip.lower = w := by
  simp [wordsOf, and_assoc]

theorem arrangedMem {words : List Text} {w : Text} : w ∈ arranged words ↔ w ∈ words := by
  by_cases named : w ∈ modifierOrder <;> simp [arranged, List.mem_mergeSort, List.mem_eraseDups, named]

theorem arrangedNodup (words : List Text) : (arranged words).Nodup := by
  have order : modifierOrder.Nodup := by decide
  refine List.Nodup.append (order.filter _) ?_ ?_
  · exact (List.mergeSort_perm _ _).nodup_iff.mpr ((Text.eraseDupsNodup words).filter _)
  · intro w first second
    simp_all [List.mem_mergeSort]

theorem arrangedSame {xs ys : List Text} (same : ∀ w, w ∈ xs ↔ w ∈ ys) : arranged xs = arranged ys := by
  have named : (xs.contains · : Text → Bool) = (ys.contains ·) := by
    funext w
    exact Bool.eq_iff_iff.mpr (by simpa using same w)
  have others : xs.eraseDups.Perm ys.eraseDups :=
    (List.perm_ext_iff_of_nodup (Text.eraseDupsNodup xs) (Text.eraseDupsNodup ys)).mpr fun w => by
      simpa [List.mem_eraseDups] using same w
  rw [arranged, arranged, named, Text.sortSame (others.filter _)]

theorem normalizeSpelt {given words : List Text} (plain : ∀ w ∈ words, Text.Plain w)
    (spelling : Text.Spelling given words) : normalize given = arranged words := by
  rw [normalizeArranges]
  refine arrangedSame fun w => wordsOfMem.trans ⟨?_, fun member => ?_⟩
  · rintro ⟨m, member, written, rfl⟩
    rcases spelling.only m member with blank | ⟨w, inside, spells⟩
    · exact absurd (Text.stripBlank blank) written
    · exact (spells.cleaned (plain w inside)).2 ▸ inside
  · obtain ⟨m, inside, spells⟩ := spelling.each w member
    exact ⟨m, inside, spells.cleaned (plain w member)⟩

theorem normalizeWords {words given : List Text} (plain : ∀ w ∈ words, Text.Plain w)
    (only : ∀ m ∈ given, m = [] ∨ m ∈ words) (each : ∀ w ∈ words, w ∈ given) :
    normalize given = arranged words := by
  have spelt : ∀ w ∈ words, ∃ m ∈ given, Text.Spells m w := fun w member =>
    ⟨w, each w member, (plain w member).self⟩
  refine normalizeSpelt plain ⟨fun m member => ?_, spelt⟩
  rcases only m member with rfl | inside
  · exact .inl fun c member => absurd member List.not_mem_nil
  · exact .inr ⟨m, inside, (plain m inside).self⟩

theorem separatesBefore (front : Text) {word : Text} (written : word ≠ []) (clean : '+' ∉ word) (n : Nat) :
    separates (front ++ word ++ List.replicate n '+') = front.contains '+' := by
  have solid : ∀ c ∈ word.reverse, (c == '+') = false := fun c member =>
    beq_eq_false_iff_ne.mpr (ne_of_mem_of_not_mem (List.mem_reverse.mp member) clean)
  have plusses : ∀ c ∈ (List.replicate n '+').reverse, (c == '+') = true := by simp
  have rest := Text.dropUntil plusses solid (by simpa using written) front.reverse
  have whole : ((front ++ word ++ List.replicate n '+').reverse.dropWhile (· == '+')).contains '+' =
      front.contains '+' := by
    rw [List.reverse_append, List.reverse_append, ← List.append_assoc, rest]
    simp [clean]
  rw [separates, whole]
  by_cases inside : '+' ∈ front
  · have long : 0 < word.length := List.length_pos_iff.mpr written
    have long' : 0 < front.length := List.length_pos_of_mem inside
    simp [inside]
    omega
  · simp [inside]

theorem plusBehind (pieces : List Text) : (pieces.flatMap (· ++ ['+'])).contains '+' = !pieces.isEmpty := by
  cases pieces <;> simp

section

variable {s : Stroke} (clean : ∀ m ∈ s.modifiers, m ≠ [] ∧ '+' ∉ m)
  (keyed : s.key = ['+'] ∨ s.key ≠ [] ∧ '+' ∉ s.key)
include clean keyed

theorem separatesToken :
    separates s.token = true ↔ s.modifiers ≠ [] ∧ ¬ (s.key = ['+'] ∧ s.modifiers.length = 1) := by
  rw [tokenWritten]
  rcases keyed with plus | ⟨written, bare⟩
  · rcases List.eq_nil_or_concat s.modifiers with none | ⟨others, last, parts⟩
    · rw [none, plus]
      simp [separates]
    · have last' := clean last (by simp [parts])
      have split := separatesBefore (others.flatMap (· ++ ['+'])) last'.1 last'.2 2
      have token : s.modifiers.flatMap (· ++ ['+']) ++ s.key =
          others.flatMap (· ++ ['+']) ++ last ++ List.replicate 2 '+' := by
        simp [parts, plus, List.replicate]
      rw [token, split, plusBehind, parts, plus]
      cases others <;> simp
  · have split := separatesBefore (s.modifiers.flatMap (· ++ ['+'])) written bare 0
    have other : s.key ≠ ['+'] := fun same => bare (by simp [same])
    rw [List.replicate_zero, List.append_nil] at split
    rw [split, plusBehind]
    simp [other]

theorem parseSeparated (apart : separates s.token = true) : ∃ given, parse s.token = make s.key given ∧
    (∀ m ∈ given, m = [] ∨ m ∈ s.modifiers) ∧ ∀ m ∈ s.modifiers, m ∈ given := by
  have pieces : Text.splitOn '+' s.token = s.modifiers ++ Text.splitOn '+' s.key := by
    rw [tokenWritten]
    exact Text.splitOnBehind (fun m member => (clean m member).2) s.key
  rw [parse, if_pos apart, pieces]
  rcases keyed with plus | ⟨written, bare⟩
  · refine ⟨s.modifiers ++ [[]], ?_, ?_, fun m member => List.mem_append_left _ member⟩
    · have halves : Text.splitOn '+' ['+'] = [[]] ++ [[]] := rfl
      rw [plus, halves, ← List.append_assoc]
      simp
    · intro m member
      simpa [or_comm] using member
  · have whole : Text.splitOn '+' s.key = [s.key] := by
      simpa using Text.splitOnAppend (s := []) bare rfl
    refine ⟨s.modifiers, ?_, fun m member => .inr member, fun m member => member⟩
    rw [whole]
    simp [written]

end

theorem makeKey {key : Text} (written : key ≠ []) (given : List Text) :
    make key given = .ok ⟨key, normalize given⟩ :=
  if_neg (by simpa using written)

theorem parseTogether {token : Text} (written : token ≠ []) (together : ¬ separates token = true) :
    parse token = .ok ⟨token, []⟩ := by
  rw [parse, if_neg together, makeKey written, normalizeNil]

/- However its modifiers are spelt, a stroke is the same and is read from its token, but for a plus with a
single modifier: read from its token, that is a key without modifiers. -/
theorem parseUndoesToken {key : Text} {words : List Text} (keyed : key = ['+'] ∨ key ≠ [] ∧ '+' ∉ key)
    (plain : ∀ w ∈ words, Text.Plain w) :
    ∃ s : Stroke, s.key = key ∧ s.modifiers.Nodup ∧ (∀ m, m ∈ s.modifiers ↔ m ∈ words) ∧
      (∀ given, Text.Spelling given words → make key given = .ok s) ∧
      parse s.token = if key = ['+'] ∧ s.modifiers.length = 1 then .ok ⟨s.token, []⟩ else .ok s := by
  have written : key ≠ [] := by
    rcases keyed with rfl | ⟨written, -⟩
    · exact List.cons_ne_nil _ _
    · exact written
  have clean : ∀ m ∈ arranged words, m ≠ [] ∧ '+' ∉ m := by
    intro m member
    obtain ⟨present, each⟩ := plain m (arrangedMem.mp member)
    exact ⟨present, fun plus => (each _ plus).2.2.2 rfl⟩
  have apart := separatesToken (s := ⟨key, arranged words⟩) clean keyed
  have token : Stroke.token ⟨key, arranged words⟩ ≠ [] := by
    rw [tokenWritten]
    exact List.append_ne_nil_of_right_ne_nil _ written
  refine ⟨⟨key, arranged words⟩, rfl, arrangedNodup words, fun _ => arrangedMem, fun given spelt => ?_, ?_⟩
  · rw [makeKey written, normalizeSpelt plain spelt]
  · split
    · rename_i lone
      exact parseTogether token fun separates => (apart.mp separates).2 lone
    · rename_i many
      by_cases bare : arranged words = []
      · rw [parseTogether token fun separates => (apart.mp separates).1 bare, bare]
        rfl
      · obtain ⟨given, read, only, each⟩ :=
          parseSeparated (s := ⟨key, arranged words⟩) clean keyed (apart.mpr ⟨bare, many⟩)
        have same := normalizeWords plain (fun m member => (only m member).imp_right arrangedMem.mp)
          fun w member => each w (arrangedMem.mpr member)
        rw [read, makeKey written, same]

def shiftThenCtrl : List Text := [" Shift".toList, "CTRL ".toList, "shift".toList]

theorem plusWithShift :
    make ['+'] shiftThenCtrl = .ok ⟨['+'], ["ctrl".toList, "shift".toList]⟩ ∧
      parse "ctrl+shift++".toList = .ok ⟨['+'], ["ctrl".toList, "shift".toList]⟩ ∧
      make ['+'] ["ctrl".toList] = .ok ⟨['+'], ["ctrl".toList]⟩ ∧
      parse "ctrl++".toList = .ok ⟨"ctrl++".toList, []⟩ := by
  have blank : ∀ c ∈ [' '], Text.isBlank c = true := List.forall_mem_singleton.mpr (by decide)
  have shift : Text.Spells " Shift".toList "shift".toList :=
    ⟨[' '], "Shift".toList, [], rfl, by decide +kernel, blank⟩
  have ctrl : Text.Spells "CTRL ".toList "ctrl".toList :=
    ⟨[], "CTRL".toList, [' '], rfl, by decide +kernel, blank⟩
  have plain : ∀ w ∈ ["shift".toList, "ctrl".toList, "shift".toList], Text.Plain w := by decide +kernel
  have plain' : ∀ w ∈ ["ctrl".toList], Text.Plain w := by decide +kernel
  have both : Text.Spelling shiftThenCtrl ["shift".toList, "ctrl".toList, "shift".toList] :=
    .inOrder (.cons shift (.cons ctrl (.cons (plain _ List.mem_cons_self).self .nil)))
  have one : Text.Spelling ["ctrl".toList] ["ctrl".toList] :=
    .inOrder (.cons (plain' _ List.mem_cons_self).self .nil)
  obtain ⟨s, -, -, -, made, read⟩ := parseUndoesToken (.inl rfl) plain
  obtain ⟨t, -, -, -, made', read'⟩ := parseUndoesToken (.inl rfl) plain'
  have order : normalize shiftThenCtrl = ["ctrl".toList, "shift".toList] := by decide +kernel
  have alone : normalize ["ctrl".toList] = ["ctrl".toList] := by decide +kernel
  have first : make ['+'] shiftThenCtrl = .ok ⟨['+'], ["ctrl".toList, "shift".toList]⟩ := by
    rw [makeKey (List.cons_ne_nil _ _), order]
  have second : make ['+'] ["ctrl".toList] = .ok ⟨['+'], ["ctrl".toList]⟩ := by
    rw [makeKey (List.cons_ne_nil _ _), alone]
  cases (made _ both).symm.trans first
  cases (made' _ one).symm.trans second
  exact ⟨first, read, second, read'⟩

end Stroke

end ModalNotes
