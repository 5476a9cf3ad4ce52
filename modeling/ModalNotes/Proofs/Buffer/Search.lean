import ModalNotes.Buffer.Find
import ModalNotes.Proofs.Buffer.Basic
import ModalNotes.Proofs.Offset

/-! Searches go from place to place of the pattern, round the ends of the text. A search forward and a search
back differ in the order of the places only, so what holds of the next place in one order holds of the place
before in the other. -/
namespace ModalNotes

section
variable {α β : Type} {before : α → α → Prop} {here : α → Prop} {c t t' : α}

def NextPlace (before : α → α → Prop) (here : α → Prop) (c target : α) : Prop :=
  here target ∧
    (before c target ∧ (∀ p, here p → before c p → p = target ∨ before target p) ∨
      (∀ p, here p → ¬ before c p) ∧ ∀ p, here p → p = target ∨ before target p)

theorem nextPlaceUnique (asymm : ∀ a b, before a b → ¬ before b a) (h : NextPlace before here c t)
    (h' : NextPlace before here c t') : t = t' := by
  have least : (t' = t ∨ before t t') → (t = t' ∨ before t' t) → t = t' := by
    intro first second
    rcases first with same | ahead
    · exact same.symm
    · exact second.resolve_right (asymm _ _ ahead)
  obtain ⟨at_t, later | none⟩ := h
  · obtain ⟨at_t', later' | none'⟩ := h'
    · exact least (later.2 t' at_t' later'.1) (later'.2 t at_t later.1)
    · exact absurd later.1 (none'.1 t at_t)
  · obtain ⟨at_t', later' | none'⟩ := h'
    · exact absurd later'.1 (none.1 t' at_t')
    · exact least (none.2 t' at_t') (none'.2 t at_t)

theorem nextPlaceBack (asymm : ∀ a b, before a b → ¬ before b a)
    (total : ∀ a b, before a b ∨ a = b ∨ before b a) (stands : here c) (h : NextPlace before here c t) :
    NextPlace (fun a b => before b a) here t c := by
  obtain ⟨-, ⟨ahead, first⟩ | ⟨last, first⟩⟩ := h
  · refine ⟨stands, .inl ⟨ahead, fun p at_p earlier => ?_⟩⟩
    rcases total c p with between | same | less
    · rcases first p at_p between with same | past
      · subst same
        exact absurd earlier (asymm _ _ earlier)
      · exact absurd past (asymm _ _ earlier)
    · exact .inl same.symm
    · exact .inr less
  · refine ⟨stands, .inr ⟨fun p at_p earlier => ?_, fun p at_p => ?_⟩⟩
    · rcases first p at_p with same | past
      · subst same
        exact asymm _ _ earlier earlier
      · exact asymm _ _ earlier past
    · rcases total c p with past | same | less
      · exact absurd past (last p at_p)
      · exact .inl same.symm
      · exact .inr less

theorem nextPlaceNumbered (held : α → Prop) (number : α → β) {less : β → β → Prop} {numbers : β → Prop}
    (order : ∀ a b, held a → held b → (before a b ↔ less (number a) (number b)))
    (apart : ∀ a b, held a → held b → number a = number b → a = b)
    (places : ∀ p, here p ↔ held p ∧ numbers (number p)) (from_c : held c) (to_t : held t)
    (h : NextPlace less numbers (number c) (number t)) : NextPlace before here c t := by
  have onward : ∀ p, here p → (number p = number t ∨ less (number t) (number p)) →
      p = t ∨ before t p := by
    intro p at_p
    have held_p := ((places p).mp at_p).1
    exact Or.imp (apart p t held_p to_t) (order t p to_t held_p).mpr
  obtain ⟨at_t, ⟨ahead, first⟩ | ⟨last, first⟩⟩ := h
  · refine ⟨(places t).mpr ⟨to_t, at_t⟩, .inl ⟨(order c t from_c to_t).mpr ahead, ?_⟩⟩
    intro p at_p past
    obtain ⟨held_p, number_p⟩ := (places p).mp at_p
    exact onward p at_p (first _ number_p ((order c p from_c held_p).mp past))
  · refine ⟨(places t).mpr ⟨to_t, at_t⟩, .inr ⟨fun p at_p past => ?_, fun p at_p => ?_⟩⟩
    · obtain ⟨held_p, number_p⟩ := (places p).mp at_p
      exact last _ number_p ((order c p from_c held_p).mp past)
    · exact onward p at_p (first _ ((places p).mp at_p).2)

theorem nextPlaceFound {xs : List α} {past : α → Bool} (ordered : xs.Pairwise before)
    (pasts : ∀ p ∈ xs, past p = true ↔ before c p) (found : (xs.find? past).or xs.head? = some t) :
    NextPlace before (· ∈ xs) c t := by
  cases hit : xs.find? past with
  | some t' =>
    rw [hit, Option.some_or] at found
    cases found
    obtain ⟨isPast, front, back, rfl, earlier⟩ := List.find?_eq_some_iff_append.mp hit
    have inside : t ∈ front ++ t :: back := List.mem_append_right front List.mem_cons_self
    refine ⟨inside, .inl ⟨(pasts t inside).mp isPast, fun p member after => ?_⟩⟩
    rcases List.mem_append.mp member with passed | rest
    · have no := earlier p passed
      rw [(pasts p member).mpr after] at no
      contradiction
    · obtain ⟨behind, -⟩ := List.pairwise_cons.mp (List.pairwise_append.mp ordered).2.1
      exact (List.mem_cons.mp rest).imp id (behind p)
  | none =>
    rw [hit, Option.none_or] at found
    obtain ⟨rest, rfl⟩ := List.head?_eq_some_iff.mp found
    have missed := List.find?_eq_none.mp hit
    refine ⟨List.mem_cons_self, .inr ⟨fun p member after => ?_, fun p member => ?_⟩⟩
    · exact missed p member ((pasts p member).mpr after)
    · exact (List.mem_cons.mp member).imp id ((List.pairwise_cons.mp ordered).1 p)

theorem nextPlaceIndex {xs : List α} {i : Nat} (ordered : xs.Pairwise before)
    (asymm : ∀ a b, before a b → ¬ before b a) (at_c : xs[i]? = some c)
    (at_t : xs[(i + 1) % xs.length]? = some t) : NextPlace before (· ∈ xs) c t := by
  obtain ⟨inside, rfl⟩ := List.getElem?_eq_some_iff.mp at_c
  obtain ⟨inside', rfl⟩ := List.getElem?_eq_some_iff.mp at_t
  have increasing := List.pairwise_iff_getElem.mp ordered
  have from_index : ∀ j (within : j < xs.length) k (within' : k < xs.length), j ≤ k →
      xs[k] = xs[j] ∨ before xs[j] xs[k] := by
    intro j within k within' le
    rcases Nat.eq_or_lt_of_le le with rfl | lt
    · exact .inl rfl
    · exact .inr (increasing j k within within' lt)
  have not_behind : ∀ k (within : k < xs.length), k ≤ i → ¬ before xs[i] xs[k] := by
    intro k within le after
    rcases from_index k within i inside le with same | less
    · rw [same] at after
      exact asymm _ _ after after
    · exact asymm _ _ less after
  refine ⟨List.getElem_mem inside', ?_⟩
  by_cases last : i + 1 < xs.length
  · have next : (i + 1) % xs.length = i + 1 := Nat.mod_eq_of_lt last
    simp only [next]
    refine .inl ⟨increasing i (i + 1) inside last (Nat.lt_succ_self i), fun p member after => ?_⟩
    obtain ⟨k, within, rfl⟩ := List.mem_iff_getElem.mp member
    exact from_index (i + 1) last k within (Nat.lt_of_not_le fun le => not_behind k within le after)
  · have next : (i + 1) % xs.length = 0 := by
      rw [show i + 1 = xs.length by omega, Nat.mod_self]
    simp only [next]
    refine .inr ⟨fun p member after => ?_, fun p member => ?_⟩
    · obtain ⟨k, within, rfl⟩ := List.mem_iff_getElem.mp member
      exact not_behind k within (by omega) after
    · obtain ⟨k, within, rfl⟩ := List.mem_iff_getElem.mp member
      exact from_index 0 (by omega) k within (Nat.zero_le k)

end

namespace Document

variable {d : Document} {pattern : Text}

def Stands (d : Document) (pattern : Text) (c : Cursor) : Prop :=
  d.Holds c ∧ pattern <+: d.text.drop (d.start c.row + c.col)

def places (d : Document) (pattern : Text) : List Cursor :=
  (Text.occurrences pattern d.text).map d.locate

theorem standsInText {c : Cursor} {line : Text} (found : d.lines[c.row]? = some line)
    (short : c.col ≤ line.length) (stands : pattern <+: line.drop c.col) : d.Stands pattern c := by
  have own : d.lines.getD c.row [] = line := by simp [found]
  have holds : d.Holds c := by
    refine ⟨(List.getElem?_eq_some_iff.mp found).1, ?_⟩
    rw [width, own]
    exact short
  refine ⟨holds, ?_⟩
  rw [textDrop holds, own]
  exact stands.trans (List.prefix_append _ _)

theorem standsIff {c : Cursor} : d.Stands pattern c ↔
    d.Holds c ∧ d.start c.row + c.col ∈ Text.occurrences pattern d.text := by
  rw [Stands, and_congr_right_iff]
  intro holds
  rw [Text.mem_occurrences, and_iff_right (offsetLe holds)]

theorem offsetPlace {n : Nat} (member : n ∈ Text.occurrences pattern d.text) :
    d.start (d.locate n).row + (d.locate n).col = n := offsetLocate (Text.mem_occurrences.mp member).1

theorem placesStand (sound : d.Sound) (pattern : Text) (c : Cursor) :
    c ∈ d.places pattern ↔ d.Stands pattern c := by
  rw [standsIff, places, List.mem_map]
  constructor
  · intro placed
    obtain ⟨n, member, rfl⟩ := placed
    exact ⟨locateHolds sound n, (offsetPlace member).symm ▸ member⟩
  · intro stands
    exact ⟨_, stands.2, locateOffset stands.1⟩

theorem placesOrdered (sound : d.Sound) (pattern : Text) : (d.places pattern).Pairwise Cursor.Precedes := by
  refine List.pairwise_map.mpr ?_
  refine (Text.pairwise_occurrences pattern d.text).imp_of_mem fun {m n} first second less => ?_
  rw [precedesOffset (locateHolds sound m) (locateHolds sound n), offsetPlace first, offsetPlace second]
  exact less

end Document

namespace Buffer

open Document (Stands)

variable {b : Buffer} {pattern : Text}

def Seeks (b : Buffer) (pattern : Text) (before : Cursor → Cursor → Prop) (found : Bool) (later : Buffer) :
    Prop :=
  if found then ∃ c, NextPlace before (b.document.Stands pattern) b.cursor c ∧ later = { b with cursor := c }
  else (∀ c, ¬ b.document.Stands pattern c) ∧ later = b

theorem searchSeeks {choose : Text → Text → Nat → Option Nat} {before : Cursor → Cursor → Prop}
    (less : Nat → Nat → Prop) (document : b.document.Sound) (cursor : b.document.Holds b.cursor)
    (set : b.searchPattern = some pattern)
    (order : ∀ a c, b.document.Holds a → b.document.Holds c →
      (before a c ↔ less (b.document.start a.row + a.col) (b.document.start c.row + c.col)))
    (chosen : ∀ n, choose pattern b.text (b.document.start b.cursor.row + b.cursor.col) = some n →
      NextPlace less (· ∈ Text.occurrences pattern b.text)
        (b.document.start b.cursor.row + b.cursor.col) n)
    (lost : choose pattern b.text (b.document.start b.cursor.row + b.cursor.col) = none →
      Text.occurrences pattern b.text = []) :
    (searchWith choose).Ends b (b.Seeks pattern before) := by
  unfold searchWith
  rw [Run.endsBind, Run.endsGet]
  split
  · rename_i unset
    cases set.symm.trans unset
  rename_i own same
  cases set.symm.trans same
  rw [Run.endsBind, Run.endsOfExcept]
  refine ⟨_, Document.offsetOk cursor, ?_⟩
  cases choice : choose pattern b.text (b.document.start b.cursor.row + b.cursor.col) with
  | none =>
    refine Run.endsPure.mpr ⟨fun c stands => ?_, rfl⟩
    have member := (Document.standsIff.mp stands).2
    rw [show Text.occurrences pattern b.document.text = [] from lost choice] at member
    exact List.not_mem_nil member
  | some n =>
    have next := chosen n choice
    have back := Document.offsetPlace (d := b.document) next.1
    rw [Run.endsBind, Run.endsPut, Run.endsPure]
    refine ⟨b.document.locate n, ?_, rfl⟩
    refine nextPlaceNumbered b.document.Holds (fun c => b.document.start c.row + c.col) order
      (fun _ _ => Document.offsetsApart) (fun _ => Document.standsIff) cursor
      (Document.locateHolds document n) ?_
    simp only [back]
    exact next

theorem searchForwardSeeks (document : b.document.Sound) (cursor : b.document.Holds b.cursor)
    (set : b.searchPattern = some pattern) : searchForward.Ends b (b.Seeks pattern Cursor.Precedes) := by
  have whole : ∀ s, Text.occurrenceFrom? pattern s 0 = (Text.occurrences pattern s).head? := by
    intro s
    rw [Text.occurrenceFrom?]
    cases Text.occurrences pattern s <;> simp
  refine searchSeeks (· < ·) document cursor set (fun _ _ => Document.precedesOffset) (fun n choice => ?_)
    fun choice => ?_
  · rw [whole] at choice
    exact nextPlaceFound (Text.pairwise_occurrences pattern b.text)
      (fun p _ => by rw [decide_eq_true_eq]; rfl) choice
  · rw [whole, Option.or_eq_none_iff, List.head?_eq_none_iff] at choice
    exact choice.2

theorem occurrenceBefore {s : Text} {offset : Nat} :
    ((if offset = 0 then none else Text.occurrenceWithin? pattern s (offset - 1 + pattern.length)).or
      (Text.occurrenceWithin? pattern s s.length)) =
      ((Text.occurrences pattern s).reverse.find? (· < offset)).or (Text.occurrences pattern s).reverse.head? := by
  have last : ∀ past : Nat → Bool, ((Text.occurrences pattern s).filter past).getLast? =
      (Text.occurrences pattern s).reverse.find? past := by
    intro past
    rw [List.getLast?_eq_head?_reverse, ← List.filter_reverse, List.head?_filter]
  have all : (Text.occurrences pattern s).filter (· + pattern.length ≤ s.length) =
      Text.occurrences pattern s := by
    refine List.filter_eq_self.mpr fun n member => ?_
    obtain ⟨short, stands⟩ := Text.mem_occurrences.mp member
    have size := stands.length_le
    rw [List.length_drop] at size
    rw [decide_eq_true_eq]
    omega
  have whole : Text.occurrenceWithin? pattern s s.length = (Text.occurrences pattern s).reverse.head? := by
    rw [Text.occurrenceWithin?, all, List.getLast?_eq_head?_reverse]
  rw [whole]
  split
  · rename_i start
    have none : (Text.occurrences pattern s).reverse.find? (· < offset) = none :=
      List.find?_eq_none.mpr fun n _ => by simp [start]
    rw [none]
  · rename_i further
    have bound : (fun n => decide (n + pattern.length ≤ offset - 1 + pattern.length)) =
        fun n => decide (n < offset) := by
      funext n
      exact decide_eq_decide.mpr (by omega)
    rw [Text.occurrenceWithin?, last, bound]

theorem searchBackSeeks (document : b.document.Sound) (cursor : b.document.Holds b.cursor)
    (set : b.searchPattern = some pattern) :
    searchBack.Ends b (b.Seeks pattern fun a c => c.Precedes a) := by
  refine searchSeeks (fun m n => n < m) document cursor set
    (fun _ _ h h' => Document.precedesOffset h' h) (fun n choice => ?_) fun choice => ?_
  · dsimp only at choice
    rw [occurrenceBefore] at choice
    have downward := List.pairwise_reverse.mpr (Text.pairwise_occurrences pattern b.text)
    have next := nextPlaceFound downward (fun p _ => by rw [decide_eq_true_eq]) choice
    simpa only [List.mem_reverse] using next
  · dsimp only at choice
    rw [occurrenceBefore, Option.or_eq_none_iff, List.head?_eq_none_iff, List.reverse_eq_nil_iff] at choice
    exact choice.2

theorem seeksFrom {m : Run Buffer Bool} {before : Cursor → Cursor → Prop} {c : Cursor}
    (asymm : ∀ a c, before a c → ¬ before c a) (seeks : m.Ends b (b.Seeks pattern before))
    (next : NextPlace before (b.document.Stands pattern) b.cursor c) : (m b).state = { b with cursor := c } := by
  obtain ⟨found, -, ends⟩ := seeks
  cases found with
  | true =>
    obtain ⟨c', next', same⟩ := ends
    rw [same, nextPlaceUnique asymm next next']
  | false => exact absurd next.1 (ends.1 c)

theorem forwardStep {c : Cursor} (document : b.document.Sound) (cursor : b.document.Holds b.cursor)
    (set : b.searchPattern = some pattern)
    (next : NextPlace Cursor.Precedes (b.document.Stands pattern) b.cursor c) :
    (searchForward b).state = { b with cursor := c } :=
  seeksFrom Cursor.precedesAsymm (searchForwardSeeks document cursor set) next

theorem forwardSteps {i : Nat} (document : b.document.Sound) (set : b.searchPattern = some pattern)
    (place : (b.document.places pattern)[i]? = some b.cursor) (k : Nat) :
    ∃ c, (b.document.places pattern)[(i + k) % (b.document.places pattern).length]? = some c ∧
      again searchForward k b = { b with cursor := c } := by
  obtain ⟨inside, -⟩ := List.getElem?_eq_some_iff.mp place
  induction k with
  | zero => exact ⟨b.cursor, by rw [Nat.add_zero, Nat.mod_eq_of_lt inside, place], rfl⟩
  | succ k ih =>
    obtain ⟨c, at_c, same⟩ := ih
    have held := (Document.placesStand document pattern c).mp (List.mem_of_getElem? at_c)
    have index : ((i + k) % (b.document.places pattern).length + 1) % (b.document.places pattern).length =
        (i + (k + 1)) % (b.document.places pattern).length := by rw [Nat.mod_add_mod, Nat.add_assoc]
    have within := Nat.mod_lt (i + (k + 1)) (Nat.zero_lt_of_lt inside)
    have at_t := List.getElem?_eq_getElem within
    generalize (b.document.places pattern)[(i + (k + 1)) % (b.document.places pattern).length] = t at at_t
    have next := nextPlaceIndex (Document.placesOrdered document pattern) Cursor.precedesAsymm at_c
      (index ▸ at_t)
    simp only [Document.placesStand document] at next
    refine ⟨t, at_t, ?_⟩
    rw [againSucc, same]
    exact forwardStep (b := { b with cursor := c }) document held.1 set next

theorem backForward (document : b.document.Sound) (set : b.searchPattern = some pattern)
    (stands : b.document.Stands pattern b.cursor) : (searchBack (searchForward b).state).state = b := by
  obtain ⟨found, -, ends⟩ := searchForwardSeeks document stands.1 set
  cases found with
  | false => exact absurd stands (ends.1 b.cursor)
  | true =>
    obtain ⟨c, next, same⟩ := ends
    have back := nextPlaceBack Cursor.precedesAsymm Cursor.precedesTotal stands next
    rw [same]
    exact seeksFrom (fun a c earlier => Cursor.precedesAsymm c a earlier)
      (searchBackSeeks (b := { b with cursor := c }) document next.1.1 set) back

theorem backForwards {i : Nat} (document : b.document.Sound) (set : b.searchPattern = some pattern)
    (place : (b.document.places pattern)[i]? = some b.cursor) (k : Nat) :
    again searchBack k (again searchForward k b) = b := by
  induction k with
  | zero => rfl
  | succ k ih =>
    obtain ⟨c, at_c, same⟩ := forwardSteps document set place k
    have stands := (Document.placesStand document pattern c).mp (List.mem_of_getElem? at_c)
    have last := backForward (b := { b with cursor := c }) document set stands
    rw [← same, ← againSucc] at last
    rw [againPred, last, ih]

/- A search leads to the first place behind the cursor, or back to the last one before it, and round the ends of
the text where there is none; only a pattern that stands nowhere is not found. From a place of the pattern,
steps forward come by all the places in the order of the text, again and again, and as many steps back
undo them. -/
theorem searchWalksPlaces (document : b.document.Sound) (cursor : b.document.Holds b.cursor)
    (set : b.searchPattern = some pattern) :
    let places := b.document.places pattern
    (∀ c, c ∈ places ↔ b.document.Stands pattern c) ∧ places.Pairwise Cursor.Precedes ∧
      searchForward.Ends b (b.Seeks pattern Cursor.Precedes) ∧
      searchBack.Ends b (b.Seeks pattern fun a c => c.Precedes a) ∧
      ∀ i, places[i]? = some b.cursor →
        (∀ k, (∃ c, places[(i + k) % places.length]? = some c ∧
            again searchForward k b = { b with cursor := c }) ∧
          again searchBack k (again searchForward k b) = b) ∧
        ∀ c, b.document.Stands pattern c →
          ∃ k < places.length, again searchForward k b = { b with cursor := c } := by
  refine ⟨Document.placesStand document pattern, Document.placesOrdered document pattern,
    searchForwardSeeks document cursor set, searchBackSeeks document cursor set, fun i place => ⟨fun k => ?_, ?_⟩⟩
  · exact ⟨forwardSteps document set place k, backForwards document set place k⟩
  · intro c stands
    obtain ⟨j, at_j⟩ := List.mem_iff_getElem?.mp ((Document.placesStand document pattern c).mpr stands)
    obtain ⟨inside, -⟩ := List.getElem?_eq_some_iff.mp place
    obtain ⟨inside', -⟩ := List.getElem?_eq_some_iff.mp at_j
    generalize size : (b.document.places pattern).length = n at inside inside' ⊢
    have index : (i + (j + n - i) % n) % n = j := by
      rw [Nat.add_mod_mod, show i + (j + n - i) = j + n by omega, Nat.add_mod_right, Nat.mod_eq_of_lt inside']
    obtain ⟨c', at_c', same⟩ := forwardSteps document set place ((j + n - i) % n)
    rw [size, index, at_j] at at_c'
    cases at_c'
    exact ⟨(j + n - i) % n, Nat.mod_lt _ (Nat.zero_lt_of_lt inside), same⟩

theorem lineEndsOverlap :
    let b : Buffer := { ofText "a\n\n\nb".toList 100 with cursor := ⟨0, 1⟩, searchPattern := some ['\n', '\n'] }
    b.document.places ['\n', '\n'] = [⟨0, 1⟩, ⟨1, 0⟩] ∧
      again searchForward 1 b = { b with cursor := ⟨1, 0⟩ } ∧ again searchForward 2 b = b ∧
      again searchBack 2 (again searchForward 2 b) = b := by
  intro b
  have places : b.document.places ['\n', '\n'] = [⟨0, 1⟩, ⟨1, 0⟩] := by decide +kernel
  have first : (b.document.places ['\n', '\n'])[0]? = some b.cursor := by rw [places]; rfl
  have cursor : b.document.Holds b.cursor := ⟨by decide +kernel, by decide +kernel⟩
  obtain ⟨-, -, -, -, walk⟩ := searchWalksPlaces (b := b) (Document.soundOfText _) cursor rfl
  obtain ⟨steps, -⟩ := walk 0 first
  rw [places] at steps
  obtain ⟨⟨c, at_c, once⟩, -⟩ := steps 1
  obtain ⟨⟨c', at_c', twice⟩, back⟩ := steps 2
  cases at_c
  cases at_c'
  exact ⟨places, once, twice, back⟩

end Buffer

end ModalNotes
