import ModalNotes.Keymap.Standard
import ModalNotes.Proofs.Leaves
import ModalNotes.Proofs.Table

/-! Requests to a registry, one after another. Its slots are its bindings read the other way round, also past
requests that are refused, so that looking up a key never meets a binding or an action that is not there. -/
namespace ModalNotes

theorem Keymap.forEachKeeps {σ α : Type} {P : σ → Prop} {f : α → Run σ Unit} {l : List α}
    (keeps : ∀ a ∈ l, Run.Keeps P (f a)) : Run.Keeps P (Keymap.forEach f l) := by
  induction l with
  | nil => exact fun _ held => held
  | cons a rest ih =>
    exact Run.keepsBind (keeps a List.mem_cons_self) fun _ =>
      ih fun b member => keeps b (List.mem_cons_of_mem a member)

namespace Registry

variable {α : Type}

structure Consistent (r : Registry α) : Prop where
  keyed : ∀ e ∈ r.bindings.entries, e.1 = e.2.id
  slots : r.slots.entries = r.bindings.entries.map fun e => (e.2.slot, e.1)
  ids : r.bindings.keys.Nodup
  places : r.slots.keys.Nodup
  named : ∀ e ∈ r.actions.entries, e.1 = e.2.id
  served : ∀ b ∈ r.bindings.values, b.actionId ∈ r.actions.keys

theorem consistentEmpty : Consistent ({} : Registry α) :=
  ⟨fun _ member => absurd member List.not_mem_nil, rfl, .nil, .nil,
    fun _ member => absurd member List.not_mem_nil, fun _ member => absurd member List.not_mem_nil⟩

section
variable {r : Registry α} {b c : Binding}

theorem Consistent.entry (consistent : r.Consistent) (member : b ∈ r.bindings.values) :
    (b.id, b) ∈ r.bindings.entries := by
  obtain ⟨⟨id, b'⟩, inside, rfl⟩ := List.mem_map.mp member
  have same : id = b'.id := consistent.keyed _ inside
  exact same ▸ inside

theorem Consistent.binding (consistent : r.Consistent) {id : Text} :
    r.bindings.get? id = some b ↔ b ∈ r.bindings.values ∧ b.id = id := by
  constructor
  · intro found
    have inside := Table.memOfGet found
    exact ⟨List.mem_map.mpr ⟨_, inside, rfl⟩, (consistent.keyed _ inside).symm⟩
  · rintro ⟨member, rfl⟩
    exact Table.getOfMem consistent.ids (consistent.entry member)

theorem Consistent.slot (consistent : r.Consistent) {slot : Text × Text} {id : Text} :
    r.slots.get? slot = some id ↔ ∃ b ∈ r.bindings.values, b.slot = slot ∧ b.id = id := by
  constructor
  · intro found
    have inside := Table.memOfGet found
    rw [consistent.slots] at inside
    obtain ⟨e, member, same⟩ := List.mem_map.mp inside
    cases same
    exact ⟨e.2, List.mem_map.mpr ⟨e, member, rfl⟩, rfl, (consistent.keyed e member).symm⟩
  · rintro ⟨b, member, rfl, rfl⟩
    refine Table.getOfMem consistent.places ?_
    rw [consistent.slots]
    exact List.mem_map.mpr ⟨_, consistent.entry member, rfl⟩

theorem Consistent.sameId (consistent : r.Consistent) (left : b ∈ r.bindings.values)
    (right : c ∈ r.bindings.values) (same : b.id = c.id) : b = c := by
  have found := consistent.binding.mpr ⟨left, same⟩
  exact Option.some.inj (found.symm.trans (consistent.binding.mpr ⟨right, rfl⟩))

theorem Consistent.sameSlot (consistent : r.Consistent) (left : b ∈ r.bindings.values)
    (right : c ∈ r.bindings.values) (same : b.slot = c.slot) : b = c := by
  have found := consistent.slot.mpr ⟨b, left, same, rfl⟩
  have found' := consistent.slot.mpr ⟨c, right, rfl, rfl⟩
  exact consistent.sameId left right (Option.some.inj (found.symm.trans found'))

theorem Consistent.place (consistent : r.Consistent) {e : (Text × Text) × Text}
    (member : e ∈ r.slots.entries) : ∃ b ∈ r.bindings.values, e = (b.slot, b.id) := by
  rw [consistent.slots] at member
  obtain ⟨e', inside, rfl⟩ := List.mem_map.mp member
  exact ⟨e'.2, List.mem_map.mpr ⟨e', inside, rfl⟩, by rw [consistent.keyed e' inside]⟩

end

def only (keep : Text × Text → Text → Bool) (r : Registry α) : Registry α :=
  { r with
    bindings := ⟨r.bindings.entries.filter fun e => keep e.2.slot e.1⟩
    slots := ⟨r.slots.entries.filter fun e => keep e.1 e.2⟩ }

theorem Consistent.only {r : Registry α} (consistent : r.Consistent)
    (keep : Text × Text → Text → Bool) : (r.only keep).Consistent where
  keyed e member := consistent.keyed e (List.mem_filter.mp member).1
  slots := by
    simp only [Registry.only, consistent.slots, List.filter_map, Function.comp_def]
  ids := consistent.ids.sublist (List.filter_sublist.map _)
  places := consistent.places.sublist (List.filter_sublist.map _)
  named := consistent.named
  served b member := by
    obtain ⟨e, inside, rfl⟩ := List.mem_map.mp member
    exact consistent.served _ (List.mem_map.mpr ⟨e, (List.mem_filter.mp inside).1, rfl⟩)

theorem onlyOnly (r : Registry α) (first second : Text × Text → Text → Bool) :
    (r.only first).only second = r.only fun slot id => second slot id && first slot id := by
  simp only [only, List.filter_filter]

theorem onlyCongr {r : Registry α} (consistent : r.Consistent) {first second : Text × Text → Text → Bool}
    (alike : ∀ b ∈ r.bindings.values, first b.slot b.id = second b.slot b.id) :
    r.only first = r.only second := by
  have bindings : ∀ e ∈ r.bindings.entries, first e.2.slot e.1 = second e.2.slot e.1 := by
    intro e member
    rw [consistent.keyed e member]
    exact alike e.2 (List.mem_map.mpr ⟨e, member, rfl⟩)
  have slots : ∀ e ∈ r.slots.entries, first e.1 e.2 = second e.1 e.2 := by
    intro e member
    obtain ⟨b, inside, rfl⟩ := consistent.place member
    exact alike b inside
  simp only [only, List.filter_congr bindings, List.filter_congr slots]

theorem onlyAll {r : Registry α} (consistent : r.Consistent) {keep : Text × Text → Text → Bool}
    (all : ∀ b ∈ r.bindings.values, keep b.slot b.id = true) : r.only keep = r := by
  have kept : r.only keep = r.only fun _ _ => true := onlyCongr consistent all
  have every : ∀ {β : Type} (l : List β), (l.filter fun _ => true) = l :=
    fun l => List.filter_eq_self.mpr fun _ _ => rfl
  exact kept.trans (by simp only [only, every])

theorem dropOnly {r : Registry α} (consistent : r.Consistent) {b : Binding}
    (member : b ∈ r.bindings.values) : r.drop b = r.only fun _ id => id ≠ b.id := by
  have held : r.slots.get? b.slot = some b.id := consistent.slot.mpr ⟨b, member, rfl, rfl⟩
  have places : ∀ e ∈ r.slots.entries, decide (e.1 ≠ b.slot) = decide (e.2 ≠ b.id) := by
    intro e inside
    obtain ⟨c, other, rfl⟩ := consistent.place inside
    refine decide_eq_decide.mpr (not_congr ⟨fun same => ?_, fun same => ?_⟩)
    · rw [consistent.sameSlot other member same]
    · rw [consistent.sameId other member same]
  simp only [drop, if_pos held, only, Table.erase, List.filter_congr places]

/- What a new binding pushes out: the other holder of its slot, and the old one of its id. -/
def stale (r : Registry α) (b : Binding) : List Binding :=
  (r.conflict? b).toList ++ (r.bindings.get? b.id).toList

section
variable {r : Registry α} {b : Binding}

theorem conflictSome (consistent : r.Consistent) {holder : Binding} :
    r.conflict? b = some holder ↔
      holder ∈ r.bindings.values ∧ holder.slot = b.slot ∧ holder.id ≠ b.id := by
  unfold conflict?
  constructor
  · intro found
    obtain ⟨id, held, rest⟩ := Option.bind_eq_some_iff.mp found
    split at rest
    · contradiction
    · rename_i other
      obtain ⟨c, member, slot, rfl⟩ := consistent.slot.mp held
      cases (consistent.binding.mpr ⟨member, rfl⟩).symm.trans rest
      exact ⟨member, slot, other⟩
  · rintro ⟨member, slot, other⟩
    refine Option.bind_eq_some_iff.mpr ⟨holder.id, consistent.slot.mpr ⟨holder, member, slot, rfl⟩, ?_⟩
    rw [if_neg other]
    exact consistent.binding.mpr ⟨member, rfl⟩

theorem conflictNone (consistent : r.Consistent) (none : r.conflict? b = none) :
    ∀ c ∈ r.bindings.values, c.slot = b.slot → c.id = b.id := by
  intro c member slot
  refine Decidable.byContradiction fun other => ?_
  have found : r.conflict? b = some c := (conflictSome consistent).mpr ⟨member, slot, other⟩
  cases none.symm.trans found

theorem staleOnly (consistent : r.Consistent) :
    (r.stale b).foldl drop r = r.only fun slot id => slot ≠ b.slot && id ≠ b.id := by
  -- First the holder of the slot goes, whatever its id, then the binding of the id, wherever it is.
  have first : (r.conflict? b).toList.foldl drop r =
      r.only fun slot id => slot ≠ b.slot || id = b.id := by
    cases found : r.conflict? b with
    | none =>
      refine (onlyAll consistent fun c member => ?_).symm
      simpa [Decidable.or_iff_not_imp_left] using conflictNone consistent found c member
    | some holder =>
      obtain ⟨member, slot, other⟩ := (conflictSome consistent).mp found
      refine (dropOnly consistent member).trans (onlyCongr consistent fun c inside => ?_)
      by_cases same : c = holder
      · subst same
        simp [slot, other]
      · have apart : c.id ≠ holder.id := fun h => same (consistent.sameId inside member h)
        have apart' : c.slot ≠ b.slot := fun h =>
          same (consistent.sameSlot inside member (h.trans slot.symm))
        simp [apart, apart']
  have consistent' := consistent.only fun slot id => slot ≠ b.slot || id = b.id
  rw [stale, List.foldl_append, first]
  cases found : r.bindings.get? b.id with
  | none =>
    refine onlyCongr consistent fun c member => ?_
    have other : c.id ≠ b.id := fun same => by
      cases found.symm.trans (consistent.binding.mpr ⟨member, same⟩)
    simp [other]
  | some old =>
    obtain ⟨member, same⟩ := consistent.binding.mp found
    have kept : old ∈ (r.only fun slot id => slot ≠ b.slot || id = b.id).bindings.values := by
      refine List.mem_map.mpr ⟨_, List.mem_filter.mpr ⟨consistent.entry member, ?_⟩, rfl⟩
      simp [same]
    refine (dropOnly consistent' kept).trans ((onlyOnly r _ _).trans (onlyCongr consistent ?_))
    intro c inside
    by_cases h : c.id = b.id <;> simp [same, h]

end

def taking (r : Registry α) (b : Binding) : Registry α :=
  let kept := r.only fun slot id => slot ≠ b.slot && id ≠ b.id
  { kept with
    bindings := kept.bindings.put b.id b
    slots := kept.slots.put b.slot b.id
    revision := kept.revision + 1 }

section
variable {r : Registry α} {b : Binding}

theorem takingBindings (r : Registry α) (b : Binding) : (r.taking b).bindings.entries =
    (r.bindings.entries.filter fun e => e.2.slot ≠ b.slot && e.1 ≠ b.id) ++ [(b.id, b)] := by
  refine Table.putNew (fun member => ?_) b
  obtain ⟨e, inside, same⟩ := List.mem_map.mp member
  simpa [same] using (List.mem_filter.mp inside).2

theorem takingSlots (r : Registry α) (b : Binding) : (r.taking b).slots.entries =
    (r.slots.entries.filter fun e => e.1 ≠ b.slot && e.2 ≠ b.id) ++ [(b.slot, b.id)] := by
  refine Table.putNew (fun member => ?_) b.id
  obtain ⟨e, inside, same⟩ := List.mem_map.mp member
  simpa [same] using (List.mem_filter.mp inside).2

theorem memTaking (consistent : r.Consistent) {c : Binding} : c ∈ (r.taking b).bindings.values ↔
    c = b ∨ c ∈ r.bindings.values ∧ c.slot ≠ b.slot ∧ c.id ≠ b.id := by
  simp only [Table.values, takingBindings, List.map_append, List.map_cons, List.map_nil, List.mem_append,
    List.mem_singleton, List.mem_map, List.mem_filter, Bool.and_eq_true, decide_eq_true_eq]
  rw [or_comm]
  refine or_congr_right ⟨?_, ?_⟩
  · rintro ⟨e, ⟨member, slot, id⟩, rfl⟩
    exact ⟨⟨e, member, rfl⟩, slot, consistent.keyed e member ▸ id⟩
  · rintro ⟨⟨e, member, rfl⟩, slot, id⟩
    exact ⟨e, ⟨member, slot, consistent.keyed e member ▸ id⟩, rfl⟩

theorem Consistent.taking (consistent : r.Consistent) (known : b.actionId ∈ r.actions.keys) :
    (r.taking b).Consistent := by
  have kept := consistent.only fun slot id => slot ≠ b.slot && id ≠ b.id
  refine ⟨?_, ?_, Table.nodupPut kept.ids _ _, Table.nodupPut kept.places _ _, consistent.named, ?_⟩
  · intro e member
    rcases Table.memEntriesPut member with rfl | old
    · rfl
    · exact kept.keyed e old
  · have slots := kept.slots
    simp only [Registry.only] at slots
    rw [takingSlots, takingBindings, List.map_append, ← slots, List.map_cons, List.map_nil]
  · intro c member
    rcases (memTaking consistent).mp member with rfl | ⟨old, -⟩
    · exact known
    · exact consistent.served c old

end

section
variable {r : Registry α} {b c : Binding} {action : NamedAction α} {mode token : Text}

theorem lookupSome (consistent : r.Consistent) : r.lookup mode token = some (b, action) ↔
    b ∈ r.bindings.values ∧ b.slot = (mode, token) ∧ r.actions.get? b.actionId = some action := by
  unfold lookup
  constructor
  · intro found
    obtain ⟨id, held, rest⟩ := Option.bind_eq_some_iff.mp found
    obtain ⟨b', named, rest⟩ := Option.bind_eq_some_iff.mp rest
    obtain ⟨action', served, same⟩ := Option.bind_eq_some_iff.mp rest
    cases same
    obtain ⟨c, member, slot, rfl⟩ := consistent.slot.mp held
    cases (consistent.binding.mpr ⟨member, rfl⟩).symm.trans named
    exact ⟨member, slot, served⟩
  · rintro ⟨member, slot, served⟩
    refine Option.bind_eq_some_iff.mpr ⟨b.id, consistent.slot.mpr ⟨b, member, slot, rfl⟩, ?_⟩
    refine Option.bind_eq_some_iff.mpr ⟨b, consistent.binding.mpr ⟨member, rfl⟩, ?_⟩
    exact Option.bind_eq_some_iff.mpr ⟨action, served, rfl⟩

theorem lookupBound (consistent : r.Consistent) (member : b ∈ r.bindings.values) :
    ∃ action, r.actions.get? b.actionId = some action ∧
      r.lookup b.mode b.stroke.token = some (b, action) := by
  obtain ⟨action, served⟩ := Table.someOfMem (consistent.served b member)
  exact ⟨action, served, (lookupSome consistent).mpr ⟨member, rfl, served⟩⟩

theorem lookupNone (consistent : r.Consistent) :
    r.lookup mode token = none ↔ ∀ b ∈ r.bindings.values, b.slot ≠ (mode, token) := by
  constructor
  · intro nothing b member slot
    cases slot
    obtain ⟨action, -, found⟩ := lookupBound consistent member
    cases nothing.symm.trans found
  · intro free
    refine Option.eq_none_iff_forall_ne_some.mpr fun found same => ?_
    obtain ⟨member, slot, -⟩ := (lookupSome consistent).mp same
    exact free found.1 member slot

theorem lookupTaking (consistent : r.Consistent) (known : b.actionId ∈ r.actions.keys)
    (apart : (mode, token) ≠ b.slot) : (r.taking b).lookup mode token =
      (r.lookup mode token).filter fun found => found.1.id ≠ b.id := by
  refine Option.ext fun found => ?_
  obtain ⟨c, action⟩ := found
  rw [lookupSome (consistent.taking known), Option.filter_eq_some_iff, lookupSome consistent,
    memTaking consistent, decide_eq_true_eq]
  constructor
  · rintro ⟨rfl | ⟨member, -, other⟩, slot, served⟩
    · exact absurd slot.symm apart
    · exact ⟨⟨member, slot, served⟩, other⟩
  · rintro ⟨⟨member, slot, served⟩, other⟩
    exact ⟨.inr ⟨member, slot ▸ apart, other⟩, slot, served⟩

end

/- Why a binding is refused. Only one that does not replace can be in the way of another. -/
inductive Refused (r : Registry α) (b : Binding) : Bool → Fault → Prop
  | unknown (replacing : Bool) (absent : b.actionId ∉ r.actions.keys) :
      Refused r b replacing (.bindingToUnknownAction b.id b.actionId)
  | held {holder : Binding} (known : b.actionId ∈ r.actions.keys)
      (member : holder ∈ r.bindings.values) (slot : holder.slot = b.slot) (other : holder.id ≠ b.id) :
      Refused r b false (.slotTaken b.stroke.token b.mode holder.id)
  | registered {old : Binding} (known : b.actionId ∈ r.actions.keys)
      (free : ∀ c ∈ r.bindings.values, c.slot = b.slot → c.id = b.id)
      (member : old ∈ r.bindings.values) (same : old.id = b.id) :
      Refused r b false (.bindingTaken b.id)

theorem registerAfter {r : Registry α} (consistent : r.Consistent) (b : Binding) (replacing : Bool) :
    (registerBinding b replacing).After r fun result later =>
      match result with
      | .error fault => Refused r b replacing fault ∧ later = r
      | .ok () => b.actionId ∈ r.actions.keys ∧ later = r.taking b ∧
          (replacing = false → ∀ c ∈ r.bindings.values, c.slot ≠ b.slot ∧ c.id ≠ b.id) := by
  have written : { (r.stale b).foldl drop r with
      bindings := ((r.stale b).foldl drop r).bindings.put b.id b
      slots := ((r.stale b).foldl drop r).slots.put b.slot b.id
      revision := ((r.stale b).foldl drop r).revision + 1 } = r.taking b := by
    rw [staleOnly consistent]
    rfl
  unfold registerBinding
  rw [Run.afterSpannedWith]
  refine Run.afterBindEnds (Run.endsGet.mpr ?_)
  dsimp only
  split
  · rename_i unknown
    refine ⟨.unknown replacing fun member => ?_, rfl⟩
    simp [Table.containsIff.mpr member] at unknown
  rename_i known
  have known' : b.actionId ∈ r.actions.keys := Table.containsIff.mp (by simpa using known)
  cases replacing with
  | true => exact ⟨known', written, fun keeping => by contradiction⟩
  | false =>
    cases found : r.conflict? b with
    | some holder =>
      obtain ⟨member, slot, other⟩ := (conflictSome consistent).mp found
      exact ⟨.held known' member slot other, rfl⟩
    | none =>
      have free := conflictNone consistent found
      dsimp only
      split
      · rename_i held
        obtain ⟨old, named⟩ := Table.someOfMem (Table.containsIff.mp (by simpa using held))
        obtain ⟨member, same⟩ := consistent.binding.mp named
        exact ⟨.registered known' free member same, rfl⟩
      · rename_i fresh
        have other : ∀ c ∈ r.bindings.values, c.id ≠ b.id := by
          intro c member same
          have held := Table.containsIff.mpr (Table.memOfSome (consistent.binding.mpr ⟨member, same⟩))
          exact fresh (by simp [held])
        have apart : ∀ c ∈ r.bindings.values, c.slot ≠ b.slot ∧ c.id ≠ b.id :=
          fun c member => ⟨fun slot => other c member (free c member slot), other c member⟩
        refine ⟨known', ?_, fun _ => apart⟩
        rw [stale, found] at written
        exact written

structure Registers (r : Registry α) (b : Binding) (replacing : Bool) (result : Except Fault Unit)
    (later : Registry α) : Prop where
  refused : ∀ fault, result = .error fault ↔ Refused r b replacing fault
  unchanged : ∀ fault, result = .error fault → later = r
  own : result = .ok () → ∃ action, r.actions.get? b.actionId = some action ∧
    later.lookup b.mode b.stroke.token = some (b, action)
  revision : result = .ok () → later.revision = r.revision + 1
  others : result = .ok () → ∀ mode token, (mode, token) ≠ b.slot →
    later.lookup mode token = (r.lookup mode token).filter fun found => found.1.id ≠ b.id
  spared : result = .ok () → replacing = false →
    ∀ c ∈ r.bindings.values, c.slot ≠ b.slot ∧ c.id ≠ b.id

theorem refusedSame {r : Registry α} {b : Binding} {replacing : Bool} {left right : Fault}
    (consistent : r.Consistent) (first : Refused r b replacing left)
    (second : Refused r b replacing right) : left = right := by
  cases first with
  | unknown _ absent =>
    cases second with
    | unknown => rfl
    | held known | registered known => exact absurd known absent
  | held known member slot other =>
    cases second with
    | unknown _ absent => exact absurd known absent
    | held _ member' slot' => rw [consistent.sameSlot member member' (slot.trans slot'.symm)]
    | registered _ free => exact absurd (free _ member slot) other
  | registered known free =>
    cases second with
    | unknown _ absent => exact absurd known absent
    | held _ member slot other => exact absurd (free _ member slot) other
    | registered => rfl

theorem notRefused {r : Registry α} {b : Binding} {replacing : Bool} {fault : Fault}
    (known : b.actionId ∈ r.actions.keys)
    (spared : replacing = false → ∀ c ∈ r.bindings.values, c.slot ≠ b.slot ∧ c.id ≠ b.id) :
    ¬ Refused r b replacing fault := by
  intro refused
  cases refused with
  | unknown _ absent => exact absent known
  | held _ member slot => exact (spared rfl _ member).1 slot
  | registered _ _ member same => exact (spared rfl _ member).2 same

theorem registers {r : Registry α} (consistent : r.Consistent) (b : Binding) (replacing : Bool) :
    (registerBinding b replacing).After r (Registers r b replacing) := by
  refine Run.afterMono (registerAfter consistent b replacing) fun result later post => ?_
  cases result with
  | error fault =>
    obtain ⟨refused, rfl⟩ := post
    refine ⟨fun fault' => ⟨fun same => ?_, fun other => ?_⟩, fun _ _ => rfl, ?_, ?_, ?_, ?_⟩
    · cases same
      exact refused
    · rw [refusedSame consistent refused other]
    all_goals exact fun ok => by contradiction
  | ok =>
    obtain ⟨known, rfl, spared⟩ := post
    have member : b ∈ (r.taking b).bindings.values := (memTaking consistent).mpr (.inl rfl)
    refine ⟨fun fault => ⟨fun failed => ?_, fun refused => absurd refused (notRefused known spared)⟩,
      fun fault failed => ?_, fun _ => lookupBound (consistent.taking known) member, fun _ => rfl,
      fun _ mode token apart => lookupTaking consistent known apart, fun _ => spared⟩
    all_goals contradiction

/- What can be asked of a registry. Loading the standard keymap may stop at any of its registrations. -/
inductive Request
  | action (action : NamedAction Action) (replacing : Bool)
  | bind (b : Binding) (replacing : Bool)
  | unbind (id : Text)
  | load (replacing : Bool) (excluded : List Text) (extra : List Binding)

def Request.run : Request → Run (Registry Action) Unit
  | action a replacing => registerAction a replacing
  | bind b replacing => registerBinding b replacing
  | unbind id => do let _ ← unregisterBinding id
  | load replacing excluded extra => Keymap.load replacing excluded extra

def after (r : Registry Action) (requests : List Request) : Registry Action :=
  requests.foldl (fun r request => (request.run r).state) r

theorem consistentAction (a : NamedAction α) (replacing : Bool) :
    Run.Keeps Consistent (registerAction a replacing) := by
  refine Run.keepsGet fun r consistent => ?_
  split
  · exact consistent
  · refine ⟨consistent.keyed, consistent.slots, consistent.ids, consistent.places, fun e member => ?_,
      fun b member => Table.keysPutMem a (consistent.served b member)⟩
    rcases Table.memEntriesPut member with rfl | old
    · rfl
    · exact consistent.named e old

theorem consistentBinding (b : Binding) (replacing : Bool) :
    Run.Keeps (Consistent (α := α)) (registerBinding b replacing) := by
  intro r consistent
  have post := registerAfter consistent b replacing
  unfold Run.After at post
  cases result : (registerBinding b replacing r).result with
  | error fault =>
    rw [result] at post
    rw [post.2]
    exact consistent
  | ok =>
    rw [result] at post
    rw [post.2.1]
    exact consistent.taking post.1

theorem consistentUnbinding (id : Text) : Run.Keeps (Consistent (α := α)) (unregisterBinding id) := by
  refine Run.keepsGet fun r consistent => ?_
  cases named : r.bindings.get? id with
  | none => exact consistent
  | some b =>
    have dropped := dropOnly consistent (consistent.binding.mp named).1
    obtain ⟨keyed, slots, ids, places, named, served⟩ := consistent.only fun _ id => id ≠ b.id
    rw [← dropped] at keyed slots ids places named served
    exact ⟨keyed, slots, ids, places, named, served⟩

theorem consistentLoad (replacing : Bool) (excluded : List Text) (extra : List Binding) :
    Run.Keeps Consistent (Keymap.load replacing excluded extra) :=
  Run.keepsBind (Keymap.forEachKeeps fun a _ => consistentAction a replacing) fun _ =>
    Run.keepsBind (Keymap.forEachKeeps fun b _ => consistentBinding b replacing) fun _ =>
      Keymap.forEachKeeps fun b _ => consistentBinding b true

theorem consistentRequest (request : Request) : Run.Keeps Consistent request.run := by
  cases request with
  | action a replacing => exact consistentAction a replacing
  | bind b replacing => exact consistentBinding b replacing
  | unbind id => exact Run.keepsBind (consistentUnbinding id) fun _ _ consistent => consistent
  | load replacing excluded extra => exact consistentLoad replacing excluded extra

theorem consistentAfter {r : Registry Action} (consistent : r.Consistent) (requests : List Request) :
    (r.after requests).Consistent := by
  induction requests generalizing r with
  | nil => exact consistent
  | cons request rest ih => exact ih (consistentRequest request r consistent)

structure Resolves (r : Registry α) (mode token : Text) : Prop where
  found : ∀ b action, r.lookup mode token = some (b, action) ↔
    b ∈ r.bindings.values ∧ b.slot = (mode, token) ∧ r.actions.get? b.actionId = some action
  nothing : r.lookup mode token = none ↔ ∀ b ∈ r.bindings.values, b.slot ≠ (mode, token)
  complete : (r.lookup mode token).isSome = r.slots.contains (mode, token)
  alone : ∀ b ∈ r.bindings.values, ∀ c ∈ r.bindings.values, b.slot = c.slot → b = c

theorem resolves {r : Registry α} (consistent : r.Consistent) (mode token : Text) :
    Resolves r mode token where
  found _ _ := lookupSome consistent
  nothing := lookupNone consistent
  complete := by
    cases held : r.slots.get? (mode, token) with
    | none => simp [lookup, Table.contains, held]
    | some id =>
      obtain ⟨b, member, slot, -⟩ := consistent.slot.mp held
      cases slot
      obtain ⟨action, -, found⟩ := lookupBound consistent member
      rw [found, Table.contains, held]
      rfl
  alone _ left _ right := consistent.sameSlot left right

/- After any requests, refused ones among them, slots and bindings say the same, and every key finds what is
bound to it. The next registration is refused without a trace, or takes its slot and leaves the others. -/
theorem slotsInvertBindings (requests : List Request) :
    (({} : Registry Action).after requests).Consistent ∧
      (∀ mode token, Resolves (({} : Registry Action).after requests) mode token) ∧
      ∀ b replacing, (registerBinding b replacing).After (({} : Registry Action).after requests)
        (Registers (({} : Registry Action).after requests) b replacing) := by
  have consistent := consistentAfter consistentEmpty requests
  exact ⟨consistent, resolves consistent, registers consistent⟩

/- A binding that takes over the id of one and the slot of another pushes out both. -/
example : (({} : Registry Action).after [.action (Keymap.named "a" .noop "") false,
    .bind (Keymap.binding .normal ['x'] ['a']) false, .bind (Keymap.binding .normal ['y'] ['a']) false,
    .bind { Keymap.binding .normal ['x'] ['a'] with stroke := ⟨['y'], []⟩ } true]).slots.entries =
      [((Mode.normal.name, ['y']), (Keymap.binding .normal ['x'] ['a']).id)] := by decide +kernel

end Registry

end ModalNotes
