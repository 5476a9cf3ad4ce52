import ModalNotes.Proofs.Link.Settle

/-! Stores as the operations build them, what a diff of one is made of, and what is left of one that has
been settled. -/
namespace ModalNotes

namespace LinkStore

structure Formed (s : LinkStore) : Prop where
  own : ∀ k l, (k, l) ∈ s.links.entries → l.anchor = k
  keys : s.links.keys.Nodup
  serials : (s.all.map Link.serial).Nodup
  below : ∀ l ∈ s.all, l.serial < s.nextSerial

theorem Formed.distinct {s : LinkStore} (formed : s.Formed) : Distinct s.all where
  anchors := by
    have keys := formed.keys
    rw [Table.keys, entriesOf formed.own] at keys
    simpa [Function.comp_def] using keys
  serials := formed.serials

theorem formedEmpty (parent : Option Int) : ({ parent } : LinkStore).Formed := by
  constructor <;> simp [Table.keys, all, Table.values]

theorem formedInsert {s t : LinkStore} {l m : Link} (formed : s.Formed)
    (inserted : s.insert l = .ok (t, m)) : t.Formed := by
  by_cases fresh : l.anchor ∈ s.links.keys
  · simp [insert, Table.containsIff.mpr fresh] at inserted
  · rw [insertOk fresh] at inserted
    cases inserted
    have entries := Table.putNew fresh { l with parent := l.parent.or s.parent, serial := s.nextSerial }
    constructor
    · intro k l' member
      rw [entries] at member
      rcases List.mem_append.mp member with old | new
      · exact formed.own k l' old
      · cases List.mem_singleton.mp new
        rfl
    · rw [Table.keys, entries, List.map_append]
      exact List.Nodup.append formed.keys (by simp) (List.disjoint_singleton.mpr fresh)
    · have apart : s.nextSerial ∉ s.all.map Link.serial := by
        intro taken
        obtain ⟨l', member, same⟩ := List.mem_map.mp taken
        have below := formed.below l' member
        omega
      rw [all, Table.values, entries, List.map_append, List.map_append]
      exact List.Nodup.append formed.serials (by simp) (List.disjoint_singleton.mpr apart)
    · intro l' member
      rw [all, Table.values, entries, List.map_append] at member
      rcases List.mem_append.mp member with old | new
      · exact Nat.lt_succ_of_lt (formed.below l' old)
      · simp at new
        simp [new]

theorem Formed.part {s t : LinkStore} (formed : s.Formed) {f : Link → Link}
    (kept : ∀ l, (f l).anchor = l.anchor ∧ (f l).serial = l.serial)
    (part : t.links.entries.Sublist (s.links.mapValues f).entries)
    (next : t.nextSerial = s.nextSerial) : t.Formed := by
  have values : t.all.Sublist (s.all.map f) := by
    simpa [all, Table.values, Table.mapValues, Function.comp_def] using part.map Prod.snd
  have serials : (s.all.map f).map Link.serial = s.all.map Link.serial := by
    simp [kept]
  constructor
  · intro k l member
    obtain ⟨⟨k', old⟩, inside, same⟩ := List.mem_map.mp (part.subset member)
    cases same
    exact (kept old).1.trans (formed.own k' old inside)
  · have keys : (s.links.mapValues f).keys.Nodup := by simpa using formed.keys
    exact keys.sublist (part.map Prod.fst)
  · exact (serials ▸ formed.serials).sublist (values.map Link.serial)
  · intro l member
    obtain ⟨old, inside, rfl⟩ := List.mem_map.mp (values.subset member)
    rw [next, (kept old).2]
    exact formed.below old inside

theorem formedBind {s : LinkStore} (formed : s.Formed) (parent : Option Int) :
    (s.bindParent parent).Formed :=
  formed.part (f := fun l => { l with parent }) (by simp) (List.Sublist.refl _) rfl

theorem formedSettle {s : LinkStore} (formed : s.Formed) (d : LinkDiff) : (s.settle d).Formed :=
  formed.part (f := marked d) (fun l => ⟨(markedSame d l).1, (markedSame d l).2.2.2.2.2⟩)
    (settleEntries s d ▸ List.filter_sublist) rfl

def pruned (s : LinkStore) : LinkStore :=
  { s with links := ⟨s.links.entries.filter fun e => !(e.2.deleted && !e.2.saved)⟩ }

def written (s : LinkStore) : LinkStore :=
  { s with links := ⟨s.live.map fun l => (l.anchor, { l with saved := true, updated := false })⟩ }

theorem settleIdle {s : LinkStore} (idle : s.classify.isEmpty = true) :
    s.settle s.classify = s.pruned := by
  obtain ⟨⟨updates, inserts⟩, deletes⟩ : (s.classify.toUpdate = [] ∧ s.classify.toInsert = []) ∧
      s.classify.toDelete = [] := by simpa [LinkDiff.isEmpty] using idle
  simp [settle, mapLinks, pruned, updates, inserts, deletes]

theorem settleWritten {s : LinkStore} (formed : s.Formed) : s.settle s.classify = s.written :=
  calc s.settle s.classify
      = { s with links := ⟨(s.settle s.classify).links.entries⟩ } := rfl
    _ = s.written := by
        rw [entriesOf (formedSettle formed s.classify).own, settleAll formed.distinct formed.own]
        simp [written, Function.comp_def]

end LinkStore

structure LinkDiff.Covers (d : LinkDiff) (s : LinkStore) : Prop where
  toUpdate : ∀ l, l ∈ d.toUpdate ↔
    l ∈ s.all ∧ l.deleted = false ∧ l.saved = true ∧ l.updated = true
  toInsert : ∀ l, l ∈ d.toInsert ↔ l ∈ s.all ∧ l.deleted = false ∧ l.saved = false
  toDelete : ∀ l, l ∈ d.toDelete ↔ l ∈ s.all ∧ l.deleted = true ∧ l.saved = true
  apart : ((d.toUpdate ++ d.toInsert ++ d.toDelete).map Link.serial).Nodup

theorem LinkStore.classifyCovers {s : LinkStore} (distinct : Distinct s.all) :
    s.classify.Covers s where
  toUpdate := by simp [classify, and_assoc]
  toInsert := by simp [classify]
  toDelete := by simp [classify]
  apart := by
    have once : s.all.Nodup := distinct.serials.of_map
    refine List.Nodup.map_on ?_ ?_
    · intro l left m right same
      have inside : ∀ l ∈ s.classify.toUpdate ++ s.classify.toInsert ++ s.classify.toDelete,
          l ∈ s.all := by
        simp only [classify, List.mem_append, List.mem_filter]
        rintro l ((⟨member, -⟩ | ⟨member, -⟩) | ⟨member, -⟩) <;> exact member
      exact List.inj_on_of_nodup_map distinct.serials (inside l left) (inside m right) same
    · refine ((once.filter _).append (once.filter _) ?_).append (once.filter _) ?_
      · intro l left right
        simp at left right
        simp [left] at right
      · intro l left right
        simp [classify] at left right
        rcases left with update | insert
        · simp [update] at right
        · simp [insert] at right

end ModalNotes
