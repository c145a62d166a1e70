import TriGraph.Index
import TriGraph.Proofs.Catalog
import TriGraph.Proofs.Index.KeyOrder

/-!
# Buckets

Buckets with keys and ids in order and no bucket empty are known by which ids stand under which keys.
-/

namespace TriGraph.Index.Buckets

structure Canonical (b : Buckets) : Prop where
  keys : Catalog.Sorted b
  sets : ∀ e ∈ b, OrderedSet.Sorted e.2
  inhabited : ∀ e ∈ b, e.2 ≠ []

theorem Canonical.nil : Canonical [] :=
  ⟨List.Pairwise.nil, fun _ h => (nomatch h), fun _ h => (nomatch h)⟩

/-! ## Members -/

theorem mem_ids (b : Buckets) (hb : Catalog.Sorted b) {id : String} {k : Key} :
    id ∈ b.ids k ↔ ∃ ids, (k, ids) ∈ b ∧ id ∈ ids := by
  unfold ids
  constructor
  · intro h
    cases hk : Catalog.get? k b with
    | none => rw [hk] at h; cases h
    | some ids =>
      rw [hk] at h
      exact ⟨ids, Catalog.mem_of_get? hk, h⟩
  · intro h'
    obtain ⟨ids, hk, h⟩ := h'
    rw [hb.get?_of_mem hk]
    exact h

theorem mem_ids_add {b : Buckets} {id d : String} {k l : Key} :
    d ∈ (b.add k id).ids l ↔ (l = k ∧ d = id) ∨ d ∈ b.ids l := by
  unfold ids add
  by_cases hl : l = k
  · subst hl
    rw [Catalog.get?_insert_self, Option.getD_some, OrderedSet.mem_insert]
    simp [ids]
  · rw [Catalog.get?_insert_ne hl]
    simp [hl]

theorem mem_remove {b : Buckets} {id : String} {e : Key × List String} :
    e ∈ b.remove id ↔ ∃ ids, (e.1, ids) ∈ b ∧ e.2 = ids.filter (· != id) ∧ e.2 ≠ [] := by
  obtain ⟨k, s⟩ := e
  simp only [remove, List.mem_filter, List.mem_map, Prod.mk.injEq, Prod.exists, Bool.not_eq_true',
    List.isEmpty_eq_false_iff]
  constructor
  · intro h'
    obtain ⟨⟨l, ids, h, rfl, rfl⟩, hne⟩ := h'
    exact ⟨ids, h, rfl, hne⟩
  · intro h'
    obtain ⟨ids, h, rfl, hne⟩ := h'
    exact ⟨⟨k, ids, h, rfl, rfl⟩, hne⟩

/-! ## Upkeep -/

theorem Canonical.sorted_ids {b : Buckets} (h : Canonical b) (k : Key) : OrderedSet.Sorted (b.ids k) := by
  unfold ids
  cases hk : Catalog.get? k b with
  | none => exact List.Pairwise.nil
  | some ids => exact h.sets _ (Catalog.mem_of_get? hk)

theorem Canonical.add {b : Buckets} (h : Canonical b) (k : Key) (id : String) : Canonical (b.add k id) := by
  refine ⟨h.keys.insert _ _, fun e he => ?_, fun e he => ?_⟩
  · rcases Catalog.mem_of_mem_insert he with rfl | he
    · exact (h.sorted_ids k).insert id
    · exact h.sets e he
  · rcases Catalog.mem_of_mem_insert he with rfl | he
    · exact List.ne_nil_of_mem (OrderedSet.mem_insert.mpr (Or.inl rfl))
    · exact h.inhabited e he

theorem Canonical.remove {b : Buckets} (h : Canonical b) (id : String) : Canonical (b.remove id) := by
  refine ⟨?_, fun e he => ?_, fun e he => ?_⟩
  · refine List.Pairwise.filter _ (List.pairwise_map.mpr ?_)
    exact h.keys
  · obtain ⟨ids, hb, hs, -⟩ := mem_remove.mp he
    rw [hs]
    exact (h.sets _ hb).filter _
  · obtain ⟨ids, -, -, hne⟩ := mem_remove.mp he
    exact hne

theorem mem_ids_remove {b : Buckets} (h : Canonical b) {id d : String} {k : Key} :
    d ∈ (b.remove id).ids k ↔ d ∈ b.ids k ∧ d ≠ id := by
  rw [mem_ids _ (h.remove id).keys, mem_ids _ h.keys]
  constructor
  · intro h'
    obtain ⟨ids, hk, hd⟩ := h'
    obtain ⟨old, ho, hs, -⟩ := mem_remove.mp hk
    rw [show ids = old.filter (· != id) from hs, List.mem_filter, bne_iff_ne] at hd
    exact ⟨⟨old, ho, hd.1⟩, hd.2⟩
  · intro h'
    obtain ⟨⟨old, ho, hd⟩, hne⟩ := h'
    have hf : d ∈ old.filter (· != id) := List.mem_filter.mpr ⟨hd, bne_iff_ne.mpr hne⟩
    exact ⟨_, mem_remove.mpr ⟨old, ho, rfl, List.ne_nil_of_mem hf⟩, hf⟩

/-! ## Extensionality -/

theorem Canonical.sub {b c : Buckets} (hb : Canonical b) (hc : Canonical c)
    (h : ∀ k id, id ∈ b.ids k ↔ id ∈ c.ids k) {e : Key × List String} (he : e ∈ b) : e ∈ c := by
  obtain ⟨k, s⟩ := e
  have hs : b.ids k = s := by rw [ids, hb.keys.get?_of_mem he]; rfl
  obtain ⟨id, hid⟩ := List.exists_mem_of_ne_nil s (hb.inhabited _ he)
  obtain ⟨t, ht, -⟩ := (mem_ids c hc.keys).mp ((h k id).mp (hs ▸ hid))
  have hct : c.ids k = t := by rw [ids, hc.keys.get?_of_mem ht]; rfl
  have hst : s = t := (hb.sets _ he).ext (hc.sets _ ht) fun d => by rw [← hs, ← hct, h]
  rw [hst]
  exact ht

theorem Canonical.ext {b c : Buckets} (hb : Canonical b) (hc : Canonical c)
    (h : ∀ k id, id ∈ b.ids k ↔ id ∈ c.ids k) : b = c :=
  hb.keys.ext hc.keys fun _ => ⟨hb.sub hc h, hc.sub hb fun k id => (h k id).symm⟩

end TriGraph.Index.Buckets
