import TriGraph.Proofs.Index.Upkeep

/-!
# Keys that an index has seen

An ordered index keeps the keys of every entity that it is given. So they are known by the entities given, whatever
was removed in between.
-/

namespace TriGraph.Index

def noted (i : Index) (e : Entity) : List Key :=
  match i.kind with
  | .hash => []
  | .ordered => i.keysOf e

theorem kind_of_mem_noted {i : Index} {e : Entity} {k : Key} (h : k ∈ i.noted e) : e.kind = i.target := by
  unfold noted at h
  split at h
  · cases h
  · exact kind_of_mem_keysOf h

theorem seen_add (i : Index) (e : Entity) : (i.add e).seen = OrderedSet.insertAll (i.noted e) i.seen := by
  unfold add noted
  cases i.kind <;> rfl

theorem seen_remove (i : Index) (e : Entity) : (i.remove e).seen = i.seen := by
  unfold remove
  split <;> rfl

theorem noted_of_blank_eq {i j : Index} (h : i.blank = j.blank) : i.noted = j.noted := by
  obtain ⟨hk, ht, hp⟩ := eq_of_blank_eq h
  funext e
  unfold noted keysOf
  rw [hk, ht, hp]

theorem sorted_add {i : Index} (h : OrderedSet.Sorted i.seen) (e : Entity) : OrderedSet.Sorted (i.add e).seen := by
  rw [seen_add]
  exact h.insertAll _

theorem sorted_foldl_add {i : Index} (h : OrderedSet.Sorted i.seen) (es : List Entity) :
    OrderedSet.Sorted (es.foldl add i).seen := by
  induction es generalizing i with
  | nil => exact h
  | cons e es ih => exact ih (sorted_add h e)

theorem ext_of_blank {i j : Index} (hb : i.blank = j.blank) (hk : i.buckets = j.buckets) (hs : i.seen = j.seen) :
    i = j := by
  obtain ⟨hkind, ht, hp⟩ := eq_of_blank_eq hb
  cases i
  cases j
  simp only at hkind ht hp hk hs
  rw [hkind, ht, hp, hk, hs]

end TriGraph.Index
