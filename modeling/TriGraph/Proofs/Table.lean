import Mathlib.Data.List.Induction
import TriGraph.Proofs.Catalog
import TriGraph.Table

/-!
# Keyed tables

In a keyed table an id has a slot just when an entity with that id stands in it, and all slots in use lie below the
next one. So putting and removing act on the list of values by their ids.
-/

namespace TriGraph.Table

section
variable {α : Type}

structure Keyed (key : α → String) (t : Table α) : Prop where
  slots : Catalog.Sorted t.slots
  entries : Catalog.Sorted t.entries
  below : ∀ e ∈ t.entries, e.1 < t.next
  linked : ∀ id n, (id, n) ∈ t.slots ↔ ∃ x, (n, x) ∈ t.entries ∧ key x = id

theorem mem_values {x : α} {t : Table α} : x ∈ t.values ↔ ∃ n, (n, x) ∈ t.entries := by
  simp [values]

theorem contains_of_get? {id : String} {x : α} {t : Table α} (h : t.get? id = some x) : t.contains id = true := by
  obtain ⟨n, hn, -⟩ := Option.bind_eq_some_iff.mp h
  simp [contains, Catalog.contains, hn]

theorem contains_put {id k : String} {x : α} {t : Table α} :
    (t.put k x).contains id = true ↔ id = k ∨ t.contains id = true := by
  unfold put contains Catalog.contains
  split
  · rename_i n hn
    refine (or_iff_right_of_imp fun hid => ?_).symm
    simp [hid, hn]
  · by_cases hid : id = k
    · subst hid
      simp [Catalog.get?_insert_self]
    · simp [Catalog.get?_insert_ne hid, hid]

theorem get?_put_self (id : String) (x : α) (t : Table α) : (t.put id x).get? id = some x := by
  unfold put get?
  cases h : Catalog.get? id t.slots with
  | none => simp [Catalog.get?_insert_self]
  | some n => simp [h, Catalog.get?_insert_self]

def putAll (key : α → String) (xs : List α) (t : Table α) : Table α :=
  xs.foldl (fun t x => t.put (key x) x) t

namespace Keyed

variable {key : α → String} {t : Table α}

theorem empty : Keyed key {} := by
  refine ⟨List.Pairwise.nil, List.Pairwise.nil, fun _ h => (nomatch h), fun id n => ?_⟩
  constructor
  · intro h
    cases h
  · intro h'
    obtain ⟨x, h, -⟩ := h'
    cases h

/-! ## Reading -/

theorem slot_inj (h : Keyed key t) {m n : Nat} {x y : α} (hx : (m, x) ∈ t.entries) (hy : (n, y) ∈ t.entries)
    (hk : key x = key y) : m = n :=
  h.slots.key_inj ((h.linked (key y) m).mpr ⟨x, hx, hk⟩) ((h.linked (key y) n).mpr ⟨y, hy, rfl⟩)

theorem eq_of_key_eq (h : Keyed key t) {x y : α} (hx : x ∈ t.values) (hy : y ∈ t.values) (hk : key x = key y) :
    x = y := by
  obtain ⟨m, hm⟩ := mem_values.mp hx
  obtain ⟨n, hn⟩ := mem_values.mp hy
  have hmn := h.slot_inj hm hn hk
  subst hmn
  exact h.entries.key_inj hm hn

theorem get?_eq_some (h : Keyed key t) {id : String} {x : α} :
    t.get? id = some x ↔ x ∈ t.values ∧ key x = id := by
  rw [get?, mem_values, Option.bind_eq_some_iff]
  simp only [h.slots.get?_eq_some, h.entries.get?_eq_some]
  constructor
  · intro h'
    obtain ⟨n, hn, hx⟩ := h'
    obtain ⟨y, hy, hid⟩ := (h.linked id n).mp hn
    rw [h.entries.key_inj hx hy]
    exact ⟨⟨n, hy⟩, hid⟩
  · intro h'
    obtain ⟨⟨n, hn⟩, hid⟩ := h'
    exact ⟨n, (h.linked id n).mpr ⟨x, hn, hid⟩, hn⟩

theorem get?_of_mem (h : Keyed key t) {x : α} (hx : x ∈ t.values) : t.get? (key x) = some x :=
  h.get?_eq_some.mpr ⟨hx, rfl⟩

theorem contains_iff (h : Keyed key t) {id : String} :
    t.contains id = true ↔ ∃ x ∈ t.values, key x = id := by
  rw [contains, Catalog.contains, Option.isSome_iff_exists]
  simp only [h.slots.get?_eq_some, h.linked, mem_values]
  constructor
  · intro h'
    obtain ⟨n, x, hx, hid⟩ := h'
    exact ⟨x, ⟨n, hx⟩, hid⟩
  · intro h'
    obtain ⟨x, ⟨n, hx⟩, hid⟩ := h'
    exact ⟨n, x, hx, hid⟩

theorem get?_eq_none (h : Keyed key t) {id : String} :
    Catalog.get? id t.slots = none ↔ ∀ x ∈ t.values, key x ≠ id := by
  rw [← Option.not_isSome_iff_eq_none]
  refine (not_congr h.contains_iff).trans ?_
  simp

theorem get?_of_values_filter (h : Keyed key t) {u : Table α} (hu : Keyed key u) {p : α → Bool}
    (hv : u.values = t.values.filter p) (id : String) : u.get? id = (t.get? id).filter p := by
  refine Option.ext fun x => ?_
  rw [Option.filter_eq_some_iff, h.get?_eq_some, hu.get?_eq_some, hv, List.mem_filter]
  exact and_right_comm

theorem distinct (h : Keyed key t) : (t.values.map key).Nodup := by
  refine List.pairwise_map.mpr (List.pairwise_map.mpr (h.entries.imp_of_mem fun {a b} ha hb hab hk => ?_))
  obtain ⟨m, x⟩ := a
  obtain ⟨n, y⟩ := b
  have hmn : m = n := h.slot_inj ha hb hk
  subst hmn
  exact OrderedSet.compare_ne_lt m hab

/-! ## Putting -/

theorem put (h : Keyed key t) (a : α) : Keyed key (t.put (key a) a) := by
  unfold Table.put
  split
  · rename_i n hn
    have hn := h.slots.get?_eq_some.mp hn
    obtain ⟨y, hy, hyk⟩ := (h.linked _ n).mp hn
    refine ⟨h.slots, h.entries.insert n a, fun e he => ?_, fun id m => ?_⟩
    · rcases h.entries.mem_insert.mp he with rfl | ⟨he, -⟩
      · exact h.below (n, y) hy
      · exact h.below e he
    · simp only [h.entries.mem_insert, h.linked id m, Prod.mk.injEq]
      constructor
      · intro h'
        obtain ⟨x, hx, hid⟩ := h'
        by_cases hm : m = n
        · subst hm
          rw [h.entries.key_inj hx hy] at hid
          exact ⟨a, Or.inl ⟨rfl, rfl⟩, hyk.symm.trans hid⟩
        · exact ⟨x, Or.inr ⟨hx, hm⟩, hid⟩
      · intro h'
        rcases h' with ⟨x, ⟨rfl, rfl⟩ | ⟨hx, -⟩, hid⟩
        · exact ⟨y, hy, hyk.trans hid⟩
        · exact ⟨x, hx, hid⟩
  · rename_i hn
    have hnew := h.get?_eq_none.mp hn
    refine ⟨h.slots.insert _ _, h.entries.insert _ _, fun e he => ?_, fun id m => ?_⟩
    · rcases h.entries.mem_insert.mp he with rfl | ⟨he, -⟩
      · exact Nat.lt_succ_self _
      · exact Nat.lt_succ_of_lt (h.below e he)
    · simp only [h.slots.mem_insert, h.entries.mem_insert, h.linked id m, Prod.mk.injEq]
      constructor
      · intro h'
        rcases h' with ⟨rfl, rfl⟩ | ⟨⟨x, hx, hid⟩, -⟩
        · exact ⟨a, Or.inl ⟨rfl, rfl⟩, rfl⟩
        · exact ⟨x, Or.inr ⟨hx, Nat.ne_of_lt (h.below _ hx)⟩, hid⟩
      · intro h'
        rcases h' with ⟨x, ⟨rfl, rfl⟩ | ⟨hx, -⟩, rfl⟩
        · exact Or.inl ⟨rfl, rfl⟩
        · exact Or.inr ⟨⟨x, hx, rfl⟩, hnew x (mem_values.mpr ⟨m, hx⟩)⟩

theorem values_put_of_contains (h : Keyed key t) {a : α} (ha : t.contains (key a) = true) :
    (t.put (key a) a).values = t.values.map fun x => if key x = key a then a else x := by
  unfold Table.put
  split
  · rename_i n hn
    obtain ⟨y, hy, hyk⟩ := (h.linked _ n).mp (h.slots.get?_eq_some.mp hn)
    simp only [values, h.entries.insert_eq_map hy, List.map_map]
    refine List.map_congr_left fun ⟨m, x⟩ hx => ?_
    simp only [Function.comp_apply]
    by_cases hm : m = n
    · subst hm
      rw [if_pos rfl, h.entries.key_inj hx hy, if_pos hyk]
    · have hne : key x ≠ key a := fun hk => hm (h.slot_inj hx hy (hk.trans hyk.symm))
      rw [if_neg hm, if_neg hne]
  · rename_i hn
    rw [contains, Catalog.contains, hn] at ha
    cases ha

theorem values_put_of_new (h : Keyed key t) {a : α} (ha : t.contains (key a) = false) :
    (t.put (key a) a).values = t.values ++ [a] := by
  unfold Table.put
  split
  · rename_i n hn
    rw [contains, Catalog.contains, hn] at ha
    cases ha
  · have hlast : ∀ e ∈ t.entries, compare t.next e.1 = .gt := fun e he => Nat.compare_eq_gt.mpr (h.below e he)
    simp only [values, Catalog.insert_eq_append hlast, List.map_append]
    rfl

theorem mem_values_put (h : Keyed key t) {a x : α} :
    x ∈ (t.put (key a) a).values ↔ x = a ∨ (x ∈ t.values ∧ key x ≠ key a) := by
  cases ha : t.contains (key a) with
  | true =>
    rw [h.values_put_of_contains ha, List.mem_map]
    constructor
    · intro h'
      obtain ⟨y, hy, rfl⟩ := h'
      split
      · exact Or.inl rfl
      · rename_i hk
        exact Or.inr ⟨hy, hk⟩
    · intro h'
      rcases h' with rfl | ⟨hx, hk⟩
      · obtain ⟨y, hy, hk⟩ := h.contains_iff.mp ha
        exact ⟨y, hy, if_pos hk⟩
      · exact ⟨x, hx, if_neg hk⟩
  | false =>
    have hnew : x ∈ t.values → key x ≠ key a := fun hx hk => by
      rw [h.contains_iff.mpr ⟨x, hx, hk⟩] at ha
      cases ha
    rw [h.values_put_of_new ha, List.mem_append, List.mem_singleton, or_comm]
    exact or_congr_right ⟨fun hx => ⟨hx, hnew hx⟩, fun hx => hx.1⟩

theorem map_key_values_put (h : Keyed key t) (a : α) : (t.put (key a) a).values.map key =
    if (t.values.map key).contains (key a) then t.values.map key else t.values.map key ++ [key a] := by
  have hcontains : (t.values.map key).contains (key a) = t.contains (key a) := by
    rw [Bool.eq_iff_iff, List.contains_iff_mem, List.mem_map, h.contains_iff]
  rw [hcontains]
  cases ha : t.contains (key a) with
  | true =>
    rw [if_pos rfl, h.values_put_of_contains ha, List.map_map]
    refine List.map_congr_left fun x _ => ?_
    by_cases hk : key x = key a
    · simp [hk]
    · simp [hk]
  | false =>
    rw [if_neg Bool.false_ne_true, h.values_put_of_new ha, List.map_append]
    rfl

/-! ## Putting again -/

theorem put_put (h : Keyed key t) {a b : α} (hk : key a = key b) :
    (t.put (key a) a).put (key b) b = t.put (key b) b := by
  unfold Table.put
  rw [hk]
  cases hn : Catalog.get? (key b) t.slots with
  | some n => simp only [hn, h.entries.insert_insert_self]
  | none => simp only [Catalog.get?_insert_self, h.entries.insert_insert_self]

theorem put_comm (h : Keyed key t) {a b : α} (hb : t.contains (key b) = true) (hk : key a ≠ key b) :
    (t.put (key a) a).put (key b) b = (t.put (key b) b).put (key a) a := by
  obtain ⟨m, hm⟩ := Option.isSome_iff_exists.mp hb
  obtain ⟨y, hy, hyk⟩ := (h.linked _ m).mp (h.slots.get?_eq_some.mp hm)
  unfold Table.put
  simp only [hm]
  cases hn : Catalog.get? (key a) t.slots with
  | some n =>
    obtain ⟨z, hz, hzk⟩ := (h.linked _ n).mp (h.slots.get?_eq_some.mp hn)
    have hmn : m ≠ n := by
      rintro rfl
      rw [h.entries.key_inj hz hy] at hzk
      exact hk (hzk.symm.trans hyk)
    simp only [hm, h.entries.insert_comm hmn]
  | none =>
    have hmn : m ≠ t.next := Nat.ne_of_lt (h.below _ hy)
    simp only [Catalog.get?_insert_ne hk.symm, hm, h.entries.insert_comm hmn]

theorem putAll (h : Keyed key t) (xs : List α) : Keyed key (t.putAll key xs) := by
  induction xs generalizing t with
  | nil => exact h
  | cons x xs ih => exact ih (h.put x)

theorem contains_putAll {id : String} {xs : List α} :
    (t.putAll key xs).contains id = true ↔ (∃ x ∈ xs, key x = id) ∨ t.contains id = true := by
  induction xs generalizing t with
  | nil => simp [Table.putAll]
  | cons x xs ih =>
    refine (ih (t := t.put (key x) x)).trans ?_
    rw [contains_put, List.exists_mem_cons_iff, @eq_comm _ id]
    exact or_left_comm.trans or_assoc.symm

theorem map_key_values_putAll (h : Keyed key t) (xs : List α) : (t.putAll key xs).values.map key =
    (xs.map key).foldl (fun ks k => if ks.contains k then ks else ks ++ [k]) (t.values.map key) := by
  induction xs generalizing t with
  | nil => rfl
  | cons x xs ih =>
    rw [List.map_cons, List.foldl_cons, ← h.map_key_values_put]
    exact ih (h.put x)

theorem mem_values_putAll_empty {xs : List α} {x : α} :
    x ∈ (({} : Table α).putAll key xs).values ↔ xs.reverse.find? (key · == key x) = some x := by
  induction xs using List.reverseRecOn with
  | nil => exact iff_of_false List.not_mem_nil (Option.some_ne_none x).symm
  | append_singleton xs y ih =>
    have hput : (({} : Table α).putAll key (xs ++ [y])) = (({} : Table α).putAll key xs).put (key y) y :=
      List.foldl_append ..
    rw [hput, (Keyed.empty.putAll xs).mem_values_put, ih, List.reverse_append, List.reverse_singleton,
      List.singleton_append, List.find?_cons]
    by_cases hk : key y = key x
    · have hbeq : (key y == key x) = true := beq_iff_eq.mpr hk
      rw [hbeq]
      exact ⟨fun h => h.elim (fun h => congrArg some h.symm) fun h => absurd hk.symm h.2,
        fun h => Or.inl (Option.some.inj h).symm⟩
    · have hbeq : (key y == key x) = false := beq_eq_false_iff_ne.mpr hk
      rw [hbeq]
      refine ⟨fun h => ?_, fun h => Or.inr ⟨h, Ne.symm hk⟩⟩
      rcases h with rfl | ⟨h, -⟩
      · exact absurd rfl hk
      · exact h

/-- What is put before many may be left out if an entity with its id is put after them. -/
theorem put_putAll_put (h : Keyed key t) {xs : List α} (hxs : ∀ x ∈ xs, t.contains (key x) = true) (a : α) :
    ((t.put (key a) a).putAll key xs).put (key a) a = (t.putAll key xs).put (key a) a := by
  induction xs generalizing t with
  | nil => exact h.put_put rfl
  | cons x xs ih =>
    obtain ⟨hx, hxs⟩ := List.forall_mem_cons.mp hxs
    change (((t.put (key a) a).put (key x) x).putAll key xs).put (key a) a =
      ((t.put (key x) x).putAll key xs).put (key a) a
    by_cases hk : key a = key x
    · rw [h.put_put hk]
    · rw [h.put_comm hx hk]
      exact ih (h.put x) fun y hy => contains_put.mpr (Or.inr (hxs y hy))

theorem putAll_again (h : Keyed key t) (xs : List α) : (t.putAll key xs).putAll key xs = t.putAll key xs := by
  -- from behind: the last entity moves in front of the second round, which then undoes itself
  induction xs using List.reverseRecOn with
  | nil => rfl
  | append_singleton xs a ih =>
    have happ : ∀ u : Table α, u.putAll key (xs ++ [a]) = (u.putAll key xs).put (key a) a := by
      intro u
      simp [Table.putAll]
    have hxs : ∀ x ∈ xs, (t.putAll key xs).contains (key x) = true :=
      fun x hx => contains_putAll.mpr (Or.inl ⟨x, hx, rfl⟩)
    rw [happ, happ, (h.putAll xs).put_putAll_put hxs, ih]

/-! ## Updating -/

theorem update_eq_put (h : Keyed key t) {id : String} {x : α} (hx : t.get? id = some x) (f : α → α) :
    t.update id f = t.put id (f x) := by
  obtain ⟨n, hn, hx⟩ := Option.bind_eq_some_iff.mp hx
  have hmem := h.entries.get?_eq_some.mp hx
  simp [Table.update, Table.put, hn, h.entries.update_eq_insert hmem]

theorem update_of_absent (h : Keyed key t) {id : String} (hid : ∀ x ∈ t.values, key x ≠ id) (f : α → α) :
    t.update id f = t := by
  simp [Table.update, h.get?_eq_none.mpr hid]

section
variable (h : Keyed key t) {f : α → α} (hf : ∀ x, key (f x) = key x) (id : String)
include h hf

theorem update_cases : (t.update id f = t ∧ ∀ x ∈ t.values, key x ≠ id) ∨
    ∃ x ∈ t.values, key x = id ∧ t.update id f = t.put (key (f x)) (f x) := by
  by_cases hid : ∃ x ∈ t.values, key x = id
  · obtain ⟨x, hx, hk⟩ := hid
    subst hk
    refine Or.inr ⟨x, hx, rfl, ?_⟩
    rw [hf, h.update_eq_put (h.get?_of_mem hx)]
  · have hid : ∀ x ∈ t.values, key x ≠ id := by simpa using hid
    exact Or.inl ⟨h.update_of_absent hid f, hid⟩

theorem update : Keyed key (t.update id f) := by
  rcases h.update_cases hf id with ⟨he, -⟩ | ⟨x, -, -, he⟩
  · rw [he]
    exact h
  · rw [he]
    exact h.put (f x)

theorem values_update : (t.update id f).values = t.values.map fun x => if key x = id then f x else x := by
  rcases h.update_cases hf id with ⟨he, hid⟩ | ⟨x, hx, hk, he⟩
  · rw [he]
    refine (List.map_id' _).symm.trans (List.map_congr_left fun x hx => ?_)
    simp [hid x hx]
  · subst hk
    have hc : t.contains (key (f x)) = true := h.contains_iff.mpr ⟨x, hx, (hf x).symm⟩
    rw [he, h.values_put_of_contains hc]
    refine List.map_congr_left fun y hy => ?_
    rw [hf]
    by_cases hk : key y = key x
    · simp [h.eq_of_key_eq hy hx hk]
    · simp [hk]

end

/-! ## Removing -/

theorem remove (h : Keyed key t) (id : String) : Keyed key (t.remove id) := by
  unfold Table.remove
  split
  · rename_i n hn
    obtain ⟨y, hy, hyk⟩ := (h.linked _ n).mp (h.slots.get?_eq_some.mp hn)
    refine ⟨h.slots.erase id, h.entries.erase n, fun e he => h.below e (h.entries.mem_erase.mp he).1, fun k m => ?_⟩
    simp only [h.slots.mem_erase, h.entries.mem_erase, h.linked k m]
    constructor
    · intro h'
      obtain ⟨⟨x, hx, rfl⟩, hne⟩ := h'
      refine ⟨x, ⟨hx, fun hm => hne ?_⟩, rfl⟩
      subst hm
      rw [h.entries.key_inj hx hy, hyk]
    · intro h'
      obtain ⟨x, ⟨hx, hm⟩, rfl⟩ := h'
      exact ⟨⟨x, hx, rfl⟩, fun hk => hm (h.slot_inj hx hy (hk.trans hyk.symm))⟩
  · exact h

theorem values_remove (h : Keyed key t) (id : String) : (t.remove id).values = t.values.filter (key · ≠ id) := by
  unfold Table.remove
  split
  · rename_i n hn
    obtain ⟨y, hy, hyk⟩ := (h.linked _ n).mp (h.slots.get?_eq_some.mp hn)
    simp only [values, h.entries.erase_eq_filter, List.filter_map]
    refine congrArg _ (List.filter_congr fun ⟨m, x⟩ hx => ?_)
    refine decide_eq_decide.mpr (not_congr ⟨fun hm => ?_, fun hk => h.slot_inj hx hy (hk.trans hyk.symm)⟩)
    have hm : m = n := hm
    subst hm
    rw [h.entries.key_inj hx hy]
    exact hyk
  · rename_i hn
    have hnone := h.get?_eq_none.mp hn
    exact (List.filter_eq_self.mpr fun x hx => decide_eq_true (hnone x hx)).symm

theorem mem_values_remove (h : Keyed key t) {id : String} {x : α} :
    x ∈ (t.remove id).values ↔ x ∈ t.values ∧ key x ≠ id := by
  rw [h.values_remove, List.mem_filter, decide_eq_true_iff]

end Keyed

end

end TriGraph.Table
