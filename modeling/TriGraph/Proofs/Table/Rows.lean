import TriGraph.Proofs.Table

/-!
# Tables as lists of rows

A table that began empty reads as a plain list of rows, each an id with its value. The ids do not show in the values,
so next to the table stands one that keeps whole rows: it takes the same writes, and its values are the list.
-/

namespace TriGraph

namespace Table

section
variable {α β : Type}

/-! ## Writes -/

inductive Write (α : Type) where
  | put (id : String) (x : α)
  | remove (id : String)
  | update (id : String) (f : α → α)

/-- After a put a write hands back what the slot of the id now holds, else what it held before. -/
def write (t : Table α) : Write α → Option α × Table α
  | .put id x => ((t.put id x).get? id, t.put id x)
  | .remove id => (t.get? id, t.remove id)
  | .update id f => (t.get? id, t.update id f)

def writeAll : List (Write α) → Table α → List (Option α) × Table α
  | [], t => ([], t)
  | w :: ws, t => ((t.write w).1 :: (writeAll ws (t.write w).2).1, (writeAll ws (t.write w).2).2)

end

end Table

/-! ## Rows -/

abbrev Rows (α : Type) := List (String × α)

namespace Rows

section
variable {α : Type}

def has (id : String) (rows : Rows α) : Bool :=
  rows.any (·.1 == id)

def put (id : String) (x : α) (rows : Rows α) : Rows α :=
  if has id rows then rows.map fun r => if r.1 = id then (id, x) else r else rows ++ [(id, x)]

def remove (id : String) (rows : Rows α) : Rows α :=
  rows.filter (·.1 ≠ id)

def update (id : String) (f : α → α) (rows : Rows α) : Rows α :=
  rows.map fun r => if r.1 = id then (r.1, f r.2) else r

def write (rows : Rows α) : Table.Write α → Option α × Rows α
  | .put id x => (some x, put id x rows)
  | .remove id => (rows.lookup id, remove id rows)
  | .update id f => (rows.lookup id, update id f rows)

def writeAll : List (Table.Write α) → Rows α → List (Option α) × Rows α
  | [], rows => ([], rows)
  | w :: ws, rows => ((write rows w).1 :: (writeAll ws (write rows w).2).1, (writeAll ws (write rows w).2).2)

def isArrival (rows : Rows α) : Table.Write α → Bool
  | .put id _ => !has id rows
  | _ => false

def arrivals : List (Table.Write α) → Rows α → Nat
  | [], _ => 0
  | w :: ws, rows => (if isArrival rows w then 1 else 0) + arrivals ws (write rows w).2

end

end Rows

namespace Table

section
variable {α β : Type}

theorem next_put (id : String) (x : α) (t : Table α) :
    (t.put id x).next = if t.contains id then t.next else t.next + 1 := by
  unfold put contains Catalog.contains
  split
  · simp [*]
  · simp [*]

/-! ## Tables of other values in the same slots -/

def map (f : α → β) (t : Table α) : Table β :=
  { next := t.next, slots := t.slots, entries := t.entries.map fun (n, x) => (n, f x) }

theorem get?_map (f : α → β) (id : String) (t : Table α) : (t.map f).get? id = (t.get? id).map f := by
  simp [get?, map, Catalog.get?_map, Option.map_bind]

theorem contains_map (f : α → β) (id : String) (t : Table α) : (t.map f).contains id = t.contains id := rfl

theorem values_map (f : α → β) (t : Table α) : (t.map f).values = t.values.map f := by
  simp [values, map]

theorem length_map (f : α → β) (t : Table α) : (t.map f).length = t.values.length := by
  simp [length, values, map]

theorem put_map (f : α → β) (id : String) (x : α) (t : Table α) : (t.map f).put id (f x) = (t.put id x).map f := by
  unfold put
  cases h : Catalog.get? id t.slots with
  | none => simp [map, h, Catalog.insert_map]
  | some n => simp [map, h, Catalog.insert_map]

theorem remove_map (f : α → β) (id : String) (t : Table α) : (t.map f).remove id = (t.remove id).map f := by
  unfold remove
  cases h : Catalog.get? id t.slots with
  | none => simp [map, h]
  | some n => simp [map, h, Catalog.erase_map]

theorem update_map {f : α → β} {g : α → α} {g' : β → β} (hg : ∀ x, g' (f x) = f (g x)) (id : String) (t : Table α) :
    (t.map f).update id g' = (t.update id g).map f := by
  unfold update
  cases h : Catalog.get? id t.slots with
  | none => simp [map, h]
  | some n => simp [map, h, Catalog.update_map hg]

/-! ## Tables of rows -/

theorem lookup_of_mem {rows : Rows α} (hd : (rows.map (·.1)).Nodup) {id : String} {x : α} (hx : (id, x) ∈ rows) :
    rows.lookup id = some x := by
  induction rows with
  | nil => cases hx
  | cons r rows ih =>
    obtain ⟨k, y⟩ := r
    obtain ⟨hk, hd⟩ := List.nodup_cons.mp hd
    by_cases hid : id = k
    · subst hid
      rcases List.mem_cons.mp hx with hx | hx
      · cases hx
        simp
      · exact absurd (List.mem_map_of_mem hx) hk
    · have hx : (id, x) ∈ rows := by simpa [hid] using hx
      have hbeq : (id == k) = false := by simpa using hid
      simp [List.lookup_cons, hbeq, ih hd hx]

namespace Keyed

variable {u : Table (String × α)} (h : u.Keyed Prod.fst)
include h

theorem lookup_values (id : String) : u.values.lookup id = (u.get? id).map (·.2) := by
  cases hr : u.get? id with
  | none =>
    refine List.lookup_eq_none_iff.mpr fun r hm => ?_
    have hne : id ≠ r.1 := by
      intro hid
      simp [hid, h.get?_of_mem hm] at hr
    simpa using hne
  | some r =>
    obtain ⟨hm, hid⟩ := h.get?_eq_some.mp hr
    subst hid
    exact lookup_of_mem h.distinct hm

theorem has_values (id : String) : Rows.has id u.values = u.contains id := by
  rw [Bool.eq_iff_iff, h.contains_iff]
  simp [Rows.has]

theorem values_put_row (id : String) (x : α) : (u.put id (id, x)).values = Rows.put id x u.values := by
  unfold Rows.put
  rw [h.has_values]
  by_cases hc : u.contains id = true
  · rw [if_pos hc]
    exact h.values_put_of_contains (a := (id, x)) hc
  · rw [if_neg hc]
    exact h.values_put_of_new (a := (id, x)) (by simpa using hc)

theorem update_row (id : String) (f : α → α) : (u.update id fun r => (r.1, f r.2)).Keyed Prod.fst ∧
    (u.update id fun r => (r.1, f r.2)).values = Rows.update id f u.values := by
  have hf : ∀ r : String × α, (r.1, f r.2).1 = r.1 := fun _ => rfl
  exact ⟨h.update hf id, h.values_update hf id⟩

end Keyed

/-! ## Tables and lists -/

def Keeps (t : Table α) (rows : Rows α) : Prop :=
  ∃ u : Table (String × α), u.Keyed Prod.fst ∧ u.map (·.2) = t ∧ u.values = rows

namespace Keeps

theorem empty : Keeps ({} : Table α) [] :=
  ⟨{}, Keyed.empty, rfl, rfl⟩

section
variable {t : Table α} {rows : Rows α} (h : t.Keeps rows)
include h

theorem get? (id : String) : t.get? id = rows.lookup id := by
  obtain ⟨u, hu, rfl, rfl⟩ := h
  rw [get?_map, hu.lookup_values]

theorem contains (id : String) : t.contains id = Rows.has id rows := by
  obtain ⟨u, hu, rfl, rfl⟩ := h
  rw [contains_map, hu.has_values]

theorem values : t.values = rows.map (·.2) := by
  obtain ⟨u, hu, rfl, rfl⟩ := h
  exact values_map _ u

theorem length : t.length = rows.length := by
  obtain ⟨u, hu, rfl, rfl⟩ := h
  exact length_map _ u

theorem slot_lt : ∀ e ∈ t.slots, e.2 < t.next := by
  obtain ⟨u, hu, rfl, rfl⟩ := h
  intro e he
  obtain ⟨x, hx, -⟩ := (hu.linked e.1 e.2).mp he
  exact hu.below _ hx

theorem put (id : String) (x : α) : (t.put id x).Keeps (Rows.put id x rows) := by
  obtain ⟨u, hu, rfl, rfl⟩ := h
  exact ⟨u.put id (id, x), hu.put (id, x), (put_map _ id (id, x) u).symm, hu.values_put_row id x⟩

theorem remove (id : String) : (t.remove id).Keeps (Rows.remove id rows) := by
  obtain ⟨u, hu, rfl, rfl⟩ := h
  exact ⟨u.remove id, hu.remove id, (remove_map _ id u).symm, hu.values_remove id⟩

theorem update (id : String) (f : α → α) : (t.update id f).Keeps (Rows.update id f rows) := by
  obtain ⟨u, hu, rfl, rfl⟩ := h
  obtain ⟨hk, hv⟩ := hu.update_row id f
  have hf : ∀ r : String × α, f r.2 = (r.1, f r.2).2 := fun _ => rfl
  exact ⟨_, hk, (update_map hf id u).symm, hv⟩

theorem write (w : Write α) : (t.write w).2.Keeps (Rows.write rows w).2 := by
  cases w with
  | put id x => exact h.put id x
  | remove id => exact h.remove id
  | update id f => exact h.update id f

/-! ## What a write hands back -/

theorem reply_eq (w : Write α) : (t.write w).1 = (Rows.write rows w).1 := by
  cases w with
  | put id x => exact get?_put_self ..
  | remove id => exact h.get? id
  | update id f => exact h.get? id

theorem next_write (w : Write α) :
    (t.write w).2.next = t.next + if Rows.isArrival rows w then 1 else 0 := by
  cases w with
  | put id x =>
    simp only [Table.write, next_put, Rows.isArrival, ← h.contains]
    cases t.contains id <;> simp
  | remove id =>
    simp only [Table.write, Table.remove, Rows.isArrival]
    split <;> simp
  | update id f =>
    simp only [Table.write, Table.update, Rows.isArrival]
    split <;> simp

theorem writeAll (ws : List (Write α)) : (t.writeAll ws).2.Keeps (Rows.writeAll ws rows).2 ∧
    (t.writeAll ws).1 = (Rows.writeAll ws rows).1 ∧ (t.writeAll ws).2.next = t.next + Rows.arrivals ws rows := by
  induction ws generalizing t rows with
  | nil => exact ⟨h, rfl, rfl⟩
  | cons w ws ih =>
    obtain ⟨hkeeps, hreplies, hnext⟩ := ih (h.write w)
    refine ⟨hkeeps, ?_, ?_⟩
    · simp [Table.writeAll, Rows.writeAll, h.reply_eq, hreplies]
    · simp [Table.writeAll, Rows.arrivals, hnext, h.next_write, Nat.add_assoc]

end

end Keeps

structure ReadsAs (t : Table α) (rows : Rows α) : Prop where
  get? : ∀ id, t.get? id = rows.lookup id
  contains : ∀ id, t.contains id = Rows.has id rows
  values : t.values = rows.map (·.2)
  length : t.length = rows.length

/-- After any writes to an empty table it reads as the list after the same writes, and each write has handed back what
it does for the list. The counter of slots is the number of new ids. -/
theorem writeAll_readsAs (ws : List (Write α)) :
    (({} : Table α).writeAll ws).1 = (Rows.writeAll ws []).1 ∧
      (({} : Table α).writeAll ws).2.ReadsAs (Rows.writeAll ws []).2 ∧
      (({} : Table α).writeAll ws).2.next = Rows.arrivals ws [] ∧
      ∀ e ∈ (({} : Table α).writeAll ws).2.slots, e.2 < Rows.arrivals ws [] := by
  obtain ⟨hkeeps, hreplies, hnext⟩ := Keeps.empty.writeAll ws
  have hnext : (({} : Table α).writeAll ws).2.next = Rows.arrivals ws [] := by simpa using hnext
  exact ⟨hreplies, ⟨hkeeps.get?, hkeeps.contains, hkeeps.values, hkeeps.length⟩, hnext, hnext ▸ hkeeps.slot_lt⟩

-- an id that comes back goes to the end
example : (({} : Table Nat).writeAll [.put "a" 1, .put "b" 2, .put "a" 3, .remove "a", .put "a" 4, .update "b" (· + 5)]).2.values =
    [7, 4] := by
  decide +kernel

end

end Table

end TriGraph
