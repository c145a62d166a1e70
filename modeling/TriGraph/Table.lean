import TriGraph.Catalog

/-!
# Tables

Each id is given a slot, and the entities stand in the order of the slots. Replacing an entity keeps its slot; an id
that was removed and put in again gets a new one at the end.
-/

namespace TriGraph

structure Table (α : Type) where
  next : Nat := 0
  slots : Catalog String Nat := []
  entries : Catalog Nat α := []

namespace Table

variable {α : Type}

def put (id : String) (x : α) (t : Table α) : Table α :=
  match Catalog.get? id t.slots with
  | some n => { t with entries := Catalog.insert n x t.entries }
  | none =>
    { next := t.next + 1
      slots := Catalog.insert id t.next t.slots
      entries := Catalog.insert t.next x t.entries }

def get? (id : String) (t : Table α) : Option α :=
  (Catalog.get? id t.slots).bind fun n => Catalog.get? n t.entries

def contains (id : String) (t : Table α) : Bool :=
  Catalog.contains id t.slots

def remove (id : String) (t : Table α) : Table α :=
  match Catalog.get? id t.slots with
  | some n => { t with slots := Catalog.erase id t.slots, entries := Catalog.erase n t.entries }
  | none => t

def update (id : String) (f : α → α) (t : Table α) : Table α :=
  match Catalog.get? id t.slots with
  | some n => { t with entries := Catalog.update n f t.entries }
  | none => t

def values (t : Table α) : List α :=
  t.entries.map (·.2)

def length (t : Table α) : Nat :=
  t.entries.length

def ids (t : Table α) : List String :=
  (t.slots.mergeSort fun a b => a.2 ≤ b.2).map (·.1)

theorem mem_ids_of_contains {id : String} {t : Table α} (h : t.contains id = true) :
    id ∈ t.ids := by
  have hk : id ∈ Catalog.keys t.slots := Catalog.mem_keys_of_contains h
  obtain ⟨r, hr, hid⟩ := List.mem_map.mp hk
  exact List.mem_map.mpr ⟨r, List.mem_mergeSort.mpr hr, hid⟩

end Table

end TriGraph
