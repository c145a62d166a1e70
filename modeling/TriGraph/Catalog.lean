/-!
# Catalogs

A catalog is a list of keyed entries in the order of their keys, each key at most once, so that two catalogs with the
same content are the same list.
-/

namespace TriGraph

abbrev Catalog (κ α : Type) := List (κ × α)

namespace Catalog

variable {κ α : Type} [Ord κ]

def insert (k : κ) (x : α) : Catalog κ α → Catalog κ α
  | [] => [(k, x)]
  | (l, y) :: r =>
    match compare k l with
    | .lt => (k, x) :: (l, y) :: r
    | .eq => (k, x) :: r
    | .gt => (l, y) :: insert k x r

def get? (k : κ) : Catalog κ α → Option α
  | [] => none
  | (l, y) :: r => if compare k l = .eq then some y else get? k r

def erase (k : κ) : Catalog κ α → Catalog κ α
  | [] => []
  | (l, y) :: r => if compare k l = .eq then r else (l, y) :: erase k r

def update (k : κ) (f : α → α) : Catalog κ α → Catalog κ α
  | [] => []
  | (l, y) :: r => if compare k l = .eq then (l, f y) :: r else (l, y) :: update k f r

def contains (k : κ) (c : Catalog κ α) : Bool :=
  (get? k c).isSome

/-- The last entry with a key counts. -/
def ofList (es : List (κ × α)) : Catalog κ α :=
  es.foldl (fun c e => insert e.1 e.2 c) []

def keys (c : Catalog κ α) : List κ :=
  c.map (·.1)

theorem mem_keys_of_contains [Std.LawfulEqOrd κ] {k : κ} {c : Catalog κ α} (h : c.contains k = true) :
    k ∈ c.keys := by
  induction c with
  | nil => cases h
  | cons e c ih =>
    obtain ⟨l, y⟩ := e
    unfold contains get? at h
    split at h
    · rename_i hk
      rw [Std.LawfulEqOrd.eq_of_compare hk]
      exact List.mem_cons_self ..
    · exact List.mem_cons_of_mem _ (ih h)

end Catalog

/-! ## Sets in order -/

namespace OrderedSet

variable {κ : Type} [Ord κ]

def insert (k : κ) : List κ → List κ
  | [] => [k]
  | l :: r =>
    match compare k l with
    | .lt => k :: l :: r
    | .eq => l :: r
    | .gt => l :: insert k r

def ofList (ks : List κ) : List κ :=
  ks.foldl (fun s k => insert k s) []

end OrderedSet

end TriGraph
