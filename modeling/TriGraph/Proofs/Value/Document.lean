import TriGraph.Proofs.Catalog
import TriGraph.Proofs.Document.Fields
import TriGraph.Proofs.Index.Agreement
import TriGraph.Value.Document

/-!
# Values read back from their documents

Each kind of value is written as a kind of document that is read as this kind only. The one exception is a float that
is no number or infinite: it is written as null, and then nothing around it is read.
-/

namespace TriGraph

namespace Value

/-! ## Values in order -/

inductive Ordered : Value → Prop where
  | text (s : String) : Ordered (.text s)
  | int (n : Int64) : Ordered (.int n)
  | float (x : Float) : Ordered (.float x)
  | bool (b : Bool) : Ordered (.bool b)
  | list {items : List Value} (h : ∀ v ∈ items, Ordered v) : Ordered (.list items)
  | object {fields : List (String × Value)} (hs : Catalog.Sorted fields) (h : ∀ f ∈ fields, Ordered f.2) :
      Ordered (.object fields)

theorem ordered_list {items : List Value} : (Value.list items).Ordered ↔ ∀ v ∈ items, v.Ordered :=
  ⟨fun h => by cases h with | list h => exact h, .list⟩

theorem ordered_object {fields : List (String × Value)} :
    (Value.object fields).Ordered ↔ Catalog.Sorted fields ∧ ∀ f ∈ fields, f.2.Ordered :=
  ⟨fun h => by cases h with | object hs h => exact ⟨hs, h⟩, fun h => .object h.1 h.2⟩

/-! ## Finite values -/

mutual
def isFinite : Value → Bool
  | .float x => Number.isFinite x
  | .list items => itemsFinite items
  | .object fields => fieldsFinite fields
  | _ => true
def itemsFinite : List Value → Bool
  | [] => true
  | v :: vs => v.isFinite && itemsFinite vs
def fieldsFinite : List (String × Value) → Bool
  | [] => true
  | (_, v) :: fs => v.isFinite && fieldsFinite fs
end

theorem itemsFinite_iff {vs : List Value} : itemsFinite vs = true ↔ ∀ v ∈ vs, v.isFinite = true := by
  induction vs with
  | nil => simp [itemsFinite]
  | cons v vs ih => simp [itemsFinite, ih]

theorem fieldsFinite_iff {fs : List (String × Value)} : fieldsFinite fs = true ↔ ∀ f ∈ fs, f.2.isFinite = true := by
  induction fs with
  | nil => simp [fieldsFinite]
  | cons f fs ih => simp [fieldsFinite, ih]

/-! ## There and back -/

mutual
theorem ofDocument?_toDocument (v : Value) (h : v.Ordered) :
    ofDocument? v.toDocument = if v.isFinite then some v else none := by
  cases v with
  | text s => rfl
  | bool b => rfl
  | int n => simp [toDocument, ofDocument?, isFinite, Index.Key.fitsInt64_toInt]
  | float x =>
    simp only [toDocument, isFinite]
    by_cases hx : Number.isFinite x = true <;> simp [ofDocument?, hx]
  | list items =>
    simp only [toDocument, ofDocument?, isFinite, ofItems?_toItems items (ordered_list.mp h)]
    by_cases hf : itemsFinite items = true <;> simp [hf]
  | object fields =>
    obtain ⟨hs, h⟩ := ordered_object.mp h
    simp only [toDocument, ofDocument?, isFinite, ofFields?_toFields fields h]
    by_cases hf : fieldsFinite fields = true <;> simp [hf, hs.ofList_eq]
theorem ofItems?_toItems (vs : List Value) (h : ∀ v ∈ vs, v.Ordered) :
    ofItems? (toItems vs) = if itemsFinite vs then some vs else none := by
  cases vs with
  | nil => rfl
  | cons v vs =>
    obtain ⟨hv, hvs⟩ := List.forall_mem_cons.mp h
    simp only [toItems, ofItems?, itemsFinite, ofDocument?_toDocument v hv, ofItems?_toItems vs hvs]
    by_cases hf : v.isFinite = true <;> by_cases hfs : itemsFinite vs = true <;> simp [hf, hfs]
theorem ofFields?_toFields (fs : List (String × Value)) (h : ∀ f ∈ fs, f.2.Ordered) :
    ofFields? (toFields fs) = if fieldsFinite fs then some fs else none := by
  cases fs with
  | nil => rfl
  | cons f fs =>
    obtain ⟨k, v⟩ := f
    obtain ⟨hv, hfs⟩ := List.forall_mem_cons.mp h
    simp only [toFields, ofFields?, fieldsFinite, ofDocument?_toDocument v hv, ofFields?_toFields fs hfs]
    by_cases hf : v.isFinite = true <;> by_cases hfs : fieldsFinite fs = true <;> simp [hf, hfs]
end

/-! ## Values of JSON -/

theorem plain_of_int {n : Int} (hlo : -2 ^ 63 ≤ n) (hhi : n < 2 ^ 64) {v : Value}
    (h : ofDocument? (.int n) = some v) : v.Ordered ∧ v.isFinite = true := by
  simp only [ofDocument?] at h
  split at h
  · cases h
    exact ⟨.int _, rfl⟩
  · cases h
    exact ⟨.float _, Number.isFinite_ofInt (by omega)⟩

mutual
theorem plain_of_ofDocument? (d : Document) (hd : d.IsJson) {v : Value} (h : ofDocument? d = some v) :
    v.Ordered ∧ v.isFinite = true := by
  cases hd with
  | null => cases h
  | bool b => cases h; exact ⟨.bool b, rfl⟩
  | text s => cases h; exact ⟨.text s, rfl⟩
  | int hlo hhi => exact plain_of_int hlo hhi h
  | float hx => cases h; exact ⟨.float _, hx⟩
  | @list items hitems =>
    obtain ⟨vs, hvs, rfl⟩ := Option.map_eq_some_iff.mp h
    have hall := plain_of_ofItems? items hitems hvs
    exact ⟨.list fun v hv => (hall v hv).1, itemsFinite_iff.mpr fun v hv => (hall v hv).2⟩
  | @object fields hfields =>
    obtain ⟨fs, hfs, rfl⟩ := Option.map_eq_some_iff.mp h
    have hall := plain_of_ofFields? fields hfields hfs
    have hmem : ∀ f ∈ Catalog.ofList fs, f.2.Ordered ∧ f.2.isFinite = true := fun f hf =>
      hall f (Catalog.mem_of_mem_ofList hf)
    exact ⟨.object (Catalog.Sorted.ofList fs) fun f hf => (hmem f hf).1, fieldsFinite_iff.mpr fun f hf => (hmem f hf).2⟩
theorem plain_of_ofItems? (ds : List Document) (hds : ∀ d ∈ ds, d.IsJson) {vs : List Value}
    (h : ofItems? ds = some vs) : ∀ v ∈ vs, v.Ordered ∧ v.isFinite = true := by
  cases ds with
  | nil =>
    cases h
    exact List.forall_mem_nil _
  | cons d ds =>
    obtain ⟨hd, hds⟩ := List.forall_mem_cons.mp hds
    simp only [ofItems?] at h
    split at h
    · rename_i v vs hv hvs
      cases h
      exact List.forall_mem_cons.mpr ⟨plain_of_ofDocument? d hd hv, plain_of_ofItems? ds hds hvs⟩
    · cases h
theorem plain_of_ofFields? (fs : List (String × Document)) (hfs : ∀ f ∈ fs, f.2.IsJson) {gs : List (String × Value)}
    (h : ofFields? fs = some gs) : ∀ g ∈ gs, g.2.Ordered ∧ g.2.isFinite = true := by
  cases fs with
  | nil =>
    cases h
    exact List.forall_mem_nil _
  | cons f fs =>
    obtain ⟨k, d⟩ := f
    obtain ⟨hd, hfs⟩ := List.forall_mem_cons.mp hfs
    simp only [ofFields?] at h
    split at h
    · rename_i v vs hv hvs
      cases h
      exact List.forall_mem_cons.mpr ⟨plain_of_ofDocument? d hd hv, plain_of_ofFields? fs hfs hvs⟩
    · cases h
end

end Value

namespace Properties

def Ordered (ps : Properties) : Prop :=
  (Value.object ps).Ordered

def isFinite (ps : Properties) : Bool :=
  (Value.object ps).isFinite

theorem ordered_nil : Ordered [] :=
  .object List.Pairwise.nil (List.forall_mem_nil _)

theorem Ordered.insert {ps : Properties} (h : ps.Ordered) (name : String) {v : Value} (hv : v.Ordered) :
    Ordered (Catalog.insert name v ps) := by
  obtain ⟨hs, h⟩ := Value.ordered_object.mp h
  refine .object (hs.insert name v) fun f hf => ?_
  rcases Catalog.mem_of_mem_insert hf with rfl | hf
  · exact hv
  · exact h f hf

theorem ofDocument?_toDocument {ps : Properties} (h : ps.Ordered) :
    ofDocument? ps.toDocument = if ps.isFinite then some ps else none := by
  obtain ⟨hs, h⟩ := Value.ordered_object.mp h
  simp only [toDocument, ofDocument?, isFinite, Value.isFinite, Value.ofFields?_toFields ps h]
  by_cases hf : Value.fieldsFinite ps = true <;> simp [hf, hs.ofList_eq]

theorem rereads : Document.Rereads ofDocument? toDocument := by
  intro d ps hd h
  cases d with
  | object fields =>
    have hv : Value.ofDocument? (.object fields) = some (.object ps) := by
      obtain ⟨fs, hfs, rfl⟩ := Option.map_eq_some_iff.mp h
      rw [Value.ofDocument?, hfs]
      rfl
    obtain ⟨hordered, hfinite⟩ := Value.plain_of_ofDocument? _ hd hv
    exact (ofDocument?_toDocument hordered).trans (if_pos hfinite)
  | _ => cases h

end Properties

end TriGraph
