import Mathlib.Data.List.Sort
import TriGraph.Catalog

/-!
# Catalogs in order

A catalog is known by what it gives for each key, and a set in order by its members.
-/

namespace TriGraph

/-! ## Sets in order -/

namespace OrderedSet

section
variable {κ : Type} [Ord κ]

def Sorted (s : List κ) : Prop :=
  s.Pairwise fun a b => compare a b = .lt

def insertAll (ks : List κ) (s : List κ) : List κ :=
  ks.foldl (fun s k => insert k s) s

theorem mem_insert [Std.LawfulEqOrd κ] {k a : κ} {s : List κ} : a ∈ insert k s ↔ a = k ∨ a ∈ s := by
  induction s with
  | nil => simp [insert]
  | cons l r ih =>
    rw [insert]
    cases hc : compare k l with
    | lt => simp
    | eq =>
      have hk : k = l := Std.LawfulEqOrd.eq_of_compare hc
      simp [hk]
    | gt =>
      simp only [List.mem_cons, ih]
      exact or_left_comm

theorem compare_ne_lt [Std.LawfulEqOrd κ] (a : κ) : compare a a ≠ .lt := by
  have h : compare a a = .eq := Std.ReflCmp.compare_self
  rw [h]
  intro h
  cases h

theorem Sorted.nodup [Std.LawfulEqOrd κ] {s : List κ} (h : Sorted s) : s.Nodup := by
  refine List.Pairwise.imp (fun {a b} hab => ?_) h
  rintro rfl
  exact compare_ne_lt a hab

theorem mem_insertAll [Std.LawfulEqOrd κ] {a : κ} {ks s : List κ} : a ∈ insertAll ks s ↔ a ∈ ks ∨ a ∈ s := by
  induction ks generalizing s with
  | nil => simp [insertAll]
  | cons k ks ih =>
    refine (ih (s := insert k s)).trans ?_
    rw [mem_insert, List.mem_cons]
    exact or_left_comm.trans or_assoc.symm

theorem mem_ofList [Std.LawfulEqOrd κ] {a : κ} {ks : List κ} : a ∈ ofList ks ↔ a ∈ ks := by
  refine (mem_insertAll (s := [])).trans ?_
  simp

variable [Std.TransOrd κ] [Std.LawfulEqOrd κ]

theorem Sorted.insert {s : List κ} (h : Sorted s) (k : κ) : Sorted (OrderedSet.insert k s) := by
  induction s with
  | nil => exact List.pairwise_singleton _ _
  | cons l r ih =>
    obtain ⟨hl, hr⟩ := List.pairwise_cons.mp h
    rw [OrderedSet.insert]
    cases hc : compare k l with
    | lt =>
      refine List.pairwise_cons.mpr ⟨fun a ha => ?_, h⟩
      rcases List.mem_cons.mp ha with rfl | ha
      · exact hc
      · exact Std.TransCmp.lt_trans hc (hl a ha)
    | eq => exact h
    | gt =>
      refine List.pairwise_cons.mpr ⟨fun a ha => ?_, ih hr⟩
      rcases mem_insert.mp ha with rfl | ha
      · exact Std.OrientedCmp.lt_of_gt hc
      · exact hl a ha

theorem Sorted.ext {s t : List κ} (hs : Sorted s) (ht : Sorted t) (h : ∀ a, a ∈ s ↔ a ∈ t) : s = t :=
  have : Std.Irrefl fun a b : κ => compare a b = .lt := ⟨compare_ne_lt⟩
  have : Std.Antisymm fun a b : κ => compare a b = .lt :=
    ⟨fun a _ h₁ h₂ => absurd (Std.TransCmp.lt_trans h₁ h₂) (compare_ne_lt a)⟩
  List.Pairwise.eq_of_mem_iff hs ht h

theorem Sorted.insertAll {s : List κ} (h : Sorted s) (ks : List κ) : Sorted (OrderedSet.insertAll ks s) := by
  induction ks generalizing s with
  | nil => exact h
  | cons k ks ih => exact ih (h.insert k)

theorem sorted_ofList (ks : List κ) : Sorted (ofList ks) := by
  have hempty : Sorted ([] : List κ) := List.Pairwise.nil
  exact hempty.insertAll ks

theorem Sorted.insertAll_again {s : List κ} (h : Sorted s) (ks : List κ) :
    OrderedSet.insertAll ks (OrderedSet.insertAll ks s) = OrderedSet.insertAll ks s := by
  have hs := h.insertAll ks
  refine (hs.insertAll ks).ext hs fun a => ?_
  rw [mem_insertAll, or_iff_right_iff_imp]
  intro ha
  exact mem_insertAll.mpr (Or.inl ha)

end

end OrderedSet

/-! ## Catalogs -/

namespace Catalog

section
variable {κ α : Type} [Ord κ]

def Sorted (c : Catalog κ α) : Prop :=
  c.Pairwise fun a b => compare a.1 b.1 = .lt

instance (c : Catalog κ α) : Decidable (Sorted c) :=
  inferInstanceAs (Decidable (c.Pairwise fun a b => compare a.1 b.1 = .lt))

theorem mem_of_mem_insert {k : κ} {x : α} {c : Catalog κ α} {e : κ × α} (h : e ∈ insert k x c) :
    e = (k, x) ∨ e ∈ c := by
  induction c with
  | nil => exact Or.inl (List.mem_singleton.mp h)
  | cons d c ih =>
    obtain ⟨m, y⟩ := d
    rw [insert] at h
    split at h
    · exact List.mem_cons.mp h
    · rcases List.mem_cons.mp h with h | h
      · exact Or.inl h
      · exact Or.inr (List.mem_cons_of_mem _ h)
    · rcases List.mem_cons.mp h with h | h
      · exact Or.inr (h ▸ List.mem_cons_self ..)
      · exact (ih h).imp_right (List.mem_cons_of_mem _)

theorem mem_of_mem_ofList {es : List (κ × α)} {e : κ × α} (h : e ∈ ofList es) : e ∈ es := by
  have hfold : ∀ (es : List (κ × α)) (c : Catalog κ α),
      e ∈ es.foldl (fun c e => insert e.1 e.2 c) c → e ∈ es ∨ e ∈ c := by
    intro es
    induction es with
    | nil => exact fun c h => Or.inr h
    | cons d es ih =>
      intro c h
      rcases ih _ h with h | h
      · exact Or.inl (List.mem_cons_of_mem _ h)
      · rcases mem_of_mem_insert h with rfl | h
        · exact Or.inl (List.mem_cons_self ..)
        · exact Or.inr h
  exact (hfold es [] h).resolve_right (List.not_mem_nil)

theorem get?_map {β : Type} (f : α → β) (k : κ) (c : Catalog κ α) :
    get? k (c.map fun (l, x) => (l, f x)) = (get? k c).map f := by
  induction c with
  | nil => rfl
  | cons d c ih =>
    simp only [List.map_cons, get?, ih]
    split <;> rfl

theorem insert_map {β : Type} (f : α → β) (k : κ) (x : α) (c : Catalog κ α) :
    insert k (f x) (c.map fun (l, y) => (l, f y)) = (insert k x c).map fun (l, y) => (l, f y) := by
  induction c with
  | nil => rfl
  | cons d c ih =>
    simp only [List.map_cons, insert, ih]
    split <;> rfl

theorem erase_map {β : Type} (f : α → β) (k : κ) (c : Catalog κ α) :
    erase k (c.map fun (l, x) => (l, f x)) = (erase k c).map fun (l, x) => (l, f x) := by
  induction c with
  | nil => rfl
  | cons d c ih =>
    simp only [List.map_cons, erase, ih]
    split <;> rfl

theorem update_map {β : Type} {f : α → β} {g : α → α} {g' : β → β} (hg : ∀ x, g' (f x) = f (g x)) (k : κ)
    (c : Catalog κ α) :
    update k g' (c.map fun (l, x) => (l, f x)) = (update k g c).map fun (l, x) => (l, f x) := by
  induction c with
  | nil => rfl
  | cons d c ih =>
    simp only [List.map_cons, update, ih, hg]
    split <;> rfl

theorem insert_eq_append {c : Catalog κ α} {k : κ} {x : α} (h : ∀ e ∈ c, compare k e.1 = .gt) :
    Catalog.insert k x c = c ++ [(k, x)] := by
  induction c with
  | nil => rfl
  | cons d c ih =>
    obtain ⟨m, y⟩ := d
    rw [Catalog.insert, h (m, y) (List.mem_cons_self ..)]
    exact congrArg _ (ih fun e he => h e (List.mem_cons_of_mem _ he))

theorem Sorted.ofList_eq [Std.OrientedOrd κ] {c : Catalog κ α} (h : Sorted c) : Catalog.ofList c = c := by
  have hfold : ∀ es d : Catalog κ α, Sorted (d ++ es) →
      es.foldl (fun c e => Catalog.insert e.1 e.2 c) d = d ++ es := by
    intro es
    induction es with
    | nil => exact fun d _ => (List.append_nil d).symm
    | cons e es ih =>
      intro d hd
      have hlast : ∀ f ∈ d, compare e.1 f.1 = .gt := fun f hf =>
        Std.OrientedCmp.gt_of_lt ((List.pairwise_append.mp hd).2.2 f hf e (List.mem_cons_self ..))
      rw [List.foldl_cons, insert_eq_append hlast, ih _ (by simpa using hd)]
      simp
  exact hfold c [] h

variable [Std.LawfulEqOrd κ]

theorem get?_cons_self {k : κ} {x : α} {c : Catalog κ α} : get? k ((k, x) :: c) = some x :=
  if_pos Std.ReflCmp.compare_self

theorem get?_cons_ne {k l : κ} {x : α} {c : Catalog κ α} (h : k ≠ l) : get? k ((l, x) :: c) = get? k c :=
  if_neg fun hc => h (Std.LawfulEqOrd.eq_of_compare hc)

theorem get?_insert_self {k : κ} {x : α} {c : Catalog κ α} : get? k (insert k x c) = some x := by
  induction c with
  | nil => exact get?_cons_self
  | cons e c ih =>
    obtain ⟨m, y⟩ := e
    rw [insert]
    cases hc : compare k m with
    | lt => exact get?_cons_self
    | eq => exact get?_cons_self
    | gt =>
      have hk : k ≠ m := fun h => by
        have hs : compare m m = .eq := Std.ReflCmp.compare_self
        rw [h, hs] at hc
        cases hc
      exact (get?_cons_ne hk).trans ih

theorem get?_insert_ne {k l : κ} {x : α} {c : Catalog κ α} (h : l ≠ k) :
    get? l (insert k x c) = get? l c := by
  induction c with
  | nil => exact get?_cons_ne h
  | cons e c ih =>
    obtain ⟨m, y⟩ := e
    rw [insert]
    cases hc : compare k m with
    | lt => exact get?_cons_ne h
    | eq =>
      have hk : k = m := Std.LawfulEqOrd.eq_of_compare hc
      subst hk
      exact (get?_cons_ne h).trans (get?_cons_ne h).symm
    | gt => simp only [get?, ih]

theorem mem_of_get? {k : κ} {x : α} {c : Catalog κ α} (h : get? k c = some x) : (k, x) ∈ c := by
  induction c with
  | nil => cases h
  | cons e c ih =>
    obtain ⟨m, y⟩ := e
    simp only [get?] at h
    split at h
    · rename_i hk
      cases h
      rw [Std.LawfulEqOrd.eq_of_compare hk]
      exact List.mem_cons_self ..
    · exact List.mem_cons_of_mem _ (ih h)

theorem Sorted.insert [Std.TransOrd κ] {c : Catalog κ α} (h : Sorted c) (k : κ) (x : α) :
    Sorted (Catalog.insert k x c) := by
  induction c with
  | nil => exact List.pairwise_singleton _ _
  | cons e c ih =>
    obtain ⟨m, y⟩ := e
    obtain ⟨hm, hc⟩ := List.pairwise_cons.mp h
    rw [Catalog.insert]
    cases hk : compare k m with
    | lt =>
      refine List.pairwise_cons.mpr ⟨fun a ha => ?_, h⟩
      rcases List.mem_cons.mp ha with rfl | ha
      · exact hk
      · exact Std.TransCmp.lt_trans hk (hm a ha)
    | eq =>
      have hk : k = m := Std.LawfulEqOrd.eq_of_compare hk
      subst hk
      exact List.pairwise_cons.mpr ⟨hm, hc⟩
    | gt =>
      refine List.pairwise_cons.mpr ⟨fun a ha => ?_, ih hc⟩
      rcases mem_of_mem_insert ha with rfl | ha
      · exact Std.OrientedCmp.lt_of_gt hk
      · exact hm a ha

theorem Sorted.get?_of_mem {c : Catalog κ α} (h : Sorted c) {k : κ} {x : α} (hx : (k, x) ∈ c) :
    get? k c = some x := by
  induction c with
  | nil => cases hx
  | cons e c ih =>
    obtain ⟨m, y⟩ := e
    obtain ⟨hm, hc⟩ := List.pairwise_cons.mp h
    rcases List.mem_cons.mp hx with hx | hx
    · cases hx
      exact get?_cons_self
    · have hne : k ≠ m := fun he => OrderedSet.compare_ne_lt m (he ▸ hm _ hx)
      exact (get?_cons_ne hne).trans (ih hc hx)

theorem Sorted.get?_eq_some {c : Catalog κ α} (h : Sorted c) {k : κ} {x : α} :
    get? k c = some x ↔ (k, x) ∈ c :=
  ⟨mem_of_get?, h.get?_of_mem⟩

theorem Sorted.key_inj {c : Catalog κ α} (h : Sorted c) {k : κ} {x y : α} (hx : (k, x) ∈ c) (hy : (k, y) ∈ c) :
    x = y :=
  Option.some.inj ((h.get?_of_mem hx).symm.trans (h.get?_of_mem hy))

theorem Sorted.erase_eq_filter [DecidableEq κ] {c : Catalog κ α} (h : Sorted c) (k : κ) :
    erase k c = c.filter fun e => e.1 ≠ k := by
  induction c with
  | nil => rfl
  | cons d c ih =>
    obtain ⟨m, z⟩ := d
    obtain ⟨hm, hc⟩ := List.pairwise_cons.mp h
    rw [erase, List.filter_cons]
    split
    · rename_i hk
      have hk : k = m := Std.LawfulEqOrd.eq_of_compare hk
      subst hk
      have hall : ∀ e ∈ c, e.1 ≠ k := fun e he hek => OrderedSet.compare_ne_lt k (hek ▸ hm e he)
      rw [if_neg (by simp), List.filter_eq_self.mpr fun e he => decide_eq_true (hall e he)]
    · rename_i hk
      have hne : m ≠ k := fun he => hk (by rw [he]; exact Std.ReflCmp.compare_self)
      rw [if_pos (by simpa using hne), ih hc]

theorem Sorted.erase [DecidableEq κ] {c : Catalog κ α} (h : Sorted c) (k : κ) : Sorted (Catalog.erase k c) := by
  rw [h.erase_eq_filter]
  exact List.Pairwise.filter _ h

theorem Sorted.mem_erase [DecidableEq κ] {c : Catalog κ α} (h : Sorted c) {k : κ} {e : κ × α} :
    e ∈ Catalog.erase k c ↔ e ∈ c ∧ e.1 ≠ k := by
  rw [h.erase_eq_filter, List.mem_filter, decide_eq_true_iff]

variable [Std.TransOrd κ]

theorem Sorted.ext {c d : Catalog κ α} (hc : Sorted c) (hd : Sorted d)
    (h : ∀ e, e ∈ c ↔ e ∈ d) : c = d :=
  have : Std.Irrefl fun a b : κ × α => compare a.1 b.1 = .lt := ⟨fun a => OrderedSet.compare_ne_lt a.1⟩
  have : Std.Antisymm fun a b : κ × α => compare a.1 b.1 = .lt :=
    ⟨fun a _ h₁ h₂ => absurd (Std.TransCmp.lt_trans h₁ h₂) (OrderedSet.compare_ne_lt a.1)⟩
  List.Pairwise.eq_of_mem_iff hc hd h

theorem Sorted.mem_insert {c : Catalog κ α} (h : Sorted c) {k : κ} {x : α} {e : κ × α} :
    e ∈ Catalog.insert k x c ↔ e = (k, x) ∨ (e ∈ c ∧ e.1 ≠ k) := by
  obtain ⟨l, y⟩ := e
  rw [← (h.insert k x).get?_eq_some]
  by_cases hl : l = k
  · subst hl
    rw [get?_insert_self]
    simp [eq_comm]
  · rw [get?_insert_ne hl, h.get?_eq_some]
    simp [hl]

theorem Sorted.ofList (es : List (κ × α)) : Sorted (Catalog.ofList es) := by
  have hfold : ∀ (es : List (κ × α)) (c : Catalog κ α), Sorted c →
      Sorted (es.foldl (fun c e => Catalog.insert e.1 e.2 c) c) := by
    intro es
    induction es with
    | nil => exact fun c hc => hc
    | cons e es ih => exact fun c hc => ih _ (hc.insert e.1 e.2)
  exact hfold es [] List.Pairwise.nil

theorem Sorted.insert_insert_self {c : Catalog κ α} (h : Sorted c) (k : κ) (x y : α) :
    Catalog.insert k y (Catalog.insert k x c) = Catalog.insert k y c := by
  refine ((h.insert k x).insert k y).ext (h.insert k y) fun e => ?_
  simp only [(h.insert k x).mem_insert, h.mem_insert]
  refine or_congr_right (and_congr_left fun he => ?_)
  rw [or_iff_right fun hx => he (congrArg Prod.fst hx)]
  exact and_iff_left he

theorem Sorted.insert_comm {c : Catalog κ α} (h : Sorted c) {k l : κ} (hkl : k ≠ l) (x y : α) :
    Catalog.insert k x (Catalog.insert l y c) = Catalog.insert l y (Catalog.insert k x c) := by
  refine ((h.insert l y).insert k x).ext ((h.insert k x).insert l y) fun e => ?_
  simp only [(h.insert l y).mem_insert, (h.insert k x).mem_insert, h.mem_insert]
  by_cases hek : e.1 = k
  · have hel : e ≠ (l, y) := fun he => hkl (hek.symm.trans (congrArg Prod.fst he))
    have hne : e.1 ≠ l := fun he => hkl (hek.symm.trans he)
    simp [hek, hel, hkl]
  · have hex : e ≠ (k, x) := fun he => hek (congrArg Prod.fst he)
    simp [hek, hex]

theorem Sorted.update_eq_insert {c : Catalog κ α} (h : Sorted c) {k : κ} {x : α} (hx : (k, x) ∈ c) (f : α → α) :
    update k f c = Catalog.insert k (f x) c := by
  induction c with
  | nil => cases hx
  | cons d c ih =>
    obtain ⟨m, y⟩ := d
    obtain ⟨hm, hc⟩ := List.pairwise_cons.mp h
    rcases List.mem_cons.mp hx with hx | hx
    · cases hx
      simp [update, Catalog.insert]
    · have hmk : compare k m = .gt := Std.OrientedCmp.gt_of_lt (hm _ hx)
      simp [update, Catalog.insert, hmk, ih hc hx]

theorem Sorted.insert_eq_map [DecidableEq κ] {c : Catalog κ α} (h : Sorted c) {k : κ} {x y : α} (hy : (k, y) ∈ c) :
    Catalog.insert k x c = c.map fun e => if e.1 = k then (k, x) else e := by
  induction c with
  | nil => cases hy
  | cons d c ih =>
    obtain ⟨m, z⟩ := d
    obtain ⟨hm, hc⟩ := List.pairwise_cons.mp h
    have hself : compare k k = .eq := Std.ReflCmp.compare_self
    rw [List.map_cons, Catalog.insert]
    rcases List.mem_cons.mp hy with hy | hy
    · cases hy
      have hc : c.map (fun e => if e.1 = k then (k, x) else e) = c := by
        refine (List.map_congr_left fun e he => ?_).trans (List.map_id' c)
        exact if_neg fun hek : e.1 = k => OrderedSet.compare_ne_lt k (hek ▸ hm e he)
      rw [hself, if_pos rfl, hc]
    · have hmk : compare k m = .gt := Std.OrientedCmp.gt_of_lt (hm _ hy)
      have hne : m ≠ k := fun he => by rw [he, hself] at hmk; cases hmk
      rw [hmk, if_neg hne, ih hc hy]

end

end Catalog

end TriGraph
