import Mathlib.Data.List.Induction
import TriGraph.Proofs.Index.Seen

/-!
# Ranges of an ordered index

A range lists the ids key by key and leaves out what it has listed already: an id stands where the least of its keys
between the bounds puts it, and the ids with one least key are in order.
-/

namespace TriGraph.Index

/-! ## Keys between bounds -/

namespace Key

def between (lo hi k : Key) : Bool :=
  lo.atMost k && k.atMost hi

theorem atMost_iff {a b : Key} : a.atMost b = true ↔ (compare a b).isLE = true := by
  change (compare a b != .gt) = true ↔ _
  cases compare a b <;> decide

theorem atMost_of_lt {a b : Key} (h : compare a b = .lt) : a.atMost b = true := by
  rw [atMost_iff, h]
  rfl

theorem atMost_refl (a : Key) : a.atMost a = true := by
  have h : compare a a = .eq := Std.ReflCmp.compare_self
  rw [atMost_iff, h]
  rfl

theorem atMost_trans {a b c : Key} (hab : a.atMost b = true) (hbc : b.atMost c = true) : a.atMost c = true :=
  atMost_iff.mpr (Std.TransCmp.isLE_trans (atMost_iff.mp hab) (atMost_iff.mp hbc))

theorem atMost_eq_false {a b : Key} : a.atMost b = false ↔ compare b a = .lt := by
  rw [← Std.OrientedCmp.gt_iff_lt, ← Bool.not_eq_true, atMost_iff]
  cases compare a b <;> decide

theorem least_of_ne_nil {ks : List Key} (h : ks ≠ []) : ∃ k ∈ ks, ∀ l ∈ ks, k.atMost l = true := by
  induction ks with
  | nil => exact absurd rfl h
  | cons a ks ih =>
    by_cases hks : ks = []
    · subst hks
      exact ⟨a, List.mem_cons_self .., by simpa using atMost_refl a⟩
    · obtain ⟨k, hk, hmin⟩ := ih hks
      cases hak : a.atMost k with
      | true =>
        have hmin : ∀ l ∈ ks, a.atMost l = true := fun l hl => atMost_trans hak (hmin l hl)
        exact ⟨a, List.mem_cons_self .., List.forall_mem_cons.mpr ⟨atMost_refl a, hmin⟩⟩
      | false =>
        have hka := atMost_of_lt (atMost_eq_false.mp hak)
        exact ⟨k, List.mem_cons_of_mem _ hk, List.forall_mem_cons.mpr ⟨hka, hmin⟩⟩

end Key

theorem takeWhile_atMost {ks : List Key} (h : OrderedSet.Sorted ks) (hi : Key) :
    ks.takeWhile (·.atMost hi) = ks.filter (·.atMost hi) := by
  induction ks with
  | nil => rfl
  | cons k ks ih =>
    obtain ⟨hk, hks⟩ := List.pairwise_cons.mp h
    cases hhi : k.atMost hi with
    | true => simp [hhi, ih hks]
    | false =>
      -- all later keys are beyond the bound, too
      have hlate : ∀ l ∈ ks, ¬l.atMost hi = true := fun l hl hlhi => by
        rw [Key.atMost_trans (Key.atMost_of_lt (hk l hl)) hlhi] at hhi
        cases hhi
      simp [hhi, List.filter_eq_nil_iff.mpr hlate]

theorem keysBetween_eq_filter {i : Index} (h : OrderedSet.Sorted i.seen) (lo hi : Key) :
    i.keysBetween lo hi = i.seen.filter (Key.between lo hi) := by
  change (i.seen.dropWhile fun k => compare k lo == .lt).takeWhile (·.atMost hi) = _
  generalize i.seen = ks at h
  induction ks with
  | nil => rfl
  | cons k ks ih =>
    obtain ⟨hk, hks⟩ := List.pairwise_cons.mp h
    cases hlo : lo.atMost k with
    | false =>
      have hlt : (compare k lo == .lt) = true := beq_iff_eq.mpr (Key.atMost_eq_false.mp hlo)
      have hout : ¬Key.between lo hi k = true := by simp [Key.between, hlo]
      rw [List.dropWhile_cons, if_pos hlt, List.filter_cons_of_neg hout, ih hks]
    | true =>
      have hge : ¬(compare k lo == .lt) = true := by
        rw [beq_iff_eq, ← Key.atMost_eq_false, hlo]
        decide
      rw [List.dropWhile_cons, if_neg hge, takeWhile_atMost h]
      refine List.filter_congr fun l hl => ?_
      have hlo' : lo.atMost l = true := by
        rcases List.mem_cons.mp hl with rfl | hl
        · exact hlo
        · exact Key.atMost_trans hlo (Key.atMost_of_lt (hk l hl))
      rw [Key.between, hlo', Bool.true_and]

/-! ## Ids without repetition -/

theorem distinct_concat (ids : List String) (id : String) :
    distinct (ids ++ [id]) = if (distinct ids).contains id then distinct ids else distinct ids ++ [id] :=
  List.foldl_concat ..

theorem mem_distinct {ids : List String} {id : String} : id ∈ distinct ids ↔ id ∈ ids := by
  induction ids using List.reverseRecOn with
  | nil => rfl
  | append_singleton ids a ih =>
    rw [distinct_concat, List.mem_append, List.mem_singleton]
    split
    · rename_i ha
      rw [List.contains_iff_mem] at ha
      rw [ih]
      refine (or_iff_left_of_imp ?_).symm
      rintro rfl
      exact ih.mp ha
    · rw [List.mem_append, List.mem_singleton, ih]

theorem nodup_distinct (ids : List String) : (distinct ids).Nodup := by
  induction ids using List.reverseRecOn with
  | nil => exact List.nodup_nil
  | append_singleton ids a ih =>
    rw [distinct_concat]
    split
    · exact ih
    · rename_i ha
      rw [List.contains_iff_mem] at ha
      exact List.nodup_append.mpr ⟨ih, List.nodup_singleton a, fun b hb c hc hbc =>
        ha (List.mem_singleton.mp hc ▸ hbc ▸ hb)⟩

theorem pairwise_distinct {α : Type} {r : α → α → Prop} {f : α → String} {xs : List α} (h : xs.Pairwise r) :
    (distinct (xs.map f)).Pairwise fun a b => ∃ x ∈ xs, f x = a ∧ ∀ y ∈ xs, f y = b → r x y := by
  -- from behind: the last entry is behind all others, and it only counts if its id is new
  induction xs using List.reverseRecOn with
  | nil => exact List.Pairwise.nil
  | append_singleton xs z ih =>
    obtain ⟨hxs, -, hz⟩ := List.pairwise_append.mp h
    have hz : ∀ x ∈ xs, r x z := fun x hx => hz x hx z (List.mem_singleton_self z)
    have hkeep : (distinct (xs.map f)).Pairwise
        fun a b => ∃ x ∈ xs ++ [z], f x = a ∧ ∀ y ∈ xs ++ [z], f y = b → r x y := by
      refine (ih hxs).imp fun {a b} hab => ?_
      obtain ⟨x, hx, hxa, hall⟩ := hab
      refine ⟨x, List.mem_append_left _ hx, hxa, fun y hy hyb => ?_⟩
      rcases List.mem_append.mp hy with hy | hy
      · exact hall y hy hyb
      · rw [List.mem_singleton.mp hy]
        exact hz x hx
    rw [List.map_append, List.map_singleton, distinct_concat]
    split
    · exact hkeep
    · rename_i hnew
      rw [List.contains_iff_mem, mem_distinct] at hnew
      refine List.pairwise_append.mpr ⟨hkeep, List.pairwise_singleton _ _, fun a ha b hb => ?_⟩
      obtain ⟨x, hx, hxa⟩ := List.mem_map.mp (mem_distinct.mp ha)
      rw [List.mem_singleton.mp hb]
      refine ⟨x, List.mem_append_left _ hx, hxa, fun y hy hyz => ?_⟩
      rcases List.mem_append.mp hy with hy | hy
      · exact absurd (List.mem_map.mpr ⟨y, hy, hyz⟩) hnew
      · rw [List.mem_singleton.mp hy]
        exact hz x hx

/-! ## Postings -/

abbrev Posting := Key × String

def Posting.order (p q : Posting) : Ordering :=
  (compare p.1 q.1).then (compare p.2 q.2)

theorem Posting.lt_of_atMost {k : Key} {p q : Posting} (hk : k.atMost p.1 = true) (h : Posting.order p q = .lt) :
    Posting.order (k, p.2) q = .lt := by
  rw [Posting.order, Ordering.then_eq_lt] at h ⊢
  rcases h with h | ⟨h, hid⟩
  · exact Or.inl (Std.TransCmp.lt_of_isLE_of_lt (Key.atMost_iff.mp hk) h)
  · rw [← Std.LawfulEqOrd.eq_of_compare h]
    cases hc : compare k p.1 with
    | lt => exact Or.inl rfl
    | eq => exact Or.inr ⟨rfl, hid⟩
    | gt =>
      rw [Key.atMost_iff, hc] at hk
      cases hk

def postings (i : Index) (kind : EntityKind) (ks : List Key) : List Posting :=
  ks.flatMap fun k => (i.lookup kind k).map (k, ·)

theorem map_postings (i : Index) (kind : EntityKind) (ks : List Key) :
    (i.postings kind ks).map Prod.snd = ks.flatMap (i.lookup kind) := by
  simp [postings, List.map_flatMap, Function.comp_def]

theorem mem_postings {i : Index} {kind : EntityKind} {ks : List Key} {p : Posting} :
    p ∈ i.postings kind ks ↔ p.1 ∈ ks ∧ p.2 ∈ i.lookup kind p.1 := by
  obtain ⟨k, id⟩ := p
  simp [postings]

theorem sorted_lookup {i : Index} (hb : i.buckets.Canonical) (kind : EntityKind) (k : Key) :
    OrderedSet.Sorted (i.lookup kind k) := by
  unfold lookup
  split
  · exact hb.sorted_ids k
  · exact List.Pairwise.nil

theorem pairwise_postings {i : Index} (hb : i.buckets.Canonical) (kind : EntityKind) {ks : List Key}
    (h : OrderedSet.Sorted ks) : (i.postings kind ks).Pairwise fun p q => Posting.order p q = .lt := by
  refine List.pairwise_flatMap.mpr ⟨fun k _ => List.pairwise_map.mpr ?_, h.imp fun {k l} hkl p hp q hq => ?_⟩
  · refine (sorted_lookup hb kind k).imp fun hab => Ordering.then_eq_lt.mpr (Or.inr ⟨Std.ReflCmp.compare_self, hab⟩)
  · obtain ⟨a, -, rfl⟩ := List.mem_map.mp hp
    obtain ⟨b, -, rfl⟩ := List.mem_map.mp hq
    exact Ordering.then_eq_lt.mpr (Or.inl hkl)

end TriGraph.Index
