import Mathlib.Data.List.Permutation
import TriGraph.Proofs.Store.Integrity
import TriGraph.Proofs.Trinity.History

/-!
# The concept hierarchy, nearest first

What is queued is at every moment a rest of one level and, behind it, the beginning of the next. So each id that can
be reached is taken just once, and the nearer ones first, whatever cycles, loops and parallel edges there are.
-/

namespace TriGraph.Ontology

/-! ## Steps -/

def IsA (s : Store) (x y : String) : Prop :=
  ∃ e ∈ s.allEdges, e.type = isA ∧ e.source = x ∧ e.target = y

def Leads (s : Store) : Bool → String → String → Prop
  | true, x, y => IsA s x y
  | false, x, y => IsA s y x

inductive Steps (r : String → String → Prop) (x : String) : Nat → String → Prop
  | refl : Steps r x 0 x
  | tail {n : Nat} {y z : String} (h : Steps r x n y) (hr : r y z) : Steps r x (n + 1) z

structure Distance (r : String → String → Prop) (x y : String) (n : Nat) : Prop where
  steps : Steps r x n y
  least : ∀ k < n, ¬Steps r x k y

section
variable {r : String → String → Prop} {x y z : String} {n : Nat}

theorem Steps.eq_of_zero (h : Steps r x 0 y) : y = x := by
  cases h
  rfl

theorem Steps.succ_of_ne (h : Steps r x n y) (hne : y ≠ x) : ∃ k, Steps r x (k + 1) y := by
  cases n with
  | zero => exact absurd h.eq_of_zero hne
  | succ k => exact ⟨k, h⟩

theorem Steps.head (hr : r x y) (h : Steps r y n z) : Steps r x (n + 1) z := by
  induction h with
  | refl => exact .tail .refl hr
  | tail _ hr' ih => exact .tail ih hr'

theorem Steps.flip (h : Steps r x n y) : Steps (fun a b => r b a) y n x := by
  induction h with
  | refl => exact .refl
  | tail _ hr ih => exact ih.head hr

end

/-! ## Levels -/

/-- What is queued: what is left of a level, and what the next level begins with. -/
structure Frontier (r : String → String → Prop) (start : String) (n : Nat) (visited near far : List String) :
    Prop where
  nearSteps : ∀ y ∈ near, Steps r start n y
  farSteps : ∀ y ∈ far, Steps r start (n + 1) y
  passed : ∀ k < n, ∀ y, Steps r start k y → y ∈ visited
  level : ∀ y, Steps r start n y → y ∈ visited ∨ y ∈ near
  closed : ∀ x ∈ visited, ∀ y, r x y → y ∈ visited ∨ y ∈ near ∨ y ∈ far

namespace Frontier

variable {r : String → String → Prop} {start x : String} {n : Nat} {visited near far queue : List String}

theorem initial (r : String → String → Prop) (start : String) : Frontier r start 0 [] [start] [] where
  nearSteps y hy := by
    rw [List.mem_singleton.mp hy]
    exact .refl
  farSteps _ hy := absurd hy List.not_mem_nil
  passed _ hk := absurd hk (Nat.not_lt_zero _)
  level y hy := by
    rw [hy.eq_of_zero]
    exact .inr (List.mem_singleton_self start)
  closed _ hx := absurd hx List.not_mem_nil

theorem skip (h : Frontier r start n visited (x :: near) far) (hx : x ∈ visited) :
    Frontier r start n visited near far where
  nearSteps y hy := h.nearSteps y (List.mem_cons_of_mem x hy)
  farSteps := h.farSteps
  passed := h.passed
  level y hy := by
    rcases h.level y hy with hv | hn
    · exact .inl hv
    · rcases List.mem_cons.mp hn with rfl | hn
      · exact .inl hx
      · exact .inr hn
  closed v hv y hy := by
    rcases h.closed v hv y hy with hv | hn | hf
    · exact .inl hv
    · rcases List.mem_cons.mp hn with rfl | hn
      · exact .inl hx
      · exact .inr (.inl hn)
    · exact .inr (.inr hf)

theorem visit (h : Frontier r start n visited (x :: near) far) {ys : List String} (hys : ∀ y, y ∈ ys ↔ r x y) :
    Frontier r start n (x :: visited) near (far ++ ys) where
  nearSteps y hy := h.nearSteps y (List.mem_cons_of_mem x hy)
  farSteps y hy := by
    rcases List.mem_append.mp hy with hy | hy
    · exact h.farSteps y hy
    · exact (h.nearSteps x (List.mem_cons_self ..)).tail ((hys y).mp hy)
  passed k hk y hy := List.mem_cons_of_mem x (h.passed k hk y hy)
  level y hy := by
    rcases h.level y hy with hv | hn
    · exact .inl (List.mem_cons_of_mem x hv)
    · rcases List.mem_cons.mp hn with rfl | hn
      · exact .inl (List.mem_cons_self ..)
      · exact .inr hn
  closed v hv y hy := by
    rcases List.mem_cons.mp hv with rfl | hv
    · exact .inr (.inr (List.mem_append_right far ((hys y).mpr hy)))
    · rcases h.closed v hv y hy with hv | hn | hf
      · exact .inl (List.mem_cons_of_mem x hv)
      · rcases List.mem_cons.mp hn with rfl | hn
        · exact .inl (List.mem_cons_self ..)
        · exact .inr (.inl hn)
      · exact .inr (.inr (List.mem_append_left ys hf))

/-- When a level is used up, all of the next one has been visited or is queued. -/
theorem next (h : Frontier r start n visited [] far) : Frontier r start (n + 1) visited far [] where
  nearSteps := h.farSteps
  farSteps _ hy := absurd hy List.not_mem_nil
  passed k hk y hy := by
    rcases Nat.lt_succ_iff_lt_or_eq.mp hk with hk | rfl
    · exact h.passed k hk y hy
    · exact (h.level y hy).resolve_right List.not_mem_nil
  level y hy := by
    cases hy with
    | tail hx hr =>
      have hv := (h.level _ hx).resolve_right List.not_mem_nil
      exact (h.closed _ hv y hr).imp_right fun hn => hn.resolve_left List.not_mem_nil
  closed v hv y hy := (h.closed v hv y hy).imp_right fun hn => .inl (hn.resolve_left List.not_mem_nil)

theorem of_cons (h : Frontier r start n visited near far) (hq : x :: queue = near ++ far) :
    ∃ m near' far', n ≤ m ∧ queue = near' ++ far' ∧ Frontier r start m visited (x :: near') far' := by
  cases near with
  | nil =>
    cases (hq : x :: queue = far)
    exact ⟨n + 1, queue, [], Nat.le_succ n, (List.append_nil queue).symm, h.next⟩
  | cons y near =>
    cases hq
    exact ⟨n, near, far, Nat.le_refl n, rfl, h⟩

theorem mem_visited (h : Frontier r start n visited [] []) {k : Nat} {y : String} (hy : Steps r start k y) :
    y ∈ visited := by
  induction hy with
  | refl =>
    rcases Nat.eq_zero_or_pos n with rfl | hpos
    · exact (h.level start .refl).resolve_right List.not_mem_nil
    · exact h.passed 0 hpos start .refl
  | tail _ hr ih =>
    rcases h.closed _ ih _ hr with hv | hn | hf
    · exact hv
    · cases hn
    · cases hf

theorem distance (h : Frontier r start n visited (x :: near) far) (hx : x ∉ visited) : Distance r start x n where
  steps := h.nearSteps x (List.mem_cons_self ..)
  least k hk hs := hx (h.passed k hk x hs)

end Frontier

/-! ## The walk -/

/-- What a walk still takes when it has visited some ids and is at a level. -/
structure Taken (r : String → String → Prop) (start : String) (n : Nat) (visited taken : List String) : Prop where
  mem_iff : ∀ y, y ∈ taken ↔ y ∉ visited ∧ ∃ k, Steps r start k y
  once : taken.Nodup
  ahead : ∀ y ∈ taken, ∃ k, n ≤ k ∧ Distance r start y k
  nearest : taken.Pairwise fun y z => ∃ j k, Distance r start y j ∧ Distance r start z k ∧ j ≤ k

namespace Taken

variable {r : String → String → Prop} {start x : String} {m n : Nat} {visited taken : List String}

theorem mono (h : Taken r start m visited taken) (hnm : n ≤ m) : Taken r start n visited taken where
  mem_iff := h.mem_iff
  once := h.once
  ahead y hy := by
    obtain ⟨k, hk, hd⟩ := h.ahead y hy
    exact ⟨k, Nat.le_trans hnm hk, hd⟩
  nearest := h.nearest

theorem cons (h : Taken r start n (x :: visited) taken) (hx : x ∉ visited) (hd : Distance r start x n) :
    Taken r start n visited (x :: taken) where
  mem_iff y := by
    rw [List.mem_cons, h.mem_iff, List.mem_cons, not_or]
    constructor
    · rintro (rfl | ⟨⟨-, hv⟩, hs⟩)
      · exact ⟨hx, n, hd.steps⟩
      · exact ⟨hv, hs⟩
    · rintro ⟨hv, hs⟩
      by_cases hyx : y = x
      · exact .inl hyx
      · exact .inr ⟨⟨hyx, hv⟩, hs⟩
  once := List.nodup_cons.mpr ⟨fun hm => ((h.mem_iff x).mp hm).1 (List.mem_cons_self ..), h.once⟩
  ahead y hy := by
    rcases List.mem_cons.mp hy with rfl | hy
    · exact ⟨n, Nat.le_refl n, hd⟩
    · exact h.ahead y hy
  nearest := by
    refine List.pairwise_cons.mpr ⟨fun y hy => ?_, h.nearest⟩
    obtain ⟨k, hk, hdy⟩ := h.ahead y hy
    exact ⟨n, k, hd, hdy, hk⟩

end Taken

section
variable {s : Store} (hs : s.Linked)
include hs

theorem IsA.present {x y : String} (h : IsA s x y) : s.hasNode x = true ∧ s.hasNode y = true := by
  obtain ⟨e, he, -, rfl, rfl⟩ := h
  exact ⟨hs.source e he, hs.target e he⟩

theorem Leads.present {along : Bool} {x y : String} (h : Leads s along x y) :
    s.hasNode x = true ∧ s.hasNode y = true := by
  cases along with
  | true => exact IsA.present hs h
  | false => exact (IsA.present hs h).symm

theorem Steps.hasNode {along : Bool} {x y : String} {n : Nat} (h : Steps (Leads s along) x n y)
    (hx : s.hasNode x = true) : s.hasNode y = true := by
  cases h with
  | refl => exact hx
  | tail _ hr => exact (hr.present hs).2

theorem Steps.hasNode_start {along : Bool} {x y : String} {n : Nat} (h : Steps (Leads s along) x n y)
    (hy : s.hasNode y = true) : s.hasNode x = true := by
  induction h with
  | refl => exact hy
  | tail _ hr ih => exact ih (hr.present hs).1

theorem mem_edgesAt {d : Direction} {x : String} {e : Edge} :
    e ∈ s.edgesAt x d ↔ e ∈ s.allEdges ∧ d.admits x e = true := by
  unfold Store.edgesAt
  split
  · rw [List.mem_filter]
  · rename_i hx
    refine iff_of_false List.not_mem_nil ?_
    rintro ⟨he, had⟩
    have hsource := hs.source e he
    have htarget := hs.target e he
    cases d with
    | outgoing => exact hx (beq_iff_eq.mp had ▸ hsource)
    | incoming => exact hx (beq_iff_eq.mp had ▸ htarget)
    | both =>
      rcases Bool.or_eq_true_iff.mp had with h | h
      · exact hx (beq_iff_eq.mp h ▸ hsource)
      · exact hx (beq_iff_eq.mp h ▸ htarget)

theorem mem_neighbours {along : Bool} {x y : String} : y ∈ neighbours s along x ↔ Leads s along x y := by
  cases along with
  | true =>
    simp only [neighbours, if_true, List.mem_map, List.mem_filter, mem_edgesAt hs, Direction.admits, beq_iff_eq]
    constructor
    · rintro ⟨e, ⟨⟨he, hx⟩, ht⟩, hy⟩
      exact ⟨e, he, ht, hx, hy⟩
    · rintro ⟨e, he, ht, hx, hy⟩
      exact ⟨e, ⟨⟨he, hx⟩, ht⟩, hy⟩
  | false =>
    simp only [neighbours, Bool.false_eq_true, if_false, List.mem_map, List.mem_filter, mem_edgesAt hs,
      Direction.admits, beq_iff_eq]
    constructor
    · rintro ⟨e, ⟨⟨he, hx⟩, ht⟩, hy⟩
      exact ⟨e, he, ht, hy, hx⟩
    · rintro ⟨e, he, ht, hy, hx⟩
      exact ⟨e, ⟨⟨he, hx⟩, ht⟩, hy⟩

theorem taken_walk {along : Bool} {start : String} (hstart : s.hasNode start = true) {visited queue : List String}
    {n : Nat} {near far : List String} (hq : queue = near ++ far)
    (h : Frontier (Leads s along) start n visited near far) :
    Taken (Leads s along) start n visited (walk s along visited queue) := by
  induction visited, queue using walk.induct s along generalizing n near far with
  | case1 visited =>
    obtain ⟨rfl, rfl⟩ := List.append_eq_nil_iff.mp hq.symm
    rw [walk]
    refine ⟨fun y => ?_, List.nodup_nil, fun y hy => absurd hy List.not_mem_nil, List.Pairwise.nil⟩
    refine iff_of_false List.not_mem_nil ?_
    rintro ⟨hv, k, hy⟩
    exact hv (h.mem_visited hy)
  | case2 visited x queue hx ih =>
    obtain ⟨m, near, far, hnm, rfl, h⟩ := h.of_cons hq
    have hv : x ∉ visited := fun hm => hx.2 (List.contains_iff_mem.mpr hm)
    have hrest := ih (List.append_assoc near far _) (h.visit fun y => mem_neighbours hs)
    rw [walk, dif_pos hx]
    exact (hrest.cons hv (h.distance hv)).mono hnm
  | case3 visited x queue hx ih =>
    obtain ⟨m, near, far, hnm, rfl, h⟩ := h.of_cons hq
    -- the id is stored, so it is passed over because it has been visited
    have hnode := (h.nearSteps x (List.mem_cons_self ..)).hasNode hs hstart
    have hv : x ∈ visited := by
      by_contra hm
      exact hx ⟨hnode, fun hc => hm (List.contains_iff_mem.mp hc)⟩
    rw [walk, dif_neg hx]
    exact (ih rfl (h.skip hv)).mono hnm

/-! ## Superconcepts and subconcepts -/

/-- The nodes other than the start that a path leads to, each once and in the order of their distances. -/
structure NearestFirst (s : Store) (r : String → String → Prop) (start : String) (found : List Node) : Prop where
  mem_iff : ∀ n, n ∈ found ↔ n ∈ s.allNodes ∧ n.id ≠ start ∧ ∃ k, Steps r start (k + 1) n.id
  once : (found.map (·.id)).Nodup
  nearest : found.Pairwise fun m n => ∃ j k, Distance r start m.id j ∧ Distance r start n.id k ∧ j ≤ k

omit hs in
theorem reached_of_absent {along : Bool} {start : String} (h : s.hasNode start = false) :
    reached s along start = [] := by
  have hstart : ¬s.hasNode start = true := Bool.eq_false_iff.mp h
  have hw : walk s along [] [start] = [] := by
    rw [walk, dif_neg fun hc => hstart hc.1, walk]
  unfold reached
  rw [hw]
  rfl

theorem taken_reached (along : Bool) {start : String} (hstart : s.hasNode start = true) :
    Taken (Leads s along) start 0 [] (walk s along [] [start]) :=
  taken_walk hs hstart rfl (Frontier.initial (Leads s along) start)

theorem map_id_reached (along : Bool) {start : String} (hstart : s.hasNode start = true) :
    (reached s along start).map (·.id) = (walk s along [] [start]).filter (· != start) := by
  unfold reached
  rw [List.map_filterMap]
  refine (List.filterMap_congr fun y hy => ?_).trans List.filterMap_some
  obtain ⟨-, k, hk⟩ := ((taken_reached hs along hstart).mem_iff y).mp (List.mem_filter.mp hy).1
  obtain ⟨n, hn, rfl⟩ := hs.hasNode_iff.mp (hk.hasNode hs hstart)
  rw [Store.node?, hs.nodes.get?_of_mem hn]
  rfl

theorem nearest_reached (along : Bool) (start : String) :
    NearestFirst s (Leads s along) start (reached s along start) := by
  cases hstart : s.hasNode start with
  | true =>
    have hw := taken_reached hs along hstart
    have hids := map_id_reached hs along hstart
    refine ⟨fun n => ?_, ?_, ?_⟩
    · unfold reached
      rw [List.mem_filterMap]
      constructor
      · rintro ⟨y, hy, hn⟩
        obtain ⟨hy, hne⟩ := List.mem_filter.mp hy
        obtain ⟨hm, rfl⟩ := hs.nodes.get?_eq_some.mp hn
        obtain ⟨-, k, hk⟩ := (hw.mem_iff n.id).mp hy
        exact ⟨hm, bne_iff_ne.mp hne, hk.succ_of_ne (bne_iff_ne.mp hne)⟩
      · rintro ⟨hn, hne, k, hk⟩
        have hy := (hw.mem_iff n.id).mpr ⟨List.not_mem_nil, k + 1, hk⟩
        exact ⟨n.id, List.mem_filter.mpr ⟨hy, bne_iff_ne.mpr hne⟩, hs.nodes.get?_of_mem hn⟩
    · rw [hids]
      exact hw.once.filter _
    · have hp := hw.nearest.filter (· != start)
      rw [← hids] at hp
      exact List.pairwise_map.mp hp
  | false =>
    rw [reached_of_absent hstart]
    refine ⟨fun n => iff_of_false List.not_mem_nil ?_, List.nodup_nil, List.Pairwise.nil⟩
    rintro ⟨hn, -, k, hk⟩
    rw [hk.hasNode_start hs (hs.hasNode_iff.mpr ⟨n, hn, rfl⟩)] at hstart
    cases hstart

theorem NearestFirst.mem_ids {r : String → String → Prop} {start y : String} {found : List Node}
    (h : NearestFirst s r start found) :
    y ∈ found.map (·.id) ↔ s.hasNode y = true ∧ y ≠ start ∧ ∃ k, Steps r start (k + 1) y := by
  rw [List.mem_map, hs.hasNode_iff]
  constructor
  · rintro ⟨n, hn, rfl⟩
    obtain ⟨hm, hne, hk⟩ := (h.mem_iff n).mp hn
    exact ⟨⟨n, hm, rfl⟩, hne, hk⟩
  · rintro ⟨⟨n, hm, rfl⟩, hne, hk⟩
    exact ⟨n, (h.mem_iff n).mpr ⟨hm, hne, hk⟩, rfl⟩

theorem mem_superconcepts_iff {x y : String} :
    y ∈ (superconcepts x s).map (·.id) ↔ x ∈ (subconcepts y s).map (·.id) := by
  have hup := (nearest_reached hs true x).mem_ids hs (y := y)
  have hdown := (nearest_reached hs false y).mem_ids hs (y := x)
  refine hup.trans (Iff.trans ?_ hdown.symm)
  constructor
  · rintro ⟨hy, hne, k, hk⟩
    exact ⟨hk.hasNode_start hs hy, hne.symm, k, hk.flip⟩
  · rintro ⟨hx, hne, k, hk⟩
    exact ⟨hk.hasNode_start hs hx, hne.symm, k, hk.flip⟩

end

/-- The superconcepts of a concept are what the `IS_A` edges lead to from it, its subconcepts what they lead from
to it, and an absent concept has neither. -/
theorem hierarchy_nearest_first {s : Store} (hs : s.Reachable) (x : String) :
    NearestFirst s (IsA s) x (superconcepts x s) ∧
    NearestFirst s (fun y z => IsA s z y) x (subconcepts x s) ∧
    (s.hasNode x = false → superconcepts x s = [] ∧ subconcepts x s = []) ∧
    ∀ y, y ∈ (superconcepts x s).map (·.id) ↔ x ∈ (subconcepts y s).map (·.id) :=
  ⟨nearest_reached hs.linked true x, nearest_reached hs.linked false x,
    fun hx => ⟨reached_of_absent hx, reached_of_absent hx⟩,
    fun _ => mem_superconcepts_iff hs.linked⟩

def tangled : Store :=
  Ontology.new.run
    (["a", "b", "c", "d", "e", "f"].map (fun id => .addNode (concept id [])) ++
      [("1", "d", "e"), ("2", "a", "a"), ("3", "a", "c"), ("4", "a", "b"), ("5", "a", "b"), ("6", "b", "d"),
        ("7", "c", "d"), ("8", "d", "a")].map (fun (id, source, target) =>
          .addEdge { id, source, target, type := isA }) ++
      [.addEdge (hasPropertyEdge "a" "f")])

theorem hierarchy_tangled : tangled.Reachable ∧
    (superconcepts "a" tangled).map (·.id) = ["c", "b", "d", "e"] ∧
    NearestFirst tangled (IsA tangled) "a" (superconcepts "a" tangled) ∧
    NearestFirst tangled (fun y z => IsA tangled z y) "a" (subconcepts "a" tangled) ∧
    (tangled.hasNode "a" = false → superconcepts "a" tangled = [] ∧ subconcepts "a" tangled = []) ∧
    ∀ y, y ∈ (superconcepts "a" tangled).map (·.id) ↔ "a" ∈ (subconcepts y tangled).map (·.id) :=
  ⟨reachable_new.run _, by cbv, hierarchy_nearest_first (reachable_new.run _) "a"⟩

end TriGraph.Ontology
