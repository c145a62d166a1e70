import Mathlib.Data.List.Perm.Basic
import TriGraph.Proofs.Adjunction.Flags

/-!
# The best candidate

Where all scores are numbers, the order of candidates is a total preorder, and the best one is the first of those with
the highest score. It stands at the head of every list that arranges them by their scores and is stable.
-/

namespace TriGraph

namespace Ranking

variable {α : Type}

/-! ## The order of candidates -/

def order (a b : α × Float) : Ordering :=
  (Number.compare? b.2 a.2).getD .eq

def Scored (cs : List (α × Float)) : Prop :=
  ∀ c ∈ cs, Number.isNaN c.2 = false

theorem order_eq {a b : α × Float} (ha : Number.isNaN a.2 = false) (hb : Number.isNaN b.2 = false) :
    order a b = compare (Number.rank b.2) (Number.rank a.2) := by
  rw [order, Number.compare?, ha, hb]
  rfl

theorem transCmp_order {cs : List (α × Float)} (h : Scored cs) :
    Std.TransCmp fun a b : { c // c ∈ cs } => order a.1 b.1 where
  eq_swap {a b} := by
    rw [order_eq (h a.1 a.2) (h b.1 b.2), order_eq (h b.1 b.2) (h a.1 a.2)]
    exact Std.OrientedOrd.eq_swap
  isLE_trans {a b c} hab hbc := by
    rw [order_eq (h a.1 a.2) (h b.1 b.2)] at hab
    rw [order_eq (h b.1 b.2) (h c.1 c.2)] at hbc
    rw [order_eq (h a.1 a.2) (h c.1 c.2)]
    exact Std.TransOrd.isLE_trans hbc hab

/-! ## The first with the highest score -/

def Tops (cs : List (α × Float)) (c : α × Float) : Prop :=
  ∀ d ∈ cs, Number.atMost d.2 c.2 = true

def Wins (cs : List (α × Float)) (c : α × Float) : Prop :=
  Tops cs c ∧ ∃ before after, cs = before ++ c :: after ∧ ∀ d ∈ before, ¬Tops cs d

instance (cs : List (α × Float)) (c : α × Float) : Decidable (Tops cs c) :=
  inferInstanceAs (Decidable (∀ d ∈ cs, Number.atMost d.2 c.2 = true))

theorem wins_iff {cs : List (α × Float)} {c : α × Float} : Wins cs c ↔ cs.find? (decide <| Tops cs ·) = some c := by
  rw [List.find?_eq_some_iff_append, decide_eq_true_iff]
  simp [Wins]

theorem Wins.unique {cs : List (α × Float)} {c d : α × Float} (hc : Wins cs c) (hd : Wins cs d) : c = d :=
  Option.some.inj ((wins_iff.mp hc).symm.trans (wins_iff.mp hd))

theorem tops_iff {cs : List (α × Float)} {c : α × Float} (h : Scored cs) (hc : c ∈ cs) :
    Tops cs c ↔ ∀ d ∈ cs, Number.rank d.2 ≤ Number.rank c.2 :=
  forall₂_congr fun d hd => by simp [Number.atMost_iff, h d hd, h c hc]

theorem leader_cons {top c : α × Float} (htop : Number.isNaN top.2 = false) (hc : Number.isNaN c.2 = false)
    (cs : List (α × Float)) :
    leader top (c :: cs) = if Number.rank top.2 < Number.rank c.2 then leader c cs else leader top cs := by
  have hcompare : Number.compare? top.2 c.2 = some (compare (Number.rank top.2) (Number.rank c.2)) := by
    rw [Number.compare?, htop, hc]
    rfl
  simp only [leader, hcompare, ← Int.compare_eq_lt]
  cases compare (Number.rank top.2) (Number.rank c.2) <;> rfl

theorem leader_splits {top : α × Float} {cs : List (α × Float)} (h : Scored (top :: cs)) :
    ∃ before after, top :: cs = before ++ leader top cs :: after ∧
      (∀ d ∈ before, Number.rank d.2 < Number.rank (leader top cs).2) ∧
      ∀ d ∈ after, Number.rank d.2 ≤ Number.rank (leader top cs).2 := by
  induction cs generalizing top with
  | nil => exact ⟨[], [], rfl, nofun, nofun⟩
  | cons c cs ih =>
    obtain ⟨htop, hc, hcs⟩ : Number.isNaN top.2 = false ∧ Number.isNaN c.2 = false ∧ Scored cs := by
      simpa only [Scored, List.forall_mem_cons] using h
    rw [leader_cons htop hc]
    split
    · next hlt =>
      obtain ⟨before, after, hsplit, hbefore, hafter⟩ := ih (List.forall_mem_cons.mpr ⟨hc, hcs⟩)
      have hle : Number.rank c.2 ≤ Number.rank (leader c cs).2 := by
        have hmem : c ∈ before ++ leader c cs :: after := hsplit ▸ List.mem_cons_self
        rcases List.mem_append.mp hmem with hm | hm
        · exact Int.le_of_lt (hbefore c hm)
        · rcases List.mem_cons.mp hm with hm | hm
          · rw [← hm]
          · exact hafter c hm
      refine ⟨top :: before, after, by rw [hsplit, List.cons_append], ?_, hafter⟩
      exact List.forall_mem_cons.mpr ⟨Int.lt_of_lt_of_le hlt hle, hbefore⟩
    · next hnlt =>
      have hle : Number.rank c.2 ≤ Number.rank top.2 := Int.not_lt.mp hnlt
      obtain ⟨before, after, hsplit, hbefore, hafter⟩ := ih (List.forall_mem_cons.mpr ⟨htop, hcs⟩)
      cases before with
      | nil =>
        obtain ⟨htop, rfl⟩ := List.cons.inj hsplit
        rw [← htop] at hafter ⊢
        exact ⟨[], c :: cs, rfl, nofun, List.forall_mem_cons.mpr ⟨hle, hafter⟩⟩
      | cons d before =>
        obtain ⟨rfl, hrest⟩ := List.cons.inj hsplit
        obtain ⟨hd, hbefore⟩ := List.forall_mem_cons.mp hbefore
        refine ⟨top :: c :: before, after, congrArg (top :: c :: ·) hrest, ?_, hafter⟩
        exact List.forall_mem_cons.mpr ⟨hd, List.forall_mem_cons.mpr ⟨Int.lt_of_le_of_lt hle hd, hbefore⟩⟩

theorem wins_leader {top : α × Float} {cs : List (α × Float)} (h : Scored (top :: cs)) :
    Wins (top :: cs) (leader top cs) := by
  obtain ⟨before, after, hsplit, hbefore, hafter⟩ := leader_splits h
  have hmem : ∀ d ∈ before ++ leader top cs :: after, d ∈ top :: cs := fun d hd => hsplit ▸ hd
  have hleader := hmem _ (List.mem_append_right before List.mem_cons_self)
  refine ⟨(tops_iff h hleader).mpr fun d hd => ?_, before, after, hsplit, fun d hd htops => ?_⟩
  · rw [hsplit] at hd
    rcases List.mem_append.mp hd with hd | hd
    · exact Int.le_of_lt (hbefore d hd)
    · rcases List.mem_cons.mp hd with rfl | hd
      · exact Int.le_refl _
      · exact hafter d hd
  · have hle := (tops_iff h (hmem d (List.mem_append_left _ hd))).mp htops _ hleader
    exact Int.not_lt.mpr hle (hbefore d hd)

theorem best?_eq_none_iff {cs : List (α × Float)} : best? cs = none ↔ cs = [] := by
  cases cs <;> simp [best?]

theorem best?_eq_some_iff {cs : List (α × Float)} (h : Scored cs) {x : α} :
    best? cs = some x ↔ ∃ c, Wins cs c ∧ c.1 = x := by
  cases cs with
  | nil => simp [best?, wins_iff]
  | cons top cs =>
    have hwins := wins_leader h
    rw [best?, Option.some.injEq]
    constructor
    · exact fun hx => ⟨_, hwins, hx⟩
    · rintro ⟨c, hc, hx⟩
      rw [hwins.unique hc, hx]

/-! ## Arrangements -/

/-- The candidates in order, those that count as equal as they came. -/
structure Arranges (cs ds : List (α × Float)) : Prop where
  perm : ds.Perm cs
  sorted : ds.Pairwise fun a b => order a b ≠ .gt
  stable : ∀ c ∈ cs, ds.filter (order c · == .eq) = cs.filter (order c · == .eq)

theorem Arranges.wins {cs ds : List (α × Float)} {d : α × Float} (hs : Scored cs) (h : Arranges cs (d :: ds)) :
    Wins cs d := by
  have hd : d ∈ cs := h.perm.mem_iff.mp List.mem_cons_self
  have htops : ∀ e ∈ cs, Number.rank e.2 ≤ Number.rank d.2 := by
    intro e he
    rcases List.mem_cons.mp (h.perm.mem_iff.mpr he) with rfl | hm
    · exact Int.le_refl _
    · have hne := (List.pairwise_cons.mp h.sorted).1 e hm
      rw [order_eq (hs d hd) (hs e he)] at hne
      exact Int.not_lt.mp fun hlt => hne (Int.compare_eq_gt.mpr hlt)
  -- whoever has the highest score ties with the head, so the first of them in either list is the head
  have hties : ∀ e ∈ cs, decide (Tops cs e) = (order d e == .eq) := by
    intro e he
    rw [Bool.eq_iff_iff, decide_eq_true_iff, beq_iff_eq, order_eq (hs d hd) (hs e he), Int.compare_eq_eq,
      tops_iff hs he]
    constructor
    · exact fun hle => Int.le_antisymm (htops e he) (hle d hd)
    · exact fun heq c hc => heq ▸ htops c hc
  have hself : (order d d == .eq) = true := by
    rw [beq_iff_eq, order_eq (hs d hd) (hs d hd), Int.compare_eq_eq]
  have hstable := h.stable d hd
  simp only [List.filter_cons, hself, if_true] at hstable
  rw [wins_iff, ← List.head?_filter, List.filter_congr hties, ← hstable]
  rfl

theorem Arranges.head? {cs ds : List (α × Float)} (hs : Scored cs) (h : Arranges cs ds) :
    ds.head?.map Prod.fst = best? cs := by
  cases ds with
  | nil =>
    have hcs : cs = [] := h.perm.symm.eq_nil
    rw [hcs]
    rfl
  | cons d ds => exact ((best?_eq_some_iff hs).mpr ⟨d, h.wins hs, rfl⟩).symm

theorem arranges_mergeSort {cs : List (α × Float)} (h : Scored cs) :
    Arranges cs (cs.mergeSort fun a b => decide (Number.rank b.2 ≤ Number.rank a.2)) := by
  have htrans : ∀ a b c : α × Float, decide (Number.rank b.2 ≤ Number.rank a.2) = true →
      decide (Number.rank c.2 ≤ Number.rank b.2) = true → decide (Number.rank c.2 ≤ Number.rank a.2) = true := by
    intro a b c hab hbc
    simp only [decide_eq_true_eq] at hab hbc ⊢
    exact Int.le_trans hbc hab
  have htotal : ∀ a b : α × Float,
      (decide (Number.rank b.2 ≤ Number.rank a.2) || decide (Number.rank a.2 ≤ Number.rank b.2)) = true := by
    intro a b
    simpa using Int.le_total _ _
  have hperm := List.mergeSort_perm cs fun a b => decide (Number.rank b.2 ≤ Number.rank a.2)
  refine ⟨hperm, ?_, fun c hc => ?_⟩
  · refine (List.pairwise_mergeSort htrans htotal cs).imp_of_mem fun {a b} ha hb hle => ?_
    rw [order_eq (h a (hperm.mem_iff.mp ha)) (h b (hperm.mem_iff.mp hb))]
    exact fun hgt => Int.not_lt.mpr (of_decide_eq_true hle) (Int.compare_eq_gt.mp hgt)
  · have hties : ∀ d ∈ cs.filter (order c · == .eq), Number.rank d.2 = Number.rank c.2 := by
      intro d hd
      obtain ⟨hd, heq⟩ := List.mem_filter.mp hd
      rwa [beq_iff_eq, order_eq (h c hc) (h d hd), Int.compare_eq_eq] at heq
    have hsorted : (cs.filter (order c · == .eq)).Pairwise
        fun a b => decide (Number.rank b.2 ≤ Number.rank a.2) = true :=
      List.pairwise_of_forall_mem_list fun a ha b hb => by rw [hties a ha, hties b hb, decide_eq_true_iff]
    have hsub := (List.sublist_mergeSort htrans htotal hsorted List.filter_sublist).filter (order c · == .eq)
    rw [List.filter_filter, List.filter_congr fun d _ => Bool.and_self _] at hsub
    exact (hsub.eq_of_length ((hperm.filter _).length_eq.symm)).symm

end Ranking

namespace Builtin

/-! ## Exemplars of a place -/

variable {α : Type}

theorem leader_map_const {n : α} {x : Float} (hx : Number.isNaN x = false) (ns : List α) :
    Ranking.leader (n, x) (ns.map (·, x)) = (n, x) := by
  induction ns with
  | nil => rfl
  | cons m ns ih => rw [List.map_cons, Ranking.leader_cons hx hx, if_neg (Int.lt_irrefl _), ih]

theorem best?_map_const {x : Float} (hx : Number.isNaN x = false) (ns : List α) :
    Ranking.best? (ns.map (·, x)) = ns.head? := by
  cases ns with
  | nil => rfl
  | cons n ns => rw [List.map_cons, Ranking.best?, leader_map_const hx, List.head?_cons]

theorem exemplarOfContext_of_place {g : Graphs} {c : Node} {place : Value} (hc : ContextKind.ofNode c = .spatial)
    (hp : c.property? Contexts.location = some place) :
    exemplarOfContext g c = firstId (g.instances.allNodes.filter (isAt place)) := by
  have hone : Number.isNaN 1.0 = false := by decide +kernel
  rw [exemplarOfContext, exemplars, hc]
  dsimp only
  rw [hp]
  dsimp only
  rw [best?_map_const hone, firstId]

/-- The best of some scored candidates is the first with the highest score; it comes first in every arrangement of
them, and there is one. So a place has the first entity there as its exemplar. -/
theorem best_is_first_highest :
    (∀ {α : Type} (cs : List (α × Float)), Ranking.Scored cs →
      (Ranking.best? cs = none ↔ cs = []) ∧
      (∀ x, Ranking.best? cs = some x ↔ ∃ c, Ranking.Wins cs c ∧ c.1 = x) ∧
      (∃ ds, Ranking.Arranges cs ds) ∧
      ∀ ds, Ranking.Arranges cs ds → Ranking.best? cs = ds.head?.map Prod.fst) ∧
    ∀ (g : Graphs) (c : Node) (place : Value), ContextKind.ofNode c = .spatial →
      c.property? Contexts.location = some place →
      (exemplarOfContext g c = none ↔ ∀ n ∈ g.instances.allNodes, ¬isAt place n = true) ∧
      ∀ x, exemplarOfContext g c = some x ↔ ∃ n, g.instances.First (fun n => isAt place n = true) n ∧ n.id = x := by
  refine ⟨fun cs hs => ?_, fun g c place hc hp => ?_⟩
  · exact ⟨Ranking.best?_eq_none_iff, fun x => Ranking.best?_eq_some_iff hs, ⟨_, Ranking.arranges_mergeSort hs⟩,
      fun ds h => (h.head? hs).symm⟩
  · rw [exemplarOfContext_of_place hc hp]
    exact ⟨firstId_eq_none fun n => Iff.rfl, fun x => firstId_eq_some fun n => Iff.rfl⟩

def chords : List (String × Float) :=
  [("minor", 0.5), ("major", 1.0), ("seventh", 1.0)]

def homer : Node := Instances.entity "homer" "Person" [("location", .text "Ithaca")]

def dante : Node := Instances.entity "dante" "Person" [("location", .text "Europe")]

def villon : Node := Instances.entity "villon" "Person" [("location", .text "Europe")]

def poets : Trinity :=
  (Trinity.new "Poets").mapStore .instances (·.run [.addNode homer, .addNode dante, .addNode villon])

theorem best_is_first_highest_tied : Ranking.Scored chords ∧ (∃ c, Ranking.Wins chords c ∧ c.1 = "major") ∧
    ContextKind.ofNode europe = .spatial ∧ europe.property? Contexts.location = some (.text "Europe") ∧
    exemplarOfContext poets.graphs europe = some "dante" := by
  have hscored : Ranking.Scored chords := by
    unfold Ranking.Scored
    decide +kernel
  have hspatial : ContextKind.ofNode europe = .spatial := by decide +kernel
  have hfirst : poets.graphs.instances.First (fun n => isAt (.text "Europe") n = true) dante := by
    refine ⟨by decide +kernel, [homer], [villon], rfl, fun m hm => ?_⟩
    cases List.mem_singleton.mp hm
    decide +kernel
  exact ⟨hscored, ((best_is_first_highest.1 chords hscored).2.1 "major").mp (by decide +kernel), hspatial, rfl,
    ((best_is_first_highest.2 poets.graphs europe _ hspatial rfl).2 "dante").mpr ⟨dante, hfirst, rfl⟩⟩

end Builtin

end TriGraph
