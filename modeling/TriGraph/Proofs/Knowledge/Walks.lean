import TriGraph.Proofs.Knowledge.Reads
import TriGraph.Proofs.Table

/-!
# Walks in two halves

A walk through one plan and then another is a walk through the first and, if that one comes to its end, a walk through
the second from where the first has arrived. A walk that fails or ends early does the same whatever follows.
-/

namespace TriGraph

namespace Knowledge

/-! ## What a question returns -/

def Returns {α : Type} (q : Recall α) (P : α → Prop) : Prop :=
  ∀ m x m', q.run m = (.ok x, m') → P x

namespace Returns

variable {α β : Type} {P : α → Prop} {Q : β → Prop}

theorem any {q : Recall α} : Returns q fun _ => True :=
  fun _ _ _ _ => trivial

theorem pure {x : α} (h : P x) : Returns (pure x : Recall α) P := by
  intro m y m' hy
  cases hy
  exact h

theorem throw (e : Error) : Returns (throw e : Recall α) P := by
  intro m y m' hy
  cases hy

theorem bind {q : Recall α} {f : α → Recall β} (hq : Returns q P) (hf : ∀ x, P x → Returns (f x) Q) :
    Returns (q >>= f) Q := by
  intro m y m' hy
  rw [run_bind] at hy
  cases h : q.run m with
  | mk r m₁ =>
  rw [h] at hy
  cases r with
  | error e => cases hy
  | ok x => exact hf x (hq m x m₁ h) m₁ y m' hy

end Returns

/-! ## One step -/

def leg (k : Knowledge) (l : Layer) (id : String) (s : TraversalStep) : Recall (Option Waypoint) := do
  let a ← k.require s.adjunction
  if a.start s.side ≠ l then
    throw (.directionMismatch s.adjunction s.side (a.start s.side) l)
  return (← k.apply a s.side id).map (k.waypoint (a.finish s.side))

section
variable (k : Knowledge)

theorem follow_cons (l : Layer) (id : String) (s : TraversalStep) (ss : List TraversalStep) :
    k.follow l id (s :: ss) = do
      match ← k.leg l id s with
      | none => return []
      | some x => return x :: (← k.follow x.layer x.id ss) := by
  rw [follow, leg, bind_assoc]
  refine bind_congr fun a => ?_
  by_cases hl : a.start s.side = l
  · simp only [hl, ne_eq, not_true_eq_false, if_false, pure_bind, bind_assoc]
    refine bind_congr fun next => ?_
    cases next with
    | none => rfl
    | some next => rfl
  · simp only [hl, ne_eq, not_false_eq_true, if_true]
    rfl

/-! ## Two halves -/

def arrival (l : Layer) (id : String) : List Waypoint → Layer × String
  | [] => (l, id)
  | x :: w => arrival x.layer x.id w

theorem arrival_of_getLast? {x y : Waypoint} {w : List Waypoint} (h : (x :: w).getLast? = some y) :
    arrival x.layer x.id w = (y.layer, y.id) := by
  induction w generalizing x with
  | nil =>
    cases h
    rfl
  | cons z w ih =>
    rw [List.getLast?_cons_cons] at h
    exact ih h

theorem follow_append (p q : List TraversalStep) (l : Layer) (id : String) :
    k.follow l id (p ++ q) = do
      let w ← k.follow l id p
      if w.length = p.length then
        let v ← k.follow (arrival l id w).1 (arrival l id w).2 q
        return w ++ v
      else return w := by
  induction p generalizing l id with
  | nil => simp [follow, arrival]
  | cons s p ih =>
    rw [List.cons_append, follow_cons, follow_cons, bind_assoc]
    refine bind_congr fun x => ?_
    cases x with
    | none => simp
    | some x =>
      simp only [ih, bind_assoc, pure_bind]
      refine bind_congr fun w => ?_
      by_cases hw : w.length = p.length
      · simp [hw, arrival]
      · simp [hw]

theorem traverse_append (graph id : String) (p q : List TraversalStep) :
    k.traverse graph id (p ++ q) = do
      let w ← k.traverse graph id p
      match if w.length = p.length + 1 then w.getLast? else none with
      | none => return w
      | some x => return w ++ (← k.follow x.layer x.id q) := by
  unfold traverse
  rw [bind_assoc]
  refine bind_congr fun l => ?_
  by_cases hn : (k.store l).hasNode id = true
  · simp only [hn, if_true, follow_append, bind_assoc, pure_bind]
    refine bind_congr fun w => ?_
    by_cases hw : w.length = p.length
    · obtain ⟨x, hx⟩ : ∃ x, (k.waypoint l id :: w).getLast? = some x := ⟨_, List.getLast?_cons⟩
      have ha : arrival l id w = (x.layer, x.id) := arrival_of_getLast? hx
      simp [hw, hx, ha]
    · simp [hw]
  · simp [hn]

theorem layer_name (l : Layer) : layer l.name = .ok l := by
  have hl : l.name.toLower = l.name := by cases l <;> decide +kernel
  unfold layer Layer.parse
  rw [hl]
  cases l <;> rfl

theorem traverse_of_node {l : Layer} {id : String} (h : (k.node? l id).isSome) (plan : List TraversalStep) :
    k.traverse l.name id plan = do return k.waypoint l id :: (← k.follow l id plan) := by
  obtain ⟨n, hn⟩ := Option.isSome_iff_exists.mp h
  have hh : (k.store l).hasNode id = true := Table.contains_of_get? hn
  unfold traverse
  rw [layer_name]
  change (pure l >>= _) = _
  rw [pure_bind, if_pos hh]

/-! ## The places of a walk -/

theorem places_of_follow (plan : List TraversalStep) (l : Layer) (id : String) :
    Returns (k.follow l id plan) fun w => w.length ≤ plan.length ∧ ∀ x ∈ w, x.node = k.node? x.layer x.id := by
  induction plan generalizing l id with
  | nil => exact .pure (by simp)
  | cons s plan ih =>
    have hleg : Returns (k.leg l id s) fun x? => ∀ x ∈ x?, x.node = k.node? x.layer x.id := by
      unfold leg
      refine Returns.any.bind fun a _ => ?_
      by_cases hl : a.start s.side = l
      · simp only [hl, ne_eq, not_true_eq_false, if_false]
        refine Returns.any.bind fun next _ => .pure fun x hx => ?_
        obtain ⟨next, -, rfl⟩ := Option.map_eq_some_iff.mp hx
        rfl
      · simp only [hl, ne_eq, not_false_eq_true, if_true]
        exact .throw _
    rw [follow_cons]
    refine hleg.bind fun x? hx => ?_
    cases x? with
    | none => exact .pure (by simp)
    | some x =>
      refine (ih x.layer x.id).bind fun w hw => .pure ?_
      exact ⟨Nat.succ_le_succ hw.1, List.forall_mem_cons.mpr ⟨hx x rfl, hw.2⟩⟩

theorem places_of_traverse (graph id : String) (plan : List TraversalStep) :
    Returns (k.traverse graph id plan) fun w =>
      w.length ≤ plan.length + 1 ∧ ∀ x ∈ w, x.node = k.node? x.layer x.id := by
  unfold traverse
  refine Returns.any.bind fun l _ => ?_
  split
  · refine (places_of_follow k plan l id).bind fun w hw => .pure ?_
    exact ⟨Nat.succ_le_succ hw.1, List.forall_mem_cons.mpr ⟨rfl, hw.2⟩⟩
  · exact .pure (by simp)

end

end Knowledge

namespace Trinity

def walk (graph id : String) (plan : List TraversalStep) (t : Trinity) :
    Except Knowledge.Error (List Waypoint) × Trinity :=
  t.ask fun k => k.traverse graph id plan

/-- A walk through two plans goes through the second one from where the first has arrived, if that has taken all its
steps. -/
theorem walk_append {t : Trinity} (h : t.Reachable) (graph id : String) (p q : List TraversalStep) :
    (∀ e, (t.walk graph id p).1 = .error e → t.walk graph id (p ++ q) = t.walk graph id p) ∧
    (∀ w, (t.walk graph id p).1 = .ok w → w.length ≤ p.length + 1) ∧
    (∀ w, (t.walk graph id p).1 = .ok w → w.length < p.length + 1 →
      t.walk graph id (p ++ q) = t.walk graph id p) ∧
    ∀ w x, (t.walk graph id p).1 = .ok w → w.length = p.length + 1 → w.getLast? = some x → x.node.isSome →
      (t.walk graph id (p ++ q)).1 = (t.walk x.layer.name x.id q).1.map (fun v => w ++ v.tail) ∧
      (t.walk graph id (p ++ q)).2 = ((t.walk graph id p).2.walk x.layer.name x.id q).2 := by
  have hwalk : ∀ (u : Trinity) graph id plan, u.walk graph id plan =
      (((u.knowledge.traverse graph id plan).run u.memo).1,
        { u with memo := ((u.knowledge.traverse graph id plan).run u.memo).2 }) := fun _ _ _ _ => rfl
  simp only [hwalk]
  rw [Knowledge.traverse_append, Knowledge.run_bind]
  cases hp : (t.knowledge.traverse graph id p).run t.memo with
  | mk r m =>
  cases r with
  | error e => simp
  | ok w =>
    obtain ⟨hlen, hnode⟩ := Knowledge.places_of_traverse _ _ _ _ _ _ _ hp
    refine ⟨?_, ?_, ?_, ?_⟩
    · intro e he
      cases he
    · intro v hv
      cases hv
      exact hlen
    · intro v hv hs
      cases hv
      simp [Nat.ne_of_lt hs]
    · intro v x hv hf hx hn
      cases hv
      rw [hnode x (List.mem_of_getLast? hx)] at hn
      have hm : t.knowledge.Agree t.memo m := by
        have := (Knowledge.steady_traverse h.named graph id p).keeps t.memo
        rwa [hp] at this
      -- the second half may as well begin with the memo of the whole walk
      have hs := (Knowledge.steady_follow h.named q x.layer x.id).answers t.memo m hm
      simp only [hf, hx, if_true, Knowledge.traverse_of_node _ hn, Knowledge.run_bind]
      revert hs
      obtain ⟨r, m₁⟩ := (t.knowledge.follow x.layer x.id q).run t.memo
      obtain ⟨r', m₂⟩ := (t.knowledge.follow x.layer x.id q).run m
      rintro rfl
      cases r with
      | error e => exact ⟨rfl, rfl⟩
      | ok v => exact ⟨rfl, rfl⟩

def copies : Trinity :=
  { ((({ name := "t" } : Trinity).register copying).setStore .ontology
        (Ontology.new.addNode (Ontology.concept "Author" []))).setStore .instances
          (Instances.new.addNode (Instances.entity "copy of Author" "Author" [])) with
    memo := [(⟨"copying", .left, "Author"⟩, "copy of Author")] }

theorem reachable_copies : copies.Reachable :=
  ((((Reachable.start "t").register copying).store .ontology _).store .instances _).memo _

theorem walk_copies : (copies.walk "ontological" "Author" [⟨"copying", .left⟩]).1 =
    .ok [copies.knowledge.waypoint .ontology "Author", copies.knowledge.waypoint .instances "copy of Author"] := by
  have hn : (copies.knowledge.node? .ontology "Author").isSome := rfl
  have h := copies.knowledge.traverse_of_node hn [⟨"copying", .left⟩]
  exact congrArg (fun q => (q.run copies.memo).1) h

theorem walk_append_copies : copies.Reachable ∧
      (copies.walk "ontological" "Author" [⟨"copying", .left⟩]).1 =
        .ok [copies.knowledge.waypoint .ontology "Author", copies.knowledge.waypoint .instances "copy of Author"] ∧
      (copies.walk "ontological" "Author" [⟨"copying", .left⟩, ⟨"copying", .right⟩]).1 =
        (copies.walk "instance" "copy of Author" [⟨"copying", .right⟩]).1.map fun v =>
          [copies.knowledge.waypoint .ontology "Author", copies.knowledge.waypoint .instances "copy of Author"]
            ++ v.tail :=
  ⟨reachable_copies, walk_copies,
    ((walk_append reachable_copies "ontological" "Author" [⟨"copying", .left⟩] [⟨"copying", .right⟩]).2.2.2 _ _
      walk_copies rfl rfl rfl).1⟩

end Trinity

end TriGraph
