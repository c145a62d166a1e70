import TriGraph.Proofs.Store.Lookup

/-!
# What a key resolves to

A key with dots is walked segment by segment, and the walk may stop anywhere. A plain key is the id, the type, an
entry of the bag or an attribute, and the earlier of these counts.
-/

namespace TriGraph

/-! ## Paths -/

inductive Place.Leads (s : Store) : Place → List String → Value → Prop where
  | entity (e : Entity) : Leads s (.entity e) [] (.text e.id)
  | bag (ps : Properties) : Leads s (.bag ps) [] (.object ps)
  | value (v : Value) : Leads s (.value v) [] v
  | id {e : Entity} {ss : List String} {v : Value} (h : Leads s (.value (.text e.id)) ss v) :
      Leads s (.entity e) ("id" :: ss) v
  | type {e : Entity} {ss : List String} {v : Value} (h : Leads s (.value (.text e.type)) ss v) :
      Leads s (.entity e) ("type" :: ss) v
  | properties {e : Entity} {ss : List String} {v : Value} (h : Leads s (.bag e.properties) ss v) :
      Leads s (.entity e) ("properties" :: ss) v
  | source {e : Edge} {n : Node} {ss : List String} {v : Value} (hn : s.node? e.source = some n)
      (h : Leads s (.entity (.node n)) ss v) : Leads s (.entity (.edge e)) ("source" :: ss) v
  | target {e : Edge} {n : Node} {ss : List String} {v : Value} (hn : s.node? e.target = some n)
      (h : Leads s (.entity (.node n)) ss v) : Leads s (.entity (.edge e)) ("target" :: ss) v
  | entry {ps : Properties} {name : String} {u : Value} {ss : List String} {v : Value}
      (hu : Catalog.get? name ps = some u) (h : Leads s (.value u) ss v) : Leads s (.bag ps) (name :: ss) v
  | field {fs : List (String × Value)} {name : String} {u : Value} {ss : List String} {v : Value}
      (hu : Catalog.get? name fs = some u) (h : Leads s (.value u) ss v) : Leads s (.value (.object fs)) (name :: ss) v

section
variable {s : Store}

theorem Place.Leads.of_attribute {e : Entity} {q : Place} {name : String} {ss : List String} {v : Value}
    (hq : attribute? (fun id => s.node? id) name e = some q) (h : Leads s q ss v) :
    Leads s (.entity e) (name :: ss) v := by
  unfold attribute? at hq
  split at hq
  · cases hq
    exact .id h
  · cases hq
    exact .type h
  · cases hq
    exact .properties h
  · obtain ⟨n, hn, rfl⟩ := Option.map_eq_some_iff.mp hq
    exact .source hn h
  · obtain ⟨n, hn, rfl⟩ := Option.map_eq_some_iff.mp hq
    exact .target hn h
  · cases hq

theorem Place.Leads.of_step {p q : Place} {name : String} {ss : List String} {v : Value}
    (hq : p.step? (fun id => s.node? id) name = some q) (h : Leads s q ss v) : Leads s p (name :: ss) v := by
  cases p with
  | entity e => exact .of_attribute hq h
  | bag ps =>
    obtain ⟨u, hu, rfl⟩ := Option.map_eq_some_iff.mp hq
    exact .entry hu h
  | value u =>
    cases u with
    | object fs =>
      obtain ⟨u, hu, rfl⟩ := Option.map_eq_some_iff.mp hq
      exact .field hu h
    | _ => cases hq

theorem Place.leads_of_walk {ss : List String} {p q : Place} (h : p.walk? (fun id => s.node? id) ss = some q) :
    Leads s p ss q.toValue := by
  induction ss generalizing p with
  | nil =>
    obtain rfl : p = q := Option.some.inj h
    cases p with
    | entity e => exact .entity e
    | bag ps => exact .bag ps
    | value v => exact .value v
  | cons name ss ih =>
    obtain ⟨r, hr, hq⟩ := Option.bind_eq_some_iff.mp h
    exact .of_step hr (ih hq)

theorem Place.Leads.walk {p : Place} {ss : List String} {v : Value} (h : Leads s p ss v) :
    (p.walk? (fun id => s.node? id) ss).map Place.toValue = some v := by
  induction h with
  | entity e => rfl
  | bag ps => rfl
  | value v => rfl
  | id _ ih => exact ih
  | type _ ih => exact ih
  | properties _ ih => exact ih
  | source hn _ ih => simpa only [walk?, step?, attribute?, hn, Option.map_some, Option.bind_some] using ih
  | target hn _ ih => simpa only [walk?, step?, attribute?, hn, Option.map_some, Option.bind_some] using ih
  | entry hu _ ih => simpa only [walk?, step?, hu, Option.map_some, Option.bind_some] using ih
  | field hu _ ih => simpa only [walk?, step?, hu, Option.map_some, Option.bind_some] using ih

theorem Place.leads_iff {p : Place} {ss : List String} {v : Value} :
    Leads s p ss v ↔ (p.walk? (fun id => s.node? id) ss).map Place.toValue = some v := by
  refine ⟨Leads.walk, fun h => ?_⟩
  obtain ⟨q, hq, rfl⟩ := Option.map_eq_some_iff.mp h
  exact leads_of_walk hq

end

/-! ## Keys -/

def segments (key : String) : List String :=
  (key.toList.splitOn '.').map String.ofList

inductive Entity.Resolves (s : Store) (e : Entity) : String → Value → Prop where
  | path {key : String} {v : Value} (hd : '.' ∈ key.toList) (h : Place.Leads s (.entity e) (segments key) v) :
      Resolves s e key v
  | id : Resolves s e "id" (.text e.id)
  | type : Resolves s e "type" (.text e.type)
  | entry {key : String} {v : Value} (hd : '.' ∉ key.toList) (hi : key ≠ "id") (ht : key ≠ "type")
      (h : Catalog.get? key e.properties = some v) : Resolves s e key v
  | fallback {key : String} {v : Value} (hd : '.' ∉ key.toList) (hi : key ≠ "id") (ht : key ≠ "type")
      (hk : Catalog.get? key e.properties = none) (h : Place.Leads s (.entity e) [key] v) : Resolves s e key v

theorem splitDots_eq (cs : List Char) : splitDots cs = cs.splitOn '.' := by
  induction cs with
  | nil => rfl
  | cons c cs ih =>
    unfold List.splitOn at ih ⊢
    rw [splitDots, ih, List.splitOnP_cons_eq_if_modifyHead]
    by_cases hc : c = '.'
    · subst hc
      rfl
    · rw [if_neg hc, if_neg (by simpa using hc)]
      cases hs : List.splitOnP (· == '.') cs with
      | nil => exact absurd hs (List.splitOnP_ne_nil _ _)
      | cons t ts => rfl

def keyValue? (find : NodeLookup) (e : Entity) (key : String) : Option Value :=
  if key.toList.contains '.' then pathValue? find e (segments key) else fieldValue? find e key

theorem holdsAt_iff {q : Predicate} {o : Option Value} : holdsAt q o = true ↔ ∃ u, o = some u ∧ q.test u = true := by
  cases o <;> simp [holdsAt]

theorem holds_ofKey {find : NodeLookup} {e : Entity} {key : String} {q : Predicate} :
    (Clause.ofKey key q).holds find e = true ↔ ∃ u, keyValue? find e key = some u ∧ q.test u = true := by
  unfold Clause.ofKey keyValue? segments
  rw [← splitDots_eq, ← holdsAt_iff]
  split <;> rfl

section
variable {s : Store} {e : Entity}

theorem Entity.Resolves.value {key : String} {v : Value} (h : e.Resolves s key v) :
    keyValue? (fun id => s.node? id) e key = some v := by
  unfold keyValue?
  cases h with
  | path hd h =>
    rw [if_pos (by simpa using hd)]
    exact Place.leads_iff.mp h
  | id => rfl
  | type => rfl
  | entry hd hi ht h =>
    rw [if_neg (by simpa using hd), fieldValue?, if_neg hi, if_neg ht, h]
  | fallback hd hi ht hk h =>
    rw [if_neg (by simpa using hd), fieldValue?, if_neg hi, if_neg ht, hk]
    have hw := Place.leads_iff.mp h
    cases ha : Place.attribute? (fun id => s.node? id) key e with
    | none => simp [Place.walk?, Place.step?, ha] at hw
    | some q => simpa [Place.walk?, Place.step?, ha] using hw

theorem resolves_of_value {key : String} {v : Value} (h : keyValue? (fun id => s.node? id) e key = some v) :
    e.Resolves s key v := by
  unfold keyValue? at h
  split at h
  · next hd => exact .path (by simpa using hd) (Place.leads_iff.mpr h)
  · next hd =>
    have hd : '.' ∉ key.toList := by simpa using hd
    unfold fieldValue? at h
    split at h
    · next hi =>
      cases h
      exact hi ▸ .id
    · next hi =>
      split at h
      · next ht =>
        cases h
        exact ht ▸ .type
      · next ht =>
        split at h
        · next hk => exact .entry hd hi ht (hk.trans h)
        · next hk =>
          obtain ⟨q, hq, rfl⟩ := Option.map_eq_some_iff.mp h
          exact .fallback hd hi ht hk (.of_attribute hq (Place.leads_of_walk rfl))

theorem resolves_iff {key : String} {v : Value} :
    e.Resolves s key v ↔ keyValue? (fun id => s.node? id) e key = some v :=
  ⟨Entity.Resolves.value, resolves_of_value⟩

theorem Entity.Resolves.unique {key : String} {u v : Value} (hu : e.Resolves s key u) (hv : e.Resolves s key v) :
    u = v :=
  Option.some.inj (hu.value.symm.trans hv.value)

end

end TriGraph
