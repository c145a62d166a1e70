import TriGraph.Constraint.Document
import TriGraph.Proofs.Constraint.Resolution

/-!
# Constraints and their documents

A document says by itself what it asks of an entity, by rules that follow its nesting. A constraint that is read from
it holds of just the entities of which the document holds.
-/

namespace TriGraph

/-! ## Operands -/

/-- What an operator asks of a value, the literal beside it being `v`. -/
inductive Value.Compares (u v : Value) : String → Prop where
  | gt (h : u.compare? v = some .gt) : Compares u v "$gt"
  | lt (h : u.compare? v = some .lt) : Compares u v "$lt"
  | gte (h : u.compare? v = some .gt ∨ u.compare? v = some .eq) : Compares u v "$gte"
  | lte (h : u.compare? v = some .lt ∨ u.compare? v = some .eq) : Compares u v "$lte"
  | ne (h : (u == v) = false) : Compares u v "$ne"

def Reserved (name : String) : Prop :=
  ∃ rest, name = "$" ++ rest

def Comparative (fields : List (String × Document)) : Prop :=
  fields ≠ [] ∧ ∀ f ∈ fields, Reserved f.1

theorem Comparative.perm {fs gs : List (String × Document)} (hc : Comparative fs) (h : fs.Perm gs) : Comparative gs :=
  ⟨fun hg => hc.1 (List.perm_nil.mp (hg ▸ h)), fun f hf => hc.2 f (h.mem_iff.mpr hf)⟩

inductive Value.Meets (u : Value) : Document → Prop where
  | comparisons {fields : List (String × Document)} (hc : Comparative fields)
      (h : ∀ f ∈ fields, ∃ v, Value.ofDocument? f.2 = some v ∧ u.Compares v f.1) : Meets u (.object fields)
  | equality {d : Document} {v : Value} (hd : ∀ fields, d = .object fields → ¬Comparative fields)
      (hv : Value.ofDocument? d = some v) (h : (u == v) = true) : Meets u d

def Entity.Carries (e : Entity) (name : String) (d : Document) : Prop :=
  ∃ u v, Catalog.get? name e.properties = some u ∧ Value.ofDocument? d = some v ∧ (u == v) = true

/-! ## Documents -/

mutual
inductive Document.Holds (s : Store) (e : Entity) : Document → Prop where
  | object {fields : List (String × Document)} (h : ∀ f ∈ fields, Document.KeyHolds s e f.1 f.2) :
      Document.Holds s e (.object fields)
inductive Document.KeyHolds (s : Store) (e : Entity) : String → Document → Prop where
  | all {items : List Document} (h : ∀ d ∈ items, Document.Holds s e d) : Document.KeyHolds s e "$and" (.list items)
  | any {items : List Document} {d : Document} (hd : d ∈ items) (h : Document.Holds s e d) :
      Document.KeyHolds s e "$or" (.list items)
  -- alone, this word is a list of entries; it is an attribute only at the head of a path
  | properties {fields : List (String × Document)} (h : ∀ f ∈ fields, e.Carries f.1 f.2) :
      Document.KeyHolds s e "properties" (.object fields)
  | key {name : String} {d : Document} {u : Value} (hn : ¬Reserved name) (hp : name ≠ "properties")
      (hu : e.Resolves s name u) (h : u.Meets d) : Document.KeyHolds s e name d
end

section
variable {s : Store} {e : Entity} {u : Value} {d : Document} {fields : List (String × Document)}
  {items : List Document}

theorem meets_comparative (hc : Comparative fields) :
    u.Meets (.object fields) ↔ ∀ f ∈ fields, ∃ v, Value.ofDocument? f.2 = some v ∧ u.Compares v f.1 := by
  constructor
  · intro h
    cases h with
    | comparisons _ h => exact h
    | equality hd => exact absurd hc (hd fields rfl)
  · exact fun h => .comparisons hc h

theorem meets_literal (hd : ∀ fields, d = .object fields → ¬Comparative fields) :
    u.Meets d ↔ ∃ v, Value.ofDocument? d = some v ∧ (u == v) = true := by
  constructor
  · intro h
    cases h with
    | comparisons hc => exact absurd hc (hd _ rfl)
    | equality _ hv h => exact ⟨_, hv, h⟩
  · rintro ⟨v, hv, h⟩
    exact .equality hd hv h

theorem Document.holds_object :
    (Document.object fields).Holds s e ↔ ∀ f ∈ fields, Document.KeyHolds s e f.1 f.2 :=
  ⟨fun h => by cases h with | object h => exact h, .object⟩

theorem Document.keyHolds_all : KeyHolds s e "$and" (.list items) ↔ ∀ d ∈ items, d.Holds s e := by
  constructor
  · generalize hname : "$and" = name
    intro h
    cases h with
    | all h => exact h
    | any => exact absurd hname (by decide)
    | key hn => exact absurd ⟨"and", hname.symm⟩ hn
  · exact .all

theorem Document.keyHolds_any : KeyHolds s e "$or" (.list items) ↔ ∃ d ∈ items, d.Holds s e := by
  constructor
  · generalize hname : "$or" = name
    intro h
    cases h with
    | all => exact absurd hname (by decide)
    | any hd h => exact ⟨_, hd, h⟩
    | key hn => exact absurd ⟨"or", hname.symm⟩ hn
  · rintro ⟨d, hd, h⟩
    exact .any hd h

theorem Document.keyHolds_properties : KeyHolds s e "properties" (.object fields) ↔
    ∀ f ∈ fields, e.Carries f.1 f.2 := by
  constructor
  · generalize hname : "properties" = name
    intro h
    cases h with
    | properties h => exact h
    | key _ hp => exact absurd hname.symm hp
  · exact .properties

theorem Document.keyHolds_key {name : String} (hn : ¬Reserved name) (hp : name ≠ "properties") :
    KeyHolds s e name d ↔ ∃ u, e.Resolves s name u ∧ u.Meets d := by
  constructor
  · intro h
    cases h with
    | all => exact absurd ⟨"and", rfl⟩ hn
    | any => exact absurd ⟨"or", rfl⟩ hn
    | properties => exact absurd rfl hp
    | key _ _ hu h => exact ⟨_, hu, h⟩
  · rintro ⟨u, hu, h⟩
    exact .key hn hp hu h

end

/-! ## Clauses of one key -/

namespace Constraint

theorem isOperator_iff {name : String} : isOperator name = true ↔ Reserved name := by
  unfold isOperator Reserved
  constructor
  · intro h
    cases hs : name.toList with
    | nil => simp [hs] at h
    | cons c cs =>
      obtain rfl : c = '$' := by simpa [hs] using h
      exact ⟨String.ofList cs, String.toList_injective (by simp [hs, String.toList_append])⟩
  · rintro ⟨rest, rfl⟩
    rw [String.toList_append]
    rfl

theorem operators?_eq_some {d : Document} {ops : List (String × Document)} :
    operators? d = some ops ↔ d = .object ops ∧ Comparative ops := by
  have hall : ∀ fields : List (String × Document),
      (fields.all fun f => isOperator f.1) = true ↔ ∀ f ∈ fields, Reserved f.1 := by
    intro fields
    simp only [List.all_eq_true, isOperator_iff]
  constructor
  · intro h
    unfold operators? at h
    split at h
    · cases h
    · next fields hne =>
      split at h
      · next ha =>
        obtain rfl : fields = ops := Option.some.inj h
        exact ⟨rfl, hne, (hall _).mp ha⟩
      · cases h
    · cases h
  · rintro ⟨rfl, hne, h⟩
    cases ops with
    | nil => exact absurd rfl hne
    | cons f fs => exact if_pos ((hall _).mpr h)

theorem literal_eq_ok {key : String} {d : Document} {v : Value} :
    literal key d = .ok v ↔ Value.ofDocument? d = some v := by
  unfold literal
  split
  · simp [Value.ofDocument?]
  · split
    · next w hw => rw [hw, Except.ok.injEq, Option.some.injEq]
    · next hw => simp [hw]

theorem compares_iff {u v : Value} {op : String} :
    u.Compares v op ↔ ∃ k, Comparison.ofOperator? op = some k ∧ (Predicate.compare k v).test u = true := by
  constructor
  · intro h
    cases h with
    | gt h => exact ⟨.gt, rfl, by simpa [Predicate.test, Value.greater] using h⟩
    | lt h => exact ⟨.lt, rfl, by simpa [Predicate.test, Value.less] using h⟩
    | gte h => exact ⟨.gte, rfl, by simpa [Predicate.test, Value.atLeast] using h⟩
    | lte h => exact ⟨.lte, rfl, by simpa [Predicate.test, Value.atMost] using h⟩
    | ne h => exact ⟨.ne, rfl, by simpa [Predicate.test] using h⟩
  · rintro ⟨k, hk, h⟩
    unfold Comparison.ofOperator? at hk
    split at hk <;> cases hk
    · exact .gt (by simpa [Predicate.test, Value.greater] using h)
    · exact .lt (by simpa [Predicate.test, Value.less] using h)
    · exact .gte (by simpa [Predicate.test, Value.atLeast] using h)
    · exact .lte (by simpa [Predicate.test, Value.atMost] using h)
    · exact .ne (by simpa [Predicate.test] using h)

theorem bind_eq_ok {α β : Type} {x : Except Error α} {f : α → Except Error β} {b : β} :
    x >>= f = .ok b ↔ ∃ a, x = .ok a ∧ f a = .ok b := by
  cases x with
  | error x => simp [bind, Except.bind]
  | ok a => simp [bind, Except.bind]

theorem map_eq_ok {α β : Type} {x : Except Error α} {f : α → β} {b : β} :
    x.map f = .ok b ↔ ∃ a, x = .ok a ∧ f a = b := by
  cases x with
  | error x => simp [Except.map]
  | ok a => simp [Except.map]

section
variable {s : Store} {e : Entity}

theorem clausesHold_append {find : NodeLookup} {c k : Constraint} :
    clausesHold find e (c ++ k) = (clausesHold find e c && clausesHold find e k) := by
  induction c with
  | nil => rfl
  | cons x c ih =>
    rw [List.cons_append, clausesHold, clausesHold, ih, Bool.and_assoc]

theorem clausesHold_singleton {find : NodeLookup} {x : Clause} : clausesHold find e [x] = x.holds find e :=
  Bool.and_true _

theorem hasProperties_cons {name : String} {v : Value} {vs : List (String × Value)} :
    hasProperties e ((name, v) :: vs) = true ↔
      (∃ u, Catalog.get? name e.properties = some u ∧ (u == v) = true) ∧ hasProperties e vs = true := by
  refine (Bool.and_eq_true _ _).to_iff.trans (and_congr_left fun _ => ?_)
  cases hu : Catalog.get? name e.properties <;> simp [hu]

theorem hasProperties_literals {fields : List (String × Document)} {expected : List (String × Value)}
    (h : literals fields = .ok expected) : hasProperties e expected = true ↔
      ∀ f ∈ fields, e.Carries f.1 f.2 := by
  induction fields generalizing expected with
  | nil =>
    cases h
    simp [hasProperties]
  | cons f fields ih =>
    obtain ⟨name, d⟩ := f
    obtain ⟨v, hv, h⟩ := bind_eq_ok.mp h
    obtain ⟨vs, hvs, h⟩ := bind_eq_ok.mp h
    cases h
    rw [List.forall_mem_cons, ← ih hvs, hasProperties_cons]
    simp [Entity.Carries, literal_eq_ok.mp hv]

theorem clausesHold_comparisons {key : String} {fields : List (String × Document)} {c : Constraint}
    (h : comparisons key fields = .ok c) : clausesHold (fun id => s.node? id) e c = true ↔
      ∀ f ∈ fields, ∃ u v, e.Resolves s key u ∧ Value.ofDocument? f.2 = some v ∧ u.Compares v f.1 := by
  induction fields generalizing c with
  | nil =>
    cases h
    simp [clausesHold]
  | cons f fields ih =>
    obtain ⟨op, d⟩ := f
    unfold comparisons at h
    split at h
    · cases h
    · next k hk =>
      obtain ⟨v, hv, h⟩ := bind_eq_ok.mp h
      obtain ⟨cs, hcs, h⟩ := bind_eq_ok.mp h
      cases h
      rw [List.forall_mem_cons, ← ih hcs, clausesHold, Bool.and_eq_true, holds_ofKey, literal_eq_ok.mp hv]
      simp [resolves_iff, compares_iff, hk]

theorem exists_meets {key : String} {fields : List (String × Document)} (hc : Comparative fields) :
    (∃ u, e.Resolves s key u ∧ u.Meets (.object fields)) ↔
      ∀ f ∈ fields, ∃ u v, e.Resolves s key u ∧ Value.ofDocument? f.2 = some v ∧ u.Compares v f.1 := by
  simp only [meets_comparative hc]
  constructor
  · rintro ⟨u, hu, h⟩ f hf
    obtain ⟨v, hv, hcmp⟩ := h f hf
    exact ⟨u, v, hu, hv, hcmp⟩
  · intro h
    obtain ⟨f, hf⟩ := List.exists_mem_of_ne_nil _ hc.1
    obtain ⟨u, -, hu, -⟩ := h f hf
    refine ⟨u, hu, fun g hg => ?_⟩
    obtain ⟨w, v, hw, hv, hcmp⟩ := h g hg
    obtain rfl := hu.unique hw
    exact ⟨v, hv, hcmp⟩

theorem holds_ofField {name : String} {d : Document} {c : Constraint} (h : ofField name d = .ok c) :
    clausesHold (fun id => s.node? id) e c = true ↔ Document.KeyHolds s e name d := by
  unfold ofField at h
  split at h
  · cases h
  · next hn =>
    have hn : ¬Reserved name := fun hr => hn (isOperator_iff.mpr hr)
    split at h
    · next hp =>
      subst hp
      split at h
      · obtain ⟨vs, hvs, h⟩ := bind_eq_ok.mp h
        cases h
        rw [clausesHold_singleton, Clause.holds, hasProperties_literals hvs, Document.keyHolds_properties]
      · cases h
    · next hp =>
      rw [Document.keyHolds_key hn hp]
      split at h
      · next ops hops =>
        obtain ⟨rfl, hc⟩ := operators?_eq_some.mp hops
        exact (clausesHold_comparisons h).trans (exists_meets hc).symm
      · next hops =>
        obtain ⟨v, hv, h⟩ := bind_eq_ok.mp h
        cases h
        have hd : ∀ fields, d = .object fields → ¬Comparative fields := by
          intro fields hd hc
          rw [operators?_eq_some.mpr ⟨hd, hc⟩] at hops
          cases hops
        simp only [clausesHold_singleton, holds_ofKey, resolves_iff, meets_literal hd, literal_eq_ok.mp hv]
        simp [Predicate.test]

-- along the recursion of the reader, on the document
mutual
theorem holds_ofFields {fields : List (String × Document)} {c : Constraint} (h : ofFields fields = .ok c) :
    clausesHold (fun id => s.node? id) e c = true ↔ ∀ f ∈ fields, Document.KeyHolds s e f.1 f.2 := by
  cases fields with
  | nil =>
    cases h
    simp [clausesHold]
  | cons f fields =>
    obtain ⟨name, d⟩ := f
    obtain ⟨c₁, h₁, h⟩ := bind_eq_ok.mp h
    obtain ⟨c₂, h₂, h⟩ := bind_eq_ok.mp h
    cases h
    rw [List.forall_mem_cons, clausesHold_append, Bool.and_eq_true, holds_ofFieldOrJoin h₁, holds_ofFields h₂]
theorem holds_ofFieldOrJoin {name : String} {d : Document} {c : Constraint} (h : ofFieldOrJoin name d = .ok c) :
    clausesHold (fun id => s.node? id) e c = true ↔ Document.KeyHolds s e name d := by
  cases d with
  | list items =>
    unfold ofFieldOrJoin at h
    split at h
    · next hn =>
      subst hn
      obtain ⟨cs, hcs, rfl⟩ := map_eq_ok.mp h
      rw [clausesHold_singleton, Clause.holds, Document.keyHolds_all, (holds_ofItems hcs).1]
    · split at h
      · next hn =>
        subst hn
        obtain ⟨cs, hcs, rfl⟩ := map_eq_ok.mp h
        rw [clausesHold_singleton, Clause.holds, Document.keyHolds_any, (holds_ofItems hcs).2]
      · exact holds_ofField h
  | _ =>
    unfold ofFieldOrJoin at h
    split at h
    · cases h
    · exact holds_ofField h
theorem holds_ofItems {op : String} {items : List Document} {cs : List Constraint} (h : ofItems op items = .ok cs) :
    (allHold (fun id => s.node? id) e cs = true ↔ ∀ d ∈ items, d.Holds s e) ∧
      (anyHolds (fun id => s.node? id) e cs = true ↔ ∃ d ∈ items, d.Holds s e) := by
  cases items with
  | nil =>
    cases h
    simp [allHold, anyHolds]
  | cons d ds =>
    cases d with
    | object fields =>
      obtain ⟨c, hc, h⟩ := bind_eq_ok.mp h
      obtain ⟨ks, hks, h⟩ := bind_eq_ok.mp h
      cases h
      obtain ⟨hall, hany⟩ := holds_ofItems hks
      have hd : clausesHold (fun id => s.node? id) e c = true ↔ (Document.object fields).Holds s e :=
        (holds_ofFields hc).trans Document.holds_object.symm
      rw [List.forall_mem_cons, List.exists_mem_cons_iff, ← hd, ← hall, ← hany]
      exact ⟨(Bool.and_eq_true _ _).to_iff, (Bool.or_eq_true _ _).to_iff⟩
    | _ => cases h
end

theorem holds_ofDocument_iff {d : Document} {c : Constraint} (h : ofDocument d = .ok c) :
    s.holds c e = true ↔ d.Holds s e := by
  cases d with
  | object fields => exact (holds_ofFields h).trans Document.holds_object.symm
  | _ => cases h

end

end Constraint

end TriGraph
