import TriGraph.Proofs.Constraint.Rearrangement

/-!
# Accepted documents

The documents that a constraint is read from form a grammar: which form an operand has to have depends on the key that
it stands under, and on whether all of its own names are operators.
-/

namespace TriGraph

/-! ## The grammar -/

inductive Document.NullFree : Document → Prop where
  | bool (b : Bool) : NullFree (.bool b)
  | int (n : Int) : NullFree (.int n)
  | float (x : Float) : NullFree (.float x)
  | text (s : String) : NullFree (.text s)
  | list {items : List Document} (h : ∀ d ∈ items, NullFree d) : NullFree (.list items)
  | object {fields : List (String × Document)} (h : ∀ f ∈ fields, NullFree f.2) : NullFree (.object fields)

/-- What may stand under a key that is compared: literals under the names of operators, or one literal. -/
inductive Document.IsOperand : Document → Prop where
  | comparisons {fields : List (String × Document)} (hc : Comparative fields)
      (h : ∀ f ∈ fields, f.1 ∈ ["$gt", "$lt", "$gte", "$lte", "$ne"] ∧ f.2.NullFree) : IsOperand (.object fields)
  | literal {d : Document} (hd : ∀ fields, d = .object fields → ¬Comparative fields) (h : d.NullFree) : IsOperand d

mutual
inductive Document.IsConstraint : Document → Prop where
  | object {fields : List (String × Document)} (h : ∀ f ∈ fields, Document.KeyFits f.1 f.2) :
      Document.IsConstraint (.object fields)
inductive Document.KeyFits : String → Document → Prop where
  | join {name : String} {items : List Document} (hn : name = "$and" ∨ name = "$or")
      (h : ∀ d ∈ items, Document.IsConstraint d) : Document.KeyFits name (.list items)
  | properties {fields : List (String × Document)} (h : ∀ f ∈ fields, f.2.NullFree) :
      Document.KeyFits "properties" (.object fields)
  | key {name : String} {d : Document} (hn : ¬Reserved name) (hp : name ≠ "properties") (h : d.IsOperand) :
      Document.KeyFits name d
end

section
variable {d : Document} {fields : List (String × Document)} {items : List Document} {name : String}

theorem Document.nullFree_list : (Document.list items).NullFree ↔ ∀ d ∈ items, d.NullFree :=
  ⟨fun h => by cases h with | list h => exact h, .list⟩

theorem Document.nullFree_object : (Document.object fields).NullFree ↔ ∀ f ∈ fields, f.2.NullFree :=
  ⟨fun h => by cases h with | object h => exact h, .object⟩

theorem Document.isOperand_comparative (hc : Comparative fields) : (Document.object fields).IsOperand ↔
    ∀ f ∈ fields, f.1 ∈ ["$gt", "$lt", "$gte", "$lte", "$ne"] ∧ f.2.NullFree := by
  constructor
  · intro h
    cases h with
    | comparisons _ h => exact h
    | literal hd => exact absurd hc (hd fields rfl)
  · exact .comparisons hc

theorem Document.isOperand_literal (hd : ∀ fields, d = .object fields → ¬Comparative fields) :
    d.IsOperand ↔ d.NullFree := by
  constructor
  · intro h
    cases h with
    | comparisons hc => exact absurd hc (hd _ rfl)
    | literal _ h => exact h
  · exact .literal hd

theorem Document.isConstraint_object : (Document.object fields).IsConstraint ↔ ∀ f ∈ fields, KeyFits f.1 f.2 :=
  ⟨fun h => by cases h with | object h => exact h, .object⟩

theorem reserved_of_join (hn : name = "$and" ∨ name = "$or") : Reserved name := by
  rcases hn with rfl | rfl
  · exact ⟨"and", rfl⟩
  · exact ⟨"or", rfl⟩

theorem Document.keyFits_join (hn : name = "$and" ∨ name = "$or") :
    KeyFits name d ↔ ∃ items, d = .list items ∧ ∀ i ∈ items, i.IsConstraint := by
  constructor
  · intro h
    cases h with
    | join _ h => exact ⟨_, rfl, h⟩
    | properties => exact absurd hn (by decide)
    | key hnot => exact absurd (reserved_of_join hn) hnot
  · rintro ⟨items, rfl, h⟩
    exact .join hn h

theorem not_reserved_properties : ¬Reserved "properties" :=
  mt Constraint.isOperator_iff.mpr (by decide)

theorem Document.keyFits_of_not_join (hn : ¬(name = "$and" ∨ name = "$or")) : KeyFits name d ↔ ¬Reserved name ∧
    if name = "properties" then ∃ fields, d = .object fields ∧ ∀ f ∈ fields, f.2.NullFree else d.IsOperand := by
  constructor
  · intro h
    cases h with
    | join hj => exact absurd hj hn
    | properties h => exact ⟨not_reserved_properties, by rw [if_pos rfl]; exact ⟨_, rfl, h⟩⟩
    | key hr hp h => exact ⟨hr, by rwa [if_neg hp]⟩
  · rintro ⟨hr, h⟩
    split at h
    · next hp =>
      obtain ⟨fields, rfl, h⟩ := h
      exact hp ▸ .properties h
    · next hp => exact .key hr hp h

end

/-! ## Literals -/

namespace Value

mutual
theorem ofDocument?_accepts (d : Document) : (∃ v, ofDocument? d = some v) ↔ d.NullFree := by
  cases d with
  | null => exact ⟨fun ⟨_, h⟩ => (nomatch h), fun h => (nomatch h)⟩
  | bool b => exact ⟨fun _ => .bool b, fun _ => ⟨_, rfl⟩⟩
  | int n => exact ⟨fun _ => .int n, fun _ => ⟨_, rfl⟩⟩
  | float x => exact ⟨fun _ => .float x, fun _ => ⟨_, rfl⟩⟩
  | text s => exact ⟨fun _ => .text s, fun _ => ⟨_, rfl⟩⟩
  | list items =>
    rw [Document.nullFree_list, ← ofItems?_accepts items]
    simp [ofDocument?]
  | object fields =>
    rw [Document.nullFree_object, ← ofFields?_accepts fields]
    simp [ofDocument?]
theorem ofItems?_accepts (items : List Document) : (∃ vs, ofItems? items = some vs) ↔ ∀ d ∈ items, d.NullFree := by
  cases items with
  | nil => simp [ofItems?]
  | cons d items =>
    rw [List.forall_mem_cons, ← ofDocument?_accepts d, ← ofItems?_accepts items, ofItems?]
    cases ofDocument? d <;> cases ofItems? items <;> simp
theorem ofFields?_accepts (fields : List (String × Document)) :
    (∃ vs, ofFields? fields = some vs) ↔ ∀ f ∈ fields, f.2.NullFree := by
  cases fields with
  | nil => simp [ofFields?]
  | cons f fields =>
    obtain ⟨name, d⟩ := f
    rw [List.forall_mem_cons, ← ofDocument?_accepts d, ← ofFields?_accepts fields, ofFields?]
    cases ofDocument? d <;> cases ofFields? fields <;> simp
end

end Value

namespace Constraint

/-! ## Keys -/

theorem ofOperator?_accepts {op : String} :
    (∃ k, Comparison.ofOperator? op = some k) ↔ op ∈ ["$gt", "$lt", "$gte", "$lte", "$ne"] := by
  unfold Comparison.ofOperator?
  split <;> simp_all

theorem operand_accepted {name : String} {d : Document} (hn : ¬Reserved name) (hp : name ≠ "properties") :
    (∃ c, ofField name d = .ok c) ↔ d.IsOperand := by
  unfold ofField
  rw [if_neg (mt isOperator_iff.mp hn), if_neg hp]
  split
  · next ops hops =>
    obtain ⟨rfl, hc⟩ := operators?_eq_some.mp hops
    simp only [comparisons_accepted, ofOperator?_accepts, Value.ofDocument?_accepts, Document.isOperand_comparative hc]
  · next hops =>
    have hd : ∀ fields, d = .object fields → ¬Comparative fields := by
      intro fields hd hc
      rw [operators?_eq_some.mpr ⟨hd, hc⟩] at hops
      cases hops
    have hliteral : ∀ v, literal name d = .ok v ↔ Value.ofDocument? d = some v := fun v => literal_eq_ok
    rw [Document.isOperand_literal hd, ← Value.ofDocument?_accepts]
    simp only [← hliteral]
    cases literal name d <;> simp [bind, Except.bind, pure, Except.pure]

theorem ofField_accepted {name : String} {d : Document} : (∃ c, ofField name d = .ok c) ↔ ¬Reserved name ∧
    if name = "properties" then ∃ fields, d = .object fields ∧ ∀ f ∈ fields, f.2.NullFree else d.IsOperand := by
  by_cases hr : Reserved name
  · simp [ofField, isOperator_iff.mpr hr, hr]
  by_cases hp : name = "properties"
  · subst hp
    rw [if_pos rfl]
    cases d with
    | object fields =>
      have hfields : (∃ c, ofField "properties" (.object fields) = .ok c) ↔
          ∀ f ∈ fields, ∃ v, Value.ofDocument? f.2 = some v := properties_accepted
      simp only [Value.ofDocument?_accepts] at hfields
      simpa [hr] using hfields
    | _ => simp [ofField, isOperator]
  · rw [if_neg hp, operand_accepted hr hp]
    simp [hr]

theorem ofFieldOrJoin_eq_ofField {name : String} (hn : ¬(name = "$and" ∨ name = "$or")) (d : Document) :
    ofFieldOrJoin name d = ofField name d := by
  obtain ⟨hand, hor⟩ := not_or.mp hn
  cases d <;> simp [ofFieldOrJoin, hand, hor]

theorem joining_accepted {name : String} (hn : name = "$and" ∨ name = "$or") {d : Document} :
    (∃ c, ofFieldOrJoin name d = .ok c) ↔ ∃ items, d = .list items ∧ ∀ i ∈ items, ∃ c, ofDocument i = .ok c := by
  cases d with
  | list items => simp only [joined_accepted hn, Document.list.injEq, exists_eq_left']
  | _ => simp [ofFieldOrJoin, hn]

/-! ## Documents -/

theorem object_accepted {fields : List (String × Document)}
    (h : (∀ f ∈ fields, ∃ c, ofFieldOrJoin f.1 f.2 = .ok c) ↔ ∀ f ∈ fields, Document.KeyFits f.1 f.2) :
    (∃ c, ofDocument (.object fields) = .ok c) ↔ (Document.object fields).IsConstraint := by
  rw [Document.isConstraint_object, ofDocument, ofFields_accepted, h]

-- along the nesting of the document, where the joined constraints of a key lead back to keys
mutual
theorem fields_accepted (fields : List (String × Document)) :
    (∀ f ∈ fields, ∃ c, ofFieldOrJoin f.1 f.2 = .ok c) ↔ ∀ f ∈ fields, Document.KeyFits f.1 f.2 := by
  cases fields with
  | nil => simp
  | cons f fields =>
    obtain ⟨name, d⟩ := f
    rw [List.forall_mem_cons, List.forall_mem_cons, fields_accepted fields, key_accepted name d]
theorem key_accepted (name : String) (d : Document) :
    (∃ c, ofFieldOrJoin name d = .ok c) ↔ Document.KeyFits name d := by
  by_cases hn : name = "$and" ∨ name = "$or"
  · rw [joining_accepted hn, Document.keyFits_join hn]
    cases d with
    | list items => simpa using items_accepted items
    | _ => simp
  · rw [ofFieldOrJoin_eq_ofField hn, ofField_accepted, Document.keyFits_of_not_join hn]
theorem items_accepted (items : List Document) :
    (∀ d ∈ items, ∃ c, ofDocument d = .ok c) ↔ ∀ d ∈ items, d.IsConstraint := by
  cases items with
  | nil => simp
  | cons d items =>
    rw [List.forall_mem_cons, List.forall_mem_cons, items_accepted items]
    refine and_congr_left fun _ => ?_
    cases d with
    | object fields => exact object_accepted (fields_accepted fields)
    | _ => exact ⟨fun ⟨_, h⟩ => (nomatch h), fun h => (nomatch h)⟩
end

/-- A constraint is read from the documents of the grammar, and from no others. -/
theorem ofDocument_accepts_iff (d : Document) : (∃ c, ofDocument d = .ok c) ↔ d.IsConstraint := by
  cases d with
  | object fields => exact object_accepted (fields_accepted fields)
  | _ => exact ⟨fun ⟨_, h⟩ => (nomatch h), fun h => (nomatch h)⟩

end Constraint

end TriGraph
