import TriGraph.Proofs.Constraint.Reading

/-!
# Rearranged documents

A document is accepted if each of its parts is, and it holds of an entity if all or any of its parts do, so neither
depends on their order.
-/

namespace TriGraph

/-- The documents differ in the order of keys, of joined constraints or of the fields of operands. -/
inductive Document.Rearranged : Document → Document → Prop where
  | keys {fs gs : List (String × Document)} (h : fs.Perm gs) : Rearranged (.object fs) (.object gs)
  | items {name : String} {ds es : List Document} {fs : List (String × Document)} (hn : name = "$and" ∨ name = "$or")
      (h : ds.Perm es) : Rearranged (.object ((name, .list ds) :: fs)) (.object ((name, .list es) :: fs))
  | item {name : String} {d d' : Document} {ds : List Document} {fs : List (String × Document)}
      (hn : name = "$and" ∨ name = "$or") (h : Rearranged d d') :
      Rearranged (.object ((name, .list (d :: ds)) :: fs)) (.object ((name, .list (d' :: ds)) :: fs))
  | properties {ps qs fs : List (String × Document)} (h : ps.Perm qs) :
      Rearranged (.object (("properties", .object ps) :: fs)) (.object (("properties", .object qs) :: fs))
  | comparisons {name : String} {ps qs fs : List (String × Document)} (hn : ¬Reserved name) (hp : name ≠ "properties")
      (hc : Comparative ps) (h : ps.Perm qs) :
      Rearranged (.object ((name, .object ps) :: fs)) (.object ((name, .object qs) :: fs))
  | trans {d₁ d₂ d₃ : Document} (h₁ : Rearranged d₁ d₂) (h₂ : Rearranged d₂ d₃) : Rearranged d₁ d₃

namespace Constraint

/-! ## Accepted documents -/

theorem exists_eq_ok_and {α β γ : Type} {x : Except Error α} {y : Except Error β} {g : α → β → γ} :
    (∃ c, (do let a ← x; let b ← y; return g a b) = .ok c) ↔ (∃ a, x = .ok a) ∧ ∃ b, y = .ok b := by
  cases x with
  | error x => simp [bind, Except.bind]
  | ok a => cases y <;> simp [bind, Except.bind, pure, Except.pure]

theorem literals_accepted {fields : List (String × Document)} :
    (∃ vs, literals fields = .ok vs) ↔ ∀ f ∈ fields, ∃ v, Value.ofDocument? f.2 = some v := by
  induction fields with
  | nil => simp [literals]
  | cons f fields ih =>
    rw [List.forall_mem_cons, ← ih]
    simp only [literals, exists_eq_ok_and, literal_eq_ok]

theorem comparisons_accepted {key : String} {fields : List (String × Document)} :
    (∃ c, comparisons key fields = .ok c) ↔
      ∀ f ∈ fields, (∃ k, Comparison.ofOperator? f.1 = some k) ∧ ∃ v, Value.ofDocument? f.2 = some v := by
  induction fields with
  | nil => simp [comparisons]
  | cons f fields ih =>
    obtain ⟨op, d⟩ := f
    rw [List.forall_mem_cons, ← ih, comparisons]
    cases hk : Comparison.ofOperator? op with
    | none => simp
    | some k => simp only [exists_eq_ok_and, literal_eq_ok, Option.some.injEq, exists_eq', true_and]

theorem ofFields_accepted {fields : List (String × Document)} :
    (∃ c, ofFields fields = .ok c) ↔ ∀ f ∈ fields, ∃ c, ofFieldOrJoin f.1 f.2 = .ok c := by
  induction fields with
  | nil => simp [ofFields]
  | cons f fields ih =>
    rw [List.forall_mem_cons, ← ih]
    simp only [ofFields, exists_eq_ok_and]

theorem ofItems_accepted {op : String} {items : List Document} :
    (∃ cs, ofItems op items = .ok cs) ↔ ∀ d ∈ items, ∃ c, ofDocument d = .ok c := by
  induction items with
  | nil => simp [ofItems]
  | cons d items ih =>
    rw [List.forall_mem_cons, ← ih]
    cases d with
    | object fields => simp only [ofItems, ofDocument, exists_eq_ok_and]
    | _ => simp [ofItems, ofDocument]

/-! ## Rearrangements -/

theorem joined_accepted {name : String} (hn : name = "$and" ∨ name = "$or") {items : List Document} :
    (∃ c, ofFieldOrJoin name (.list items) = .ok c) ↔ ∀ d ∈ items, ∃ c, ofDocument d = .ok c := by
  rw [← @ofItems_accepted name, ofFieldOrJoin]
  rcases hn with rfl | rfl
  · rw [if_pos rfl]
    simp [map_eq_ok]
  · rw [if_neg (by decide), if_pos rfl]
    simp [map_eq_ok]

theorem properties_accepted {fields : List (String × Document)} :
    (∃ c, ofFieldOrJoin "properties" (.object fields) = .ok c) ↔ ∀ f ∈ fields, ∃ v, Value.ofDocument? f.2 = some v := by
  have h : ofFieldOrJoin "properties" (.object fields) = (literals fields).map fun vs => [.properties vs] := by
    change (do let vs ← literals fields; return [Clause.properties vs]) = _
    cases literals fields <;> rfl
  rw [← literals_accepted, h]
  simp [map_eq_ok]

theorem ofFieldOrJoin_comparisons {name : String} {fields : List (String × Document)} (hn : ¬Reserved name)
    (hp : name ≠ "properties") (hc : Comparative fields) :
    ofFieldOrJoin name (.object fields) = comparisons name fields := by
  have hand : name ≠ "$and" := by
    rintro rfl
    exact hn ⟨"and", rfl⟩
  have hor : name ≠ "$or" := by
    rintro rfl
    exact hn ⟨"or", rfl⟩
  unfold ofFieldOrJoin ofField
  rw [if_neg (by simp [hand, hor]), if_neg (mt isOperator_iff.mp hn), if_neg hp, operators?_eq_some.mpr ⟨rfl, hc⟩]

theorem accepted_of_head {name : String} {d d' : Document} {fields : List (String × Document)}
    (h : (∃ c, ofFieldOrJoin name d = .ok c) → ∃ c, ofFieldOrJoin name d' = .ok c)
    (hd : ∃ c, ofDocument (.object ((name, d) :: fields)) = .ok c) :
    ∃ c, ofDocument (.object ((name, d') :: fields)) = .ok c := by
  rw [ofDocument, ofFields_accepted, List.forall_mem_cons] at hd ⊢
  exact ⟨h hd.1, hd.2⟩

theorem accepted_of_rearranged {d d' : Document} (h : d.Rearranged d') (hd : ∃ c, ofDocument d = .ok c) :
    ∃ c, ofDocument d' = .ok c := by
  induction h with
  | keys h =>
    rw [ofDocument, ofFields_accepted] at hd ⊢
    exact fun f hf => hd f (h.mem_iff.mpr hf)
  | items hn h =>
    refine accepted_of_head (fun hd => ?_) hd
    rw [joined_accepted hn] at hd ⊢
    exact fun d hm => hd d (h.mem_iff.mpr hm)
  | item hn _ ih =>
    refine accepted_of_head (fun hd => ?_) hd
    rw [joined_accepted hn, List.forall_mem_cons] at hd ⊢
    exact ⟨ih hd.1, hd.2⟩
  | properties h =>
    refine accepted_of_head (fun hd => ?_) hd
    rw [properties_accepted] at hd ⊢
    exact fun f hf => hd f (h.mem_iff.mpr hf)
  | comparisons hn hp hc h =>
    refine accepted_of_head (fun hd => ?_) hd
    rw [ofFieldOrJoin_comparisons hn hp hc, comparisons_accepted] at hd
    rw [ofFieldOrJoin_comparisons hn hp (hc.perm h), comparisons_accepted]
    exact fun f hf => hd f (h.mem_iff.mpr hf)
  | trans _ _ ih₁ ih₂ => exact ih₂ (ih₁ hd)

end Constraint

section
variable {s : Store} {e : Entity}

theorem Document.holds_head {name : String} {d d' : Document} {fields : List (String × Document)}
    (h : KeyHolds s e name d ↔ KeyHolds s e name d') :
    (Document.object ((name, d) :: fields)).Holds s e ↔ (Document.object ((name, d') :: fields)).Holds s e := by
  rw [holds_object, holds_object, List.forall_mem_cons, List.forall_mem_cons, h]

theorem Document.holds_of_rearranged {d d' : Document} (h : d.Rearranged d') : d.Holds s e ↔ d'.Holds s e := by
  induction h with
  | keys h => simp only [holds_object, h.mem_iff]
  | items hn h =>
    refine holds_head ?_
    rcases hn with rfl | rfl
    · simp only [keyHolds_all, h.mem_iff]
    · simp only [keyHolds_any, h.mem_iff]
  | item hn _ ih =>
    refine holds_head ?_
    rcases hn with rfl | rfl
    · simp only [keyHolds_all, List.forall_mem_cons, ih]
    · simp only [keyHolds_any, List.exists_mem_cons_iff, ih]
  | properties h => exact holds_head (by simp only [keyHolds_properties, h.mem_iff])
  | comparisons hn hp hc h =>
    refine holds_head ?_
    rw [keyHolds_key hn hp, keyHolds_key hn hp]
    simp only [meets_comparative hc, meets_comparative (hc.perm h), h.mem_iff]
  | trans _ _ ih₁ ih₂ => exact ih₁.trans ih₂

end

theorem Constraint.holds_ofDocument {d : Document} {c : Constraint} (h : ofDocument d = .ok c) :
    (∀ (s : Store) (e : Entity), s.holds c e = true ↔ d.Holds s e) ∧
      ∀ d', d.Rearranged d' → ∃ k, ofDocument d' = .ok k ∧ ∀ (s : Store) (e : Entity), s.holds k e = s.holds c e := by
  refine ⟨fun s e => holds_ofDocument_iff h, fun d' hr => ?_⟩
  obtain ⟨k, hk⟩ := accepted_of_rearranged hr ⟨c, h⟩
  refine ⟨k, hk, fun s e => Bool.eq_iff_iff.mpr ?_⟩
  rw [holds_ofDocument_iff hk, holds_ofDocument_iff h]
  exact (Document.holds_of_rearranged hr).symm

def writings : List Store.Command :=
  [.addNode { id := "shakespeare", type := "Person", properties := [("rank", .int 3)] },
    .addNode { id := "hamlet", type := "Book" },
    .addEdge
      { id := "w", source := "shakespeare", target := "hamlet", type := "WROTE", properties := [("year", .int 1600)] }]

def ranked : Document :=
  .object [("source.properties.rank", .object [("$gt", .int 1), ("$lt", .int 4)]),
    ("$or", .list [.object [("type", .text "IS_A")], .object [("year", .int 1600), ("target", .text "hamlet")]])]

def rankedBackwards : Document :=
  .object [("$or", .list [.object [("target", .text "hamlet"), ("year", .int 1600)], .object [("type", .text "IS_A")]]),
    ("source.properties.rank", .object [("$lt", .int 4), ("$gt", .int 1)])]

theorem rearranged_ranked : ranked.Rearranged rankedBackwards := by
  have hn : ¬Reserved "source.properties.rank" := mt Constraint.isOperator_iff.mpr (by decide)
  have hc : Comparative [("$gt", .int 1), ("$lt", .int 4)] :=
    (Constraint.operators?_eq_some (d := .object [("$gt", .int 1), ("$lt", .int 4)]).mp rfl).2
  refine .trans (.comparisons hn (by decide) hc (List.Perm.swap _ _ _)) (.trans (.keys (List.Perm.swap _ _ _)) ?_)
  exact .trans (.items (.inr rfl) (List.Perm.swap _ _ _)) (.item (.inr rfl) (.keys (List.Perm.swap _ _ _)))

theorem Constraint.holds_ofDocument_ranked :
    ∃ c, ofDocument ranked = .ok c ∧ ∃ e, ((Store.new "g" []).run writings).edge? "w" = some e ∧
      ranked.Holds ((Store.new "g" []).run writings) (.edge e) ∧
      ∃ k, ofDocument rankedBackwards = .ok k ∧ ((Store.new "g" []).run writings).holds k (.edge e) = true := by
  have h := holds_ofDocument (d := ranked) (c := _) rfl
  refine ⟨_, rfl, _, rfl, (h.1 _ _).mp (by decide +kernel), ?_⟩
  obtain ⟨k, hk, hsame⟩ := h.2 _ rearranged_ranked
  exact ⟨k, hk, (hsame _ _).trans (by decide +kernel)⟩

end TriGraph
