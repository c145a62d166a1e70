import TriGraph.Proofs.Text.Words
import TriGraph.Query.Text

/-!
# Texts that spell queries

The words of a text spell a query when they are the keywords of its form around its ids, in any mix of cases. What is
read follows from the words: the query that they spell, the first id that is no identifier, or nothing.
-/

namespace TriGraph

def QueryForm.keywords : QueryForm → List String
  | .conceptInstances => ["FIND", "INSTANCES", "OF", "CONCEPT"]
  | .relations => ["FIND", "RELATIONS", "OF", "TYPE"]

namespace Query

open Text

abbrev Keyed (ks vs : List String) : Prop :=
  List.Forall₂ Recased ks vs

inductive Spells : List String → Query → Prop where
  | everywhere {form : QueryForm} {vs : List String} (hv : Keyed form.keywords vs) (subject : String) :
      Spells (vs ++ [subject]) { form, subject }
  | within {form : QueryForm} {vs us : List String} (hv : Keyed form.keywords vs) (subject : String)
      (hu : Keyed ["IN", "CONTEXT"] us) (context : String) :
      Spells (vs ++ subject :: (us ++ [context])) { form, subject, context := some context }

structure Identifier (id : String) : Prop where
  nonempty : id ≠ ""
  characters : ∀ c ∈ id.toList, isAlphanumeric c ∨ c = '_'

structure Named (q : Query) : Prop where
  subject : Identifier q.subject
  context : ∀ id, q.context = some id → Identifier id

/-- The first id that is no identifier; the subject comes before the context. -/
inductive Misnamed (q : Query) : String → Prop where
  | subject (h : ¬Identifier q.subject) : Misnamed q q.subject
  | context (hs : Identifier q.subject) {id : String} (hc : q.context = some id) (h : ¬Identifier id) : Misnamed q id

/-! ## Words that spell a query -/

theorem afterKeywords?_eq_some {ks ws rest : List String} :
    afterKeywords? ks ws = some rest ↔ ∃ vs, ws = vs ++ rest ∧ Keyed ks vs := by
  induction ks generalizing ws with
  | nil => simp [afterKeywords?, eq_comm]
  | cons k ks ih =>
    cases ws with
    | nil => simp [afterKeywords?]
    | cons w ws =>
      rw [afterKeywords?, Option.ite_none_right_eq_some, sameLetters_iff, ih]
      constructor
      · rintro ⟨hk, vs, rfl, hv⟩
        exact ⟨w :: vs, rfl, .cons hk hv⟩
      · rintro ⟨vs, hw, hv⟩
        cases hv with
        | cons hk hv =>
          obtain ⟨rfl, rfl⟩ := List.cons_eq_cons.mp hw
          exact ⟨hk, _, rfl, hv⟩

theorem Keyed.lengths {ks vs : List String} (h : Keyed ks vs) :
    ks.map (·.toList.length) = vs.map (·.toList.length) := by
  induction h with
  | nil => rfl
  | cons hk _ ih => rw [List.map_cons, List.map_cons, ih, List.Forall₂.length_eq hk]

-- the last keywords of the two forms differ in length, so no words can be both
theorem form_unique {form other : QueryForm} {vs us rest rest' : List String} (hv : Keyed form.keywords vs)
    (hu : Keyed other.keywords us) (h : vs ++ rest = us ++ rest') : form = other := by
  have hfour : ∀ form : QueryForm, form.keywords.length = 4 := fun form => by cases form <;> rfl
  obtain ⟨rfl, -⟩ := List.append_inj h (by rw [← hv.length_eq, ← hu.length_eq, hfour, hfour])
  have hlengths := hv.lengths.trans hu.lengths.symm
  cases form with
  | conceptInstances =>
    cases other with
    | conceptInstances => rfl
    | relations => exact absurd hlengths (by decide)
  | relations =>
    cases other with
    | conceptInstances => exact absurd hlengths (by decide)
    | relations => rfl

theorem form?_eq (ws : List String) : form? ws =
    match afterKeywords? QueryForm.conceptInstances.keywords ws with
    | some rest => some (.conceptInstances, rest)
    | none => (afterKeywords? QueryForm.relations.keywords ws).map (.relations, ·) := rfl

theorem form?_eq_some {ws rest : List String} {form : QueryForm} :
    form? ws = some (form, rest) ↔ ∃ vs, ws = vs ++ rest ∧ Keyed form.keywords vs := by
  constructor
  · intro h
    rw [form?_eq] at h
    split at h
    · next hwords =>
      cases h
      exact afterKeywords?_eq_some.mp hwords
    · obtain ⟨_, hwords, heq⟩ := Option.map_eq_some_iff.mp h
      cases heq
      exact afterKeywords?_eq_some.mp hwords
  · rintro ⟨vs, rfl, hv⟩
    have hwords : afterKeywords? form.keywords (vs ++ rest) = some rest := afterKeywords?_eq_some.mpr ⟨vs, rfl, hv⟩
    cases form with
    | conceptInstances => rw [form?_eq, hwords]
    | relations =>
      -- the words of the other form are tried first, and these are not
      have hnone : afterKeywords? QueryForm.conceptInstances.keywords (vs ++ rest) = none := by
        refine Option.eq_none_iff_forall_ne_some.mpr fun rest' h => ?_
        obtain ⟨us, hsplit, hu⟩ := afterKeywords?_eq_some.mp h
        cases form_unique hv hu hsplit
      rw [form?_eq, hnone, hwords, Option.map_some]

theorem ofWords?_eq_some {ws : List String} {q : Query} : ofWords? ws = some q ↔ Spells ws q := by
  constructor
  · intro h
    unfold ofWords? at h
    split at h
    · next form subject hform =>
      obtain ⟨vs, rfl, hv⟩ := form?_eq_some.mp hform
      cases h
      exact .everywhere hv subject
    · next form subject tail _ hform =>
      obtain ⟨vs, rfl, hv⟩ := form?_eq_some.mp hform
      split at h
      · next context htail =>
        obtain ⟨us, rfl, hu⟩ := afterKeywords?_eq_some.mp htail
        cases h
        exact .within hv subject hu context
      · cases h
    · cases h
  · intro h
    cases h with
    | everywhere hv subject =>
      rw [ofWords?, form?_eq_some.mpr ⟨_, rfl, hv⟩]
    | @within _ _ us hv subject hu context =>
      have htail : afterKeywords? ["IN", "CONTEXT"] (us ++ [context]) = some [context] :=
        afterKeywords?_eq_some.mpr ⟨us, rfl, hu⟩
      rw [ofWords?, form?_eq_some.mpr ⟨_, rfl, hv⟩]
      simp [htail]

/-! ## Ids -/

theorem isIdentifier_iff {id : String} : isIdentifier id = true ↔ Identifier id := by
  simp only [isIdentifier, Bool.and_eq_true, Bool.not_eq_true', List.all_eq_true, Bool.or_eq_true, beq_iff_eq,
    ← Bool.not_eq_true, String.isEmpty_iff]
  exact ⟨fun ⟨hn, hc⟩ => ⟨hn, hc⟩, fun ⟨hn, hc⟩ => ⟨hn, hc⟩⟩

theorem find?_ids_eq_some {q : Query} {id : String} :
    (q.ids.find? fun w => !isIdentifier w) = some id ↔ Misnamed q id := by
  have hbad : ∀ w, (!isIdentifier w) = true ↔ ¬Identifier w := fun w => by simp [← isIdentifier_iff]
  have hcontext : (q.context.toList.find? fun w => !isIdentifier w) = some id ↔
      q.context = some id ∧ ¬Identifier id := by
    cases q.context with
    | none => simp
    | some context =>
      rw [Option.toList_some, List.find?_singleton, Option.ite_none_right_eq_some, hbad, Option.some_inj]
      exact ⟨fun ⟨h, he⟩ => ⟨he, he ▸ h⟩, fun ⟨he, h⟩ => ⟨he ▸ h, he⟩⟩
  rw [ids, List.find?_cons_eq_some, hcontext, hbad, Bool.not_not]
  constructor
  · rintro (⟨hs, rfl⟩ | ⟨hs, hc, h⟩)
    · exact .subject hs
    · exact .context (isIdentifier_iff.mp hs) hc h
  · intro h
    cases h with
    | subject hs => exact Or.inl ⟨hs, rfl⟩
    | context hs hc h => exact Or.inr ⟨isIdentifier_iff.mpr hs, hc, h⟩

theorem find?_ids_eq_none {q : Query} : (q.ids.find? fun w => !isIdentifier w) = none ↔ Named q := by
  simp only [List.find?_eq_none, ids, List.forall_mem_cons, Option.mem_toList, Bool.not_eq_true', Bool.not_eq_false,
    isIdentifier_iff]
  exact ⟨fun ⟨hs, hc⟩ => ⟨hs, hc⟩, fun ⟨hs, hc⟩ => ⟨hs, hc⟩⟩

theorem Identifier.solid {id : String} (h : Identifier id) : Solid id where
  nonempty := h.nonempty
  not_blank c hc := by
    rcases h.characters c hc with halpha | rfl
    · exact not_blank_of_alphanumeric halpha
    · decide

theorem Keyed.solid {ks vs : List String} (h : Keyed ks vs) (hk : ∀ k ∈ ks, Capitals k) : ∀ v ∈ vs, Solid v := by
  intro v hv
  obtain ⟨k, hmem, hsame⟩ := exists_of_mem_forall₂ h hv
  exact hsame.solid (hk k hmem)

theorem capitals_of_mem_keywords {form : QueryForm} : ∀ k ∈ form.keywords, Capitals k := by
  cases form with
  | conceptInstances => decide +kernel
  | relations => decide +kernel

theorem Spells.solid {ws : List String} {q : Query} (h : Spells ws q) (hq : Named q) : ∀ w ∈ ws, Solid w := by
  intro w hw
  cases h with
  | everywhere hv subject =>
    rcases List.mem_append.mp hw with hw | hw
    · exact hv.solid capitals_of_mem_keywords w hw
    · exact List.mem_singleton.mp hw ▸ hq.subject.solid
  | within hv subject hu context =>
    simp only [List.mem_append, List.mem_cons, List.not_mem_nil, or_false] at hw
    rcases hw with hw | rfl | hw | rfl
    · exact hv.solid capitals_of_mem_keywords w hw
    · exact hq.subject.solid
    · exact hu.solid (by decide +kernel) w hw
    · exact (hq.context _ rfl).solid

/-! ## Texts -/

section
variable {s : String} {q : Query}

theorem ofWords?_words : ofWords? (words s) = some q ↔ ∃ ws, Divides s ws ∧ Spells ws q := by
  simp only [← words_eq_iff, exists_eq_left', ofWords?_eq_some]

theorem parse_eq_ok : parse s = .ok q ↔ ∃ ws, Divides s ws ∧ Spells ws q ∧ Named q := by
  constructor
  · intro h
    unfold parse at h
    split at h
    · cases h
    · next hq =>
      split at h
      · cases h
      · next hids =>
        cases h
        obtain ⟨ws, hd, hs⟩ := ofWords?_words.mp hq
        exact ⟨ws, hd, hs, find?_ids_eq_none.mp hids⟩
  · rintro ⟨ws, hd, hs, hn⟩
    simp only [parse, ofWords?_words.mpr ⟨ws, hd, hs⟩, find?_ids_eq_none.mpr hn]

theorem parse_eq_invalidIdentifier {id : String} :
    parse s = .error (.invalidIdentifier id) ↔ ∃ ws q, Divides s ws ∧ Spells ws q ∧ Misnamed q id := by
  constructor
  · intro h
    unfold parse at h
    split at h
    · cases h
    · next q hq =>
      split at h
      · next hids =>
        cases h
        obtain ⟨ws, hd, hs⟩ := ofWords?_words.mp hq
        exact ⟨ws, q, hd, hs, find?_ids_eq_some.mp hids⟩
      · cases h
  · rintro ⟨ws, q, hd, hs, hm⟩
    simp only [parse, ofWords?_words.mpr ⟨ws, hd, hs⟩, find?_ids_eq_some.mpr hm]

theorem parse_eq_unrecognized {text : String} :
    parse s = .error (.unrecognized text) ↔ text = trim s ∧ ¬∃ ws q, Divides s ws ∧ Spells ws q := by
  constructor
  · intro h
    unfold parse at h
    split at h
    · next hnone =>
      cases h
      refine ⟨rfl, fun ⟨ws, q, hd, hs⟩ => ?_⟩
      cases hnone.symm.trans (ofWords?_words.mpr ⟨ws, hd, hs⟩)
    · split at h <;> cases h
  · rintro ⟨rfl, hno⟩
    have hnone : ofWords? (words s) = none := by
      refine Option.eq_none_iff_forall_ne_some.mpr fun q hq => ?_
      obtain ⟨ws, hspelled⟩ := ofWords?_words.mp hq
      exact hno ⟨ws, q, hspelled⟩
    rw [parse, hnone]

end

/-- A query that the words spell is read if its ids are identifiers, whatever the cases of its keywords and the blanks
around its words. -/
theorem parse_iff_spells (s : String) :
    (∀ q, parse s = .ok q ↔ ∃ ws, Divides s ws ∧ Spells ws q ∧ Named q) ∧
    (∀ id, parse s = .error (.invalidIdentifier id) ↔ ∃ ws q, Divides s ws ∧ Spells ws q ∧ Misnamed q id) ∧
    (∀ text, parse s = .error (.unrecognized text) ↔ text = trim s ∧ ¬∃ ws q, Divides s ws ∧ Spells ws q) ∧
    ∀ ws q, Spaced ws s.toList → Spells ws q → Named q → parse s = .ok q :=
  ⟨fun _ => parse_eq_ok, fun _ => parse_eq_invalidIdentifier, fun _ => parse_eq_unrecognized,
    fun ws _ hspaced hs hn => parse_eq_ok.mpr ⟨ws, ⟨hspaced, hs.solid hn⟩, hs, hn⟩⟩

def contextIn : Query := { form := .relations, subject := "CONTEXT", context := some "IN" }

def contextInWords : List String := ["fInD", "relations", "OF", "TYPE", "CONTEXT", "in", "context", "IN"]

theorem parse_iff_spells_contextIn :
    Spaced contextInWords "\tfInD  relations\nOF TYPE CONTEXT\r\nin\u2003context IN ".toList ∧
    Spells contextInWords contextIn ∧ contextIn.Named ∧
    parse "\tfInD  relations\nOF TYPE CONTEXT\r\nin\u2003context IN " = .ok contextIn := by
  have hspaced : Spaced contextInWords "\tfInD  relations\nOF TYPE CONTEXT\r\nin\u2003context IN ".toList :=
    (words_eq_iff.mp (by decide +kernel)).1
  have hv : Keyed QueryForm.relations.keywords ["fInD", "relations", "OF", "TYPE"] := by decide +kernel
  have hu : Keyed ["IN", "CONTEXT"] ["in", "context"] := by decide +kernel
  have hspells : Spells contextInWords contextIn := .within hv "CONTEXT" hu "IN"
  have hnamed : contextIn.Named := find?_ids_eq_none.mp (by decide +kernel)
  exact ⟨hspaced, hspells, hnamed, (parse_iff_spells _).2.2.2 _ _ hspaced hspells hnamed⟩

end Query

end TriGraph
