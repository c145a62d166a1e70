import TriGraph.Proofs.Index.Buckets

/-!
# Upkeep of an index

An index records a collection of entities if its buckets are canonical and hold an id under a key just when an entity
of the collection has that id and that key. So it is known by its paths and its collection, and equals one built anew.
-/

namespace TriGraph.Index

/-! ## Building -/

theorem rest?_eq_some {start s rest : String} (h : Path.rest? start s = some rest) : start ++ rest = s := by
  unfold Path.rest? at h
  split at h
  · rename_i hs
    cases h
    obtain ⟨t, ht⟩ := List.isPrefixOf_iff_prefix.mp (Bool.and_eq_true_iff.mp hs).1
    rw [← String.toList_inj, String.toList_append, String.toList_ofList, ← ht, ← String.length_toList,
      List.drop_left]
  · cases h

theorem text_of_parse {s : String} {p : Path} (h : Path.parse s = .ok p) : p.text = s := by
  unfold Path.parse at h
  split at h
  · rename_i hs
    cases h
    exact hs.symm
  split at h
  · rename_i hs
    cases h
    exact hs.symm
  split at h
  · rename_i hr
    cases h
    exact rest?_eq_some hr
  · rename_i hr
    cases h
    exact rest?_eq_some hr
  · cases h

theorem map_text_of_parse {ss : List String} {ps : List Path} (h : ss.mapM Path.parse = .ok ps) :
    ps.map Path.text = ss := by
  induction ss generalizing ps with
  | nil =>
    cases h
    rfl
  | cons s ss ih =>
    rw [List.mapM_cons] at h
    cases hp : Path.parse s with
    | error e => rw [hp] at h; cases h
    | ok p =>
      cases hps : ss.mapM Path.parse with
      | error e => rw [hp, hps] at h; cases h
      | ok qs =>
        rw [hp, hps] at h
        cases h
        rw [List.map_cons, text_of_parse hp, ih hps]

def blank (i : Index) : Index :=
  new i.kind i.target i.paths

theorem eq_of_blank_eq {i j : Index} (h : i.blank = j.blank) :
    i.kind = j.kind ∧ i.target = j.target ∧ i.paths = j.paths := by
  unfold blank new at h
  injection h with hk ht hp
  exact ⟨hk, ht, hp⟩

theorem blank_add (i : Index) (e : Entity) : (i.add e).blank = i.blank := rfl

theorem blank_remove (i : Index) (e : Entity) : (i.remove e).blank = i.blank := by
  unfold remove
  split <;> rfl

theorem blank_foldl_add (es : List Entity) (i : Index) : (es.foldl add i).blank = i.blank := by
  induction es generalizing i with
  | nil => rfl
  | cons e es ih => rw [List.foldl_cons, ih, blank_add]

theorem parseAll_eq_ok {ss : List String} {t : EntityKind} {ps : List Path}
    (h : Path.parseAll ss = .ok (t, ps)) : ps.map Path.text = ss ∧ ∀ p ∈ ps, p.target = t := by
  unfold Path.parseAll at h
  cases hps : ss.mapM Path.parse with
  | error e => rw [hps] at h; cases h
  | ok qs =>
    rw [hps] at h
    cases qs with
    | nil => cases h
    | cons q qs =>
      cases hf : (q :: qs).find? fun p => p.target != q.target with
      | some stray =>
        simp only [bind, Except.bind, hf] at h
        cases h
      | none =>
        simp only [bind, Except.bind, hf] at h
        cases h
        refine ⟨map_text_of_parse hps, fun p hp => ?_⟩
        have := List.find?_eq_none.mp hf p hp
        simpa using this

theorem build_eq_ok {kind : Kind} {ss : List String} {i : Index} (h : build kind ss = .ok i) :
    build i.kind (i.paths.map Path.text) = .ok i ∧ i.blank = i ∧ ∀ p ∈ i.paths, p.target = i.target := by
  have hb := h
  unfold build at h
  cases hp : Path.parseAll ss with
  | error e => rw [hp] at h; cases h
  | ok r =>
    obtain ⟨t, ps⟩ := r
    rw [hp] at h
    cases h
    obtain ⟨hs, ht⟩ := parseAll_eq_ok hp
    refine ⟨?_, rfl, ht⟩
    rw [← hs] at hb
    exact hb

/-! ## Keys -/

theorem kind_of_mem_keysOf {i : Index} {e : Entity} {k : Key} (h : k ∈ i.keysOf e) : e.kind = i.target := by
  unfold keysOf at h
  split at h
  · assumption
  · cases h

theorem mem_ids_foldl_add {ks : List Key} {b : Buckets} {id d : String} {k : Key} :
    d ∈ (ks.foldl (fun b k => b.add k id) b).ids k ↔ (k ∈ ks ∧ d = id) ∨ d ∈ b.ids k := by
  induction ks generalizing b with
  | nil => simp
  | cons l ks ih =>
    rw [List.foldl_cons, ih, Buckets.mem_ids_add, List.mem_cons]
    constructor
    · intro h'
      rcases h' with ⟨h, hd⟩ | ⟨h, hd⟩ | h
      · exact Or.inl ⟨Or.inr h, hd⟩
      · exact Or.inl ⟨Or.inl h, hd⟩
      · exact Or.inr h
    · intro h'
      rcases h' with ⟨h | h, hd⟩ | h
      · exact Or.inr (Or.inl ⟨h, hd⟩)
      · exact Or.inl ⟨h, hd⟩
      · exact Or.inr (Or.inr h)

theorem canonical_foldl_add {ks : List Key} {b : Buckets} {id : String} (h : b.Canonical) :
    (ks.foldl (fun b k => b.add k id) b).Canonical := by
  induction ks generalizing b with
  | nil => exact h
  | cons k ks ih => exact ih (h.add k id)

/-! ## Records -/

structure Records (i : Index) (S : Entity → Prop) : Prop where
  canonical : i.buckets.Canonical
  mem_ids : ∀ k id, id ∈ i.buckets.ids k ↔ ∃ e, S e ∧ e.id = id ∧ k ∈ i.keysOf e

namespace Records

variable {i j : Index} {S T : Entity → Prop}

theorem blank (i : Index) : Records i.blank fun _ => False := by
  refine ⟨Buckets.Canonical.nil, fun k id => ?_⟩
  constructor
  · intro h
    cases h
  · intro h'
    obtain ⟨e, h, -⟩ := h'
    exact h.elim

theorem congr (h : Records i S) (hST : ∀ e, e.kind = i.target → (S e ↔ T e)) : Records i T := by
  refine ⟨h.canonical, fun k id => ?_⟩
  rw [h.mem_ids]
  constructor
  · intro h'
    obtain ⟨e, he, hid, hk⟩ := h'
    exact ⟨e, (hST e (kind_of_mem_keysOf hk)).mp he, hid, hk⟩
  · intro h'
    obtain ⟨e, he, hid, hk⟩ := h'
    exact ⟨e, (hST e (kind_of_mem_keysOf hk)).mpr he, hid, hk⟩

theorem add (h : Records i S) (e : Entity) : Records (i.add e) fun d => d = e ∨ S d := by
  refine ⟨canonical_foldl_add h.canonical, fun k id => ?_⟩
  refine mem_ids_foldl_add.trans ?_
  rw [h.mem_ids]
  constructor
  · intro h'
    rcases h' with ⟨hk, rfl⟩ | ⟨d, hd, hid, hk⟩
    · exact ⟨e, Or.inl rfl, rfl, hk⟩
    · exact ⟨d, Or.inr hd, hid, hk⟩
  · intro h'
    rcases h' with ⟨d, rfl | hd, hid, hk⟩
    · exact Or.inl ⟨hk, hid.symm⟩
    · exact Or.inr ⟨d, hd, hid, hk⟩

theorem remove (h : Records i S) (e : Entity) :
    Records (i.remove e) fun d => S d ∧ ¬(d.kind = e.kind ∧ d.id = e.id) := by
  unfold Index.remove
  split
  · rename_i he
    refine ⟨h.canonical.remove e.id, fun k id => ?_⟩
    refine (Buckets.mem_ids_remove h.canonical).trans ?_
    rw [h.mem_ids]
    constructor
    · intro h'
      obtain ⟨⟨d, hd, hid, hk⟩, hne⟩ := h'
      exact ⟨d, ⟨hd, fun hde => hne (hid.symm.trans hde.2)⟩, hid, hk⟩
    · intro h'
      obtain ⟨d, ⟨hd, hde⟩, hid, hk⟩ := h'
      refine ⟨⟨d, hd, hid, hk⟩, fun hne => hde ⟨?_, hid.trans hne⟩⟩
      exact (kind_of_mem_keysOf hk).trans he.symm
  · rename_i he
    refine h.congr fun d hd => ?_
    constructor
    · intro hS
      exact ⟨hS, fun hde => he (hde.1.symm.trans hd)⟩
    · intro hS
      exact hS.1

theorem foldl_add (h : Records i S) (es : List Entity) :
    Records (es.foldl Index.add i) fun d => d ∈ es ∨ S d := by
  induction es generalizing i S with
  | nil => exact h.congr fun d _ => by simp
  | cons e es ih =>
    refine (ih (h.add e)).congr fun d _ => ?_
    rw [List.mem_cons]
    exact or_left_comm.trans or_assoc.symm

theorem ext (hi : Records i S) (hj : Records j S) (hb : i.blank = j.blank) : i.buckets = j.buckets := by
  obtain ⟨-, ht, hp⟩ := eq_of_blank_eq hb
  refine hi.canonical.ext hj.canonical fun k id => ?_
  have hk : ∀ e, i.keysOf e = j.keysOf e := fun e => by unfold keysOf; rw [ht, hp]
  rw [hi.mem_ids, hj.mem_ids]
  simp only [hk]

end Records

end TriGraph.Index
