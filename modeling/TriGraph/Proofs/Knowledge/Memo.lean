import TriGraph.Knowledge

/-!
# Memos and answers

Two memos agree if every registered adjoint answers alike with either of them. A memo has grown into another one if
what is new is what the mappings say; then the two agree. A question is steady if it gives the same answer with memos
that agree and does no more to a memo than to let it grow.
-/

namespace TriGraph.Knowledge

def Named (k : Knowledge) : Prop :=
  ∀ name a, k.adjunction? name = some a → a.name = name

def reply (k : Knowledge) (m : Memo) (a : Adjunction) (side : Adjoint) (id : String) : Option String :=
  (a.apply side k.graphs id m).1

def Agree (k : Knowledge) (m₁ m₂ : Memo) : Prop :=
  ∀ name a, k.adjunction? name = some a → ∀ side id, k.reply m₁ a side id = k.reply m₂ a side id

structure Grown (k : Knowledge) (m m' : Memo) : Prop where
  kept : ∀ r x, m.remembered? r = some x → m'.remembered? r = some x
  found : ∀ name a, k.adjunction? name = some a → ∀ side id x, m.remembered? ⟨a.name, side, id⟩ = none →
    m'.remembered? ⟨a.name, side, id⟩ = some x → a.value side k.graphs id = some x

structure Steady {α : Type} (k : Knowledge) (q : Recall α) : Prop where
  grows : ∀ m, Grown k m (q.run m).2
  answers : ∀ m₁ m₂, Agree k m₁ m₂ → (q.run m₁).1 = (q.run m₂).1

section
variable {k : Knowledge} {m m₁ m₂ m₃ : Memo}

theorem Agree.refl : Agree k m m :=
  fun _ _ _ _ _ => rfl

theorem Agree.symm (h : Agree k m₁ m₂) : Agree k m₂ m₁ :=
  fun name a ha side id => (h name a ha side id).symm

theorem Agree.trans (h : Agree k m₁ m₂) (h' : Agree k m₂ m₃) : Agree k m₁ m₃ :=
  fun name a ha side id => (h name a ha side id).trans (h' name a ha side id)

/-! ## One application -/

theorem apply_of_remembered {a : Adjunction} {side : Adjoint} {g : Graphs} {id x : String}
    (h : m.remembered? ⟨a.name, side, id⟩ = some x) : a.apply side g id m = (some x, m) := by
  simp only [Adjunction.apply, h]

theorem apply_of_found {a : Adjunction} {side : Adjoint} {g : Graphs} {id x : String}
    (h : m.remembered? ⟨a.name, side, id⟩ = none) (hv : a.value side g id = some x) :
    a.apply side g id m = (some x, (⟨a.name, side, id⟩, x) :: m) := by
  simp only [Adjunction.apply, h, hv]

theorem apply_of_missing {a : Adjunction} {side : Adjoint} {g : Graphs} {id : String}
    (h : m.remembered? ⟨a.name, side, id⟩ = none) (hv : a.value side g id = none) :
    a.apply side g id m = (none, m) := by
  simp only [Adjunction.apply, h, hv]

theorem reply_eq (a : Adjunction) (side : Adjoint) (id : String) :
    k.reply m a side id = (m.remembered? ⟨a.name, side, id⟩).or (a.value side k.graphs id) := by
  unfold reply
  cases hm : m.remembered? ⟨a.name, side, id⟩ with
  | some x => rw [apply_of_remembered hm, Option.some_or]
  | none =>
    rw [Option.none_or]
    cases hv : a.value side k.graphs id with
    | some x => rw [apply_of_found hm hv]
    | none => rw [apply_of_missing hm hv]

theorem memo_apply (a : Adjunction) (side : Adjoint) (id : String) :
    (a.apply side k.graphs id m).2 = m ∨
      ∃ x, a.value side k.graphs id = some x ∧ m.remembered? ⟨a.name, side, id⟩ = none ∧
        (a.apply side k.graphs id m).2 = (⟨a.name, side, id⟩, x) :: m := by
  cases hm : m.remembered? ⟨a.name, side, id⟩ with
  | some x => exact Or.inl (congrArg Prod.snd (apply_of_remembered hm))
  | none =>
    cases hv : a.value side k.graphs id with
    | some x => exact Or.inr ⟨x, rfl, rfl, congrArg Prod.snd (apply_of_found hm hv)⟩
    | none => exact Or.inl (congrArg Prod.snd (apply_of_missing hm hv))

theorem Grown.refl : Grown k m m :=
  ⟨fun _ _ h => h, fun _ _ _ _ _ _ hn hs => absurd (hn.symm.trans hs) (Option.some_ne_none _).symm⟩

theorem Grown.trans (h : Grown k m₁ m₂) (h' : Grown k m₂ m₃) : Grown k m₁ m₃ := by
  refine ⟨fun r x hr => h'.kept r x (h.kept r x hr), fun name a ha side id x hn hs => ?_⟩
  cases hm : m₂.remembered? ⟨a.name, side, id⟩ with
  | none => exact h'.found name a ha side id x hm hs
  | some y =>
    cases (h'.kept _ y hm).symm.trans hs
    exact h.found name a ha side id x hn hm

theorem Grown.agree (h : Grown k m₁ m₂) : Agree k m₁ m₂ := by
  intro name a ha side id
  rw [reply_eq, reply_eq]
  cases hm : m₁.remembered? ⟨a.name, side, id⟩ with
  | some x => rw [h.kept _ x hm, Option.some_or]
  | none =>
    rw [Option.none_or]
    cases hm' : m₂.remembered? ⟨a.name, side, id⟩ with
    | none => rw [Option.none_or]
    | some x => exact h.found name a ha side id x hm hm'

theorem grown_apply (hk : k.Named) {name : String} {a : Adjunction} (ha : k.adjunction? name = some a)
    (side : Adjoint) (id : String) : Grown k m (a.apply side k.graphs id m).2 := by
  rcases memo_apply (k := k) (m := m) a side id with h | ⟨x, hv, hm, h⟩
  · rw [h]
    exact .refl
  rw [h]
  refine ⟨fun r y hr => ?_, fun other b hb side' id' y hn hs => ?_⟩
  · rw [Memo.remembered?, if_neg]
    · exact hr
    · rintro rfl
      exact absurd (hm.symm.trans hr) (Option.some_ne_none _).symm
  · rw [Memo.remembered?] at hs
    by_cases hr : (⟨a.name, side, id⟩ : Recollection) = ⟨b.name, side', id'⟩
    · injection hr with hname hside hid
      have hab : a = b := by
        rw [hk name a ha, hk other b hb] at hname
        rw [hname, hb] at ha
        exact (Option.some.inj ha).symm
      subst hab hside hid
      rw [if_pos rfl] at hs
      rw [hv, hs]
    · rw [if_neg hr, hn] at hs
      cases hs

/-! ## Truth -/

/-- What is remembered of a registered adjunction is what its mapping says. -/
def Truthful (k : Knowledge) (m : Memo) : Prop :=
  ∀ name a, k.adjunction? name = some a → ∀ side id x, m.remembered? ⟨name, side, id⟩ = some x →
    a.value side k.graphs id = some x

theorem agree_nil_iff (hk : k.Named) : Agree k m [] ↔ k.Truthful m := by
  have hreply : ∀ (a : Adjunction) side id, k.reply [] a side id = a.value side k.graphs id :=
    fun a side id => (reply_eq a side id).trans Option.none_or
  constructor
  · intro h name a ha side id x hx
    have hr := h name a ha side id
    rw [hreply, reply_eq, hk name a ha, hx] at hr
    exact hr.symm
  · intro h name a ha side id
    rw [hreply, reply_eq, hk name a ha]
    cases hx : m.remembered? ⟨name, side, id⟩ with
    | none => exact Option.none_or
    | some x => exact (h name a ha side id x hx).symm

theorem Grown.truthful (h : Grown k m₁ m₂) (hk : k.Named) (ht : k.Truthful m₁) : k.Truthful m₂ := by
  intro name a ha side id x hx
  cases hm : m₁.remembered? ⟨name, side, id⟩ with
  | some y =>
    cases (h.kept _ y hm).symm.trans hx
    exact ht name a ha side id x hm
  | none =>
    rw [← hk name a ha] at hm hx
    exact h.found name a ha side id x hm hx

/-! ## Composition -/

theorem run_bind {α β : Type} (q : Recall α) (f : α → Recall β) (m : Memo) :
    (q >>= f).run m = match q.run m with
      | (.ok x, m) => (f x).run m
      | (.error e, m) => (.error e, m) := by
  change (fun r : Except Error α × Memo => ExceptT.bindCont f r.1 r.2) (q.run m) = _
  generalize q.run m = r
  obtain ⟨x | x, s⟩ := r <;> rfl

@[simp] theorem run_pure {α : Type} (x : α) (m : Memo) : (pure x : Recall α).run m = (.ok x, m) := rfl

namespace Steady

variable {α β : Type}

theorem keeps {q : Recall α} (hq : Steady k q) (m : Memo) : Agree k m (q.run m).2 :=
  (hq.grows m).agree

theorem pure (x : α) : Steady k (pure x : Recall α) :=
  ⟨fun _ => .refl, fun _ _ _ => rfl⟩

theorem throw (e : Error) : Steady k (throw e : Recall α) :=
  ⟨fun _ => .refl, fun _ _ _ => rfl⟩

theorem bind {q : Recall α} {f : α → Recall β} (hq : Steady k q) (hf : ∀ x, Steady k (f x)) :
    Steady k (q >>= f) := by
  refine ⟨fun m => ?_, fun m₁ m₂ h => ?_⟩
  · rw [run_bind]
    have hg := hq.grows m
    generalize q.run m = r at hg
    obtain ⟨x | x, s⟩ := r
    · exact hg
    · exact hg.trans ((hf x).grows s)
  · rw [run_bind, run_bind]
    have h₁ := hq.keeps m₁
    have h₂ := hq.keeps m₂
    have hr := hq.answers m₁ m₂ h
    generalize q.run m₁ = r₁ at h₁ hr
    generalize q.run m₂ = r₂ at h₂ hr
    obtain ⟨x₁, s₁⟩ := r₁
    obtain ⟨x₂, s₂⟩ := r₂
    cases (hr : x₁ = x₂)
    cases x₁ with
    | error e => rfl
    | ok x => exact (hf x).answers s₁ s₂ (h₁.symm.trans (h.trans h₂))

theorem filterAuxM {p : α → Recall Bool} (hp : ∀ x, Steady k (p x)) (xs acc : List α) :
    Steady k (xs.filterAuxM p acc) := by
  induction xs generalizing acc with
  | nil => exact .pure acc
  | cons x xs ih => exact (hp x).bind fun b => ih _

theorem filterM {p : α → Recall Bool} (hp : ∀ x, Steady k (p x)) (xs : List α) : Steady k (xs.filterM p) :=
  (filterAuxM hp xs []).bind fun ys => .pure ys.reverse

/-! ## Adjunctions -/

theorem apply (hk : k.Named) {name : String} {a : Adjunction} (ha : k.adjunction? name = some a) (side : Adjoint)
    (id : String) : Steady k (k.apply a side id) :=
  ⟨fun _ => grown_apply hk ha side id, fun _ _ h => congrArg Except.ok (h name a ha side id)⟩

theorem require (name : String) {f : Adjunction → Recall α}
    (hf : ∀ a, k.adjunction? name = some a → Steady k (f a)) : Steady k (k.require name >>= f) := by
  unfold Knowledge.require
  cases ha : k.adjunction? name with
  | none => exact throw (.unknownAdjunction name)
  | some a => exact hf a ha

theorem mapped? (hk : k.Named) (name : String) (l : Layer) (id : String) : Steady k (k.mapped? name l id) :=
  require name fun _ ha => (apply hk ha .left id).bind fun _ => .pure _

end Steady

end

end TriGraph.Knowledge
