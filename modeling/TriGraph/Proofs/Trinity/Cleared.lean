import TriGraph.Proofs.Knowledge.Answers
import TriGraph.Proofs.Trinity.Remembrance

/-!
# Cleared memos

Once the memo has been cleared, nothing gets into it but what the mappings say, until a graph is written to. So an
adjoint answers the value of its mapping on the graphs as they are.
-/

namespace TriGraph

namespace Knowledge

variable {k : Knowledge} {m : Memo}

/-- The built-in adjunctions are registered, whatever others there are. -/
def Furnished (k : Knowledge) : Prop :=
  ∀ a ∈ Builtin.adjunctions, k.adjunction? a.name = some a

theorem reply_of_truthful (hk : k.Named) (hm : k.Truthful m) {name : String} {a : Adjunction}
    (ha : k.adjunction? name = some a) (side : Adjoint) (id : String) :
    k.reply m a side id = a.value side k.graphs id := by
  rw [(agree_nil_iff hk).mpr hm name a ha side id, reply_eq]
  exact Option.none_or

theorem settled_mapped? (hk : k.Named) (hm : k.Truthful m) {name : String} {a : Adjunction}
    (ha : k.adjunction? name = some a) (l : Layer) (id : String) :
    Settled k m (k.mapped? name l id) ((a.value .left k.graphs id).bind (k.node? l)) := by
  refine .of_steady (Steady.mapped? hk name l id) ?_
  unfold mapped? require
  rw [ha, ← reply_of_truthful hk hm ha]
  rfl

theorem settled_mapped?_of_node (hk : k.Named) (hm : k.Truthful m) {name : String} {a : Adjunction}
    (ha : k.adjunction? name = some a) {id : String} {n : Node} (hn : k.node? a.source id = some n) (l : Layer) :
    Settled k m (k.mapped? name l id) ((a.left k.graphs n).bind (k.node? l)) := by
  have hv : a.value .left k.graphs id = a.left k.graphs n := by
    change (k.node? a.source id).bind (a.left k.graphs) = _
    rw [hn]
    rfl
  exact hv ▸ settled_mapped? hk hm ha l id

end Knowledge

namespace Trinity

theorem furnished_new (name : String) : (new name).knowledge.Furnished := by
  intro a ha
  simp only [Builtin.adjunctions, List.mem_cons, List.not_mem_nil, or_false] at ha
  rcases ha with rfl | rfl | rfl | rfl | rfl | rfl <;> rfl

/-- The memo has been cleared since the last write. -/
inductive Cleared : Trinity → Prop where
  | refresh {t : Trinity} (h : t.Built) : Cleared t.refresh
  | read {t : Trinity} (h : Cleared t) (r : Read) : Cleared (t.read r).2
  | forget {t : Trinity} (h : Cleared t) (name : String) : Cleared (t.forget name)
  | register {t : Trinity} (h : Cleared t) (a : Adjunction) : Cleared (t.register a)

namespace Cleared

variable {t : Trinity}

theorem built (h : t.Cleared) : t.Built := by
  induction h with
  | refresh h => exact h.memo []
  | read _ r ih => exact ih.memo _
  | forget _ name ih => exact ih.memo _
  | register _ a ih => exact ih.register a

theorem truthful (h : t.Cleared) : t.knowledge.Truthful t.memo := by
  induction h with
  | refresh _ =>
    intro name a _ side id x hx
    cases hx
  | @read t h r ih =>
    have hn := h.built.reachable.named
    exact ((r.steady hn).grows t.memo).truthful hn ih
  | @forget t _ n ih =>
    intro name a ha side id x hx
    change (t.memo.forget n).remembered? _ = _ at hx
    rw [Memo.remembered?_forget] at hx
    split at hx
    · cases hx
    · exact ih name a ha side id x hx
  | @register t _ b ih =>
    intro name a ha side id x hx
    change (t.memo.forget b.name).remembered? _ = _ at hx
    rw [Memo.remembered?_forget] at hx
    split at hx
    · cases hx
    · next hne => exact ih name a ((Catalog.get?_insert_ne hne).symm.trans ha) side id x hx

theorem read_apply (h : t.Cleared) {name : String} {a : Adjunction} (ha : t.knowledge.adjunction? name = some a)
    (side : Adjoint) (id : String) : (t.read (.apply name side id)).1 = .ok (a.value side t.graphs id) := by
  rw [Trinity.read_apply ha, Knowledge.reply_of_truthful h.built.reachable.named h.truthful ha]
  rfl

theorem exists_of_apply (h : t.Cleared) {name : String} {a : Adjunction} (ha : t.knowledge.adjunction? name = some a)
    {side : Adjoint} {id x : String} (hx : (t.read (.apply name side id)).1 = .ok (some x)) :
    ∃ n ∈ (t.graphs.store (a.start side)).allNodes, n.id = id ∧ a.mapping side t.graphs n = some x := by
  have hv : a.value side t.graphs id = some x := Except.ok.inj ((h.read_apply ha side id).symm.trans hx)
  obtain ⟨n, hn, hm⟩ := Option.bind_eq_some_iff.mp hv
  obtain ⟨hmem, hid⟩ := (h.built.store _).linked.nodes.get?_eq_some.mp hn
  exact ⟨n, hmem, hid, hm⟩

end Cleared

end Trinity

end TriGraph
