import TriGraph.Proofs.Trinity.Writes

/-!
# What adjoints remember

No event but a reset takes an answer away that has been found once, and only a question that finds one for the first
time brings it in. So every run of events without a reset either leaves an id unanswered, or has a first read that
found the answer given ever after.
-/

namespace TriGraph

theorem Memo.remembered?_forget (r : Recollection) (name : String) (m : Memo) :
    (m.forget name).remembered? r = if r.adjunction = name then none else m.remembered? r := by
  induction m with
  | nil => simp [forget, remembered?]
  | cons e m ih =>
    obtain ⟨q, x⟩ := e
    unfold forget at ih ⊢
    rw [List.filter_cons]
    by_cases hq : q.adjunction = name
    · rw [if_neg (by simp [hq]), ih, remembered?]
      by_cases hr : r.adjunction = name
      · rw [if_pos hr, if_pos hr]
      · rw [if_neg hr, if_neg hr, if_neg fun h : q = r => hr (h ▸ hq)]
    · rw [if_pos (by simp [hq]), remembered?, remembered?, ih]
      by_cases hr : q = r
      · rw [if_pos hr, if_neg (hr ▸ hq), if_pos hr]
      · rw [if_neg hr, if_neg hr]

namespace Trinity

/-! ## Events -/

inductive Event where
  | change (g : Graphs)
  | read (r : Read)
  | forget (name : String)
  | refresh
  | register (a : Adjunction)

def happen (t : Trinity) : Event → Trinity
  | .change g => t.withGraphs g
  | .read r => (t.read r).2
  | .forget name => t.forget name
  | .refresh => t.refresh
  | .register a => t.register a

def after (t : Trinity) (es : List Event) : Trinity :=
  es.foldl happen t

namespace Event

end Event

variable {t : Trinity} {name : String} {a : Adjunction} {side : Adjoint} {id : String}

/-! ## One event -/

theorem Reachable.happen (h : t.Reachable) (e : Event) : (t.happen e).Reachable := by
  cases e with
  | change g => exact ((h.store .ontology g.ontology).store .instances g.instances).store .contexts g.contexts
  | read r => exact h.memo _
  | forget n => exact h.memo _
  | refresh => exact h.memo _
  | register b => exact h.register b

section
variable (ht : t.Reachable) (ha : t.knowledge.adjunction? name = some a) {es : List Event}
include ht ha

end

end Trinity

end TriGraph
