import Mathlib.Algebra.Group.Int.Defs
import TriGraph.Document.Fields
import TriGraph.Number.Order

/-!
# Records that are written in full

What a record writes is what its reader is given, and what a reader is given comes from the document.
-/

namespace TriGraph.Document

section
variable {α β γ : Type}

theorem mapM_map_eq_some {f : β → Option γ} {g : α → β} {k : α → γ} {xs : List α}
    (h : ∀ x ∈ xs, f (g x) = some (k x)) : (xs.map g).mapM f = some (xs.map k) := by
  induction xs with
  | nil => rfl
  | cons x xs ih =>
    obtain ⟨hx, hxs⟩ := List.forall_mem_cons.mp h
    rw [List.map_cons, List.mapM_cons, hx, ih hxs]
    rfl

theorem mapM_map_self {f : β → Option α} {g : α → β} {xs : List α} (h : ∀ x ∈ xs, f (g x) = some x) :
    (xs.map g).mapM f = some xs :=
  (mapM_map_eq_some (k := id) h).trans (congrArg some (List.map_id xs))

theorem exists_of_mem_mapM {f : α → Option β} {xs : List α} {ys : List β} (h : xs.mapM f = some ys) {y : β}
    (hy : y ∈ ys) : ∃ x ∈ xs, f x = some y := by
  induction xs generalizing ys with
  | nil =>
    cases h
    cases hy
  | cons x xs ih =>
    rw [List.mapM_cons] at h
    obtain ⟨z, hz, h⟩ := Option.bind_eq_some_iff.mp h
    obtain ⟨zs, hzs, h⟩ := Option.bind_eq_some_iff.mp h
    cases h
    rcases List.mem_cons.mp hy with rfl | hy
    · exact ⟨x, List.mem_cons_self .., hz⟩
    · obtain ⟨w, hw, hwy⟩ := ih hzs hy
      exact ⟨w, List.mem_cons_of_mem _ hw, hwy⟩

end

/-! ## What is written -/

section
variable {fs : List (String × Document)}

theorem single?_of_mem (h : (fs.map (·.1)).Nodup) {f : String × Document} (hf : f ∈ fs) :
    single? fs f.1 = some (some f.2) := by
  have hfilter : fs.filter (·.1 == f.1) = [f] := by
    induction fs with
    | nil => cases hf
    | cons g fs ih =>
      obtain ⟨hg, hfs⟩ := List.nodup_cons.mp h
      rcases List.mem_cons.mp hf with rfl | hf
      · have hrest : fs.filter (·.1 == f.1) = [] := by
          refine List.filter_eq_nil_iff.mpr fun e he hef => hg ?_
          exact List.mem_map.mpr ⟨e, he, beq_iff_eq.mp hef⟩
        simp [hrest]
      · have hne : g.1 ≠ f.1 := fun hgf => hg (List.mem_map.mpr ⟨f, hf, hgf.symm⟩)
        simp [hne, ih hfs hf]
  rw [single?, hfilter]

theorem fields?_object {names : List String} (hnames : fs.map (·.1) = names) (h : names.Nodup) :
    (Document.object fs).fields? names = some (fs.map fun f => some f.2) := by
  subst hnames
  exact mapM_map_eq_some fun f hf => single?_of_mem h hf

end

/-! ## What is read -/

/-- Integers have 64 bits, with or without a sign, and floats are finite. -/
inductive IsJson : Document → Prop where
  | null : IsJson .null
  | bool (b : Bool) : IsJson (.bool b)
  | int {n : Int} (hlo : -2 ^ 63 ≤ n) (hhi : n < 2 ^ 64) : IsJson (.int n)
  | float {x : Float} (h : Number.isFinite x = true) : IsJson (.float x)
  | text (s : String) : IsJson (.text s)
  | list {items : List Document} (h : ∀ d ∈ items, IsJson d) : IsJson (.list items)
  | object {fields : List (String × Document)} (h : ∀ f ∈ fields, IsJson f.2) : IsJson (.object fields)

theorem isJson_list {items : List Document} : (Document.list items).IsJson ↔ ∀ d ∈ items, d.IsJson :=
  ⟨fun h => by cases h with | list h => exact h, .list⟩

theorem isJson_object {fields : List (String × Document)} :
    (Document.object fields).IsJson ↔ ∀ f ∈ fields, f.2.IsJson :=
  ⟨fun h => by cases h with | object h => exact h, .object⟩

theorem mem_of_single? {fs : List (String × Document)} {name : String} {d : Document}
    (h : single? fs name = some (some d)) : (name, d) ∈ fs := by
  unfold single? at h
  split at h
  · cases h
  · rename_i k e hfilter
    cases h
    have hmem : (k, d) ∈ fs.filter (·.1 == name) := hfilter ▸ List.mem_singleton_self _
    obtain ⟨hmem, hk⟩ := List.mem_filter.mp hmem
    exact eq_of_beq hk ▸ hmem
  · cases h

theorem IsJson.field {d : Document} (hd : d.IsJson) {names : List String} {os : List (Option Document)}
    (h : d.fields? names = some os) {e : Document} (he : some e ∈ os) : e.IsJson := by
  cases hd with
  | object hfields =>
    obtain ⟨name, -, hname⟩ := exists_of_mem_mapM h he
    exact hfields _ (mem_of_single? hname)
  | @list items hitems =>
    simp only [fields?] at h
    split at h
    · cases h
      rcases List.mem_append.mp he with he | he
      · obtain ⟨i, hi, hie⟩ := List.mem_map.mp he
        cases hie
        exact hitems e hi
      · exact nomatch List.eq_of_mem_replicate he
    · cases h
  | _ => cases h

/-! ## Read, written and read again -/

def Rereads {α : Type} (read : Document → Option α) (write : α → Document) : Prop :=
  ∀ ⦃d : Document⦄ ⦃x : α⦄, d.IsJson → read d = some x → read (write x) = some x

section
variable {α : Type} {read : Document → Option α} {write : α → Document}

theorem Rereads.list (h : Rereads read write) : Rereads (listOf read) fun xs => .list (xs.map write) := by
  intro d xs hd hr
  cases hd with
  | list hitems =>
    refine mapM_map_self fun x hx => ?_
    obtain ⟨i, hi, hix⟩ := exists_of_mem_mapM hr hx
    exact h (hitems i hi) hix
  | _ => cases hr

theorem Rereads.field (h : Rereads read write) {x₀ : α} (h₀ : read (write x₀) = some x₀) {d : Document}
    (hd : d.IsJson) {names : List String} {os : List (Option Document)} (hos : d.fields? names = some os)
    {o : Option Document} (ho : o ∈ os) {x : α} (hx : withDefault x₀ read o = some x) : read (write x) = some x := by
  cases o with
  | none =>
    cases hx
    exact h₀
  | some e => exact h (hd.field hos ho) hx

end

end TriGraph.Document
