import Mathlib.Data.List.Induction
import TriGraph.Proofs.Index.Range

/-!
# Keys in tables

A list in order and a catalog go by the order of the keys alone. A hash table looks for a key among those of one hash;
equal keys are the same key, which feeds the same data to the hasher.
-/

namespace TriGraph.Index

/-! ## Hashing -/

inductive Feed where
  | byte (b : UInt8)
  | signed (n : Int64)
  | unsigned (n : UInt64)
  | text (s : String)
deriving DecidableEq

def BitKey.fed : BitKey → List Feed
  | .bool b => [.byte 0, .byte b.toUInt8]
  | .int n => [.byte 1, .signed n]
  | .float bits => [.byte 2, .unsigned bits]
  | .text s => [.byte 3, .text s]

def Key.fed (k : Key) : List Feed :=
  k.bits.fed

theorem BitKey.fed_injective : Function.Injective BitKey.fed := by
  intro a b h
  cases a with
  | bool a =>
    cases b with
    | bool b => revert h; cases a <;> cases b <;> decide
    | _ => simp [fed] at h
  | _ => cases b <;> simp_all [fed]

theorem Key.fed_injective : Function.Injective Key.fed :=
  BitKey.fed_injective.comp Key.bits_injective

structure Hashed {κ : Type} (fed : κ → List Feed) (hash : List Feed → UInt64) where
  key : κ

section
variable {κ α : Type}

namespace Hashed

variable [Ord κ] {fed : κ → List Feed} {hash : List Feed → UInt64}

instance : BEq (Hashed fed hash) := ⟨fun a b => compare a.key b.key == .eq⟩

instance : Hashable (Hashed fed hash) := ⟨fun a => hash (fed a.key)⟩

theorem beq_iff [Std.LawfulEqOrd κ] {a b : Hashed fed hash} : (a == b) = true ↔ a.key = b.key := by
  change (compare a.key b.key == .eq) = true ↔ _
  rw [beq_iff_eq, Std.LawfulEqOrd.compare_eq_iff_eq]

instance [Std.LawfulEqOrd κ] : EquivBEq (Hashed fed hash) where
  rfl := beq_iff.mpr rfl
  symm h := beq_iff.mpr (beq_iff.mp h).symm
  trans h h' := beq_iff.mpr ((beq_iff.mp h).trans (beq_iff.mp h'))

instance [Std.LawfulEqOrd κ] : LawfulHashable (Hashed fed hash) where
  hash_eq _ _ h := congrArg (fun k => hash (fed k)) (beq_iff.mp h)

end Hashed

def hashTable [Ord κ] (fed : κ → List Feed) (hash : List Feed → UInt64) (es : List (κ × α)) :
    Std.HashMap (Hashed fed hash) α :=
  es.foldl (fun t e => t.insert ⟨e.1⟩ e.2) ∅

/-! ## What was put under a key -/

variable [DecidableEq κ]

def lastUnder (k : κ) (es : List (κ × α)) : Option α :=
  (es.reverse.find? fun e => e.1 = k).map (·.2)

theorem lastUnder_append (k : κ) (es : List (κ × α)) (e : κ × α) :
    lastUnder k (es ++ [e]) = if e.1 = k then some e.2 else lastUnder k es := by
  unfold lastUnder
  rw [List.reverse_append, List.reverse_singleton, List.singleton_append, List.find?_cons]
  by_cases h : e.1 = k <;> simp [h]

theorem get_foldl_put {T : Type} (get : T → κ → Option α) (put : T → κ → α → T)
    (hput : ∀ t l x k, get (put t l x) k = if l = k then some x else get t k) {empty : T}
    (hempty : ∀ k, get empty k = none) (es : List (κ × α)) (k : κ) :
    get (es.foldl (fun t e => put t e.1 e.2) empty) k = lastUnder k es := by
  induction es using List.reverseRecOn with
  | nil => exact hempty k
  | append_singleton es e ih => rw [List.foldl_append, List.foldl_cons, List.foldl_nil, hput, ih, lastUnder_append]

end

/-! ## Sorting -/

namespace Key

theorem mem_dedup {ks : List Key} {k : Key} : k ∈ dedup ks ↔ k ∈ ks := by
  fun_induction dedup ks with
  | case1 a b ks h ih =>
    have hab : a = b := Std.LawfulEqOrd.eq_of_compare h
    rw [ih, hab]
    simp
  | case2 a b ks h ih => rw [List.mem_cons, ih, List.mem_cons (a := k) (b := a)]
  | case3 ks => rfl

theorem sorted_dedup {ks : List Key} (h : ks.Pairwise (·.atMost · = true)) : OrderedSet.Sorted (dedup ks) := by
  fun_induction dedup ks with
  | case1 a b ks hab ih => exact ih (h.sublist (by simp))
  | case2 a b ks hab ih =>
    obtain ⟨ha, hks⟩ := List.pairwise_cons.mp h
    obtain ⟨hb, -⟩ := List.pairwise_cons.mp hks
    have hlt : compare a b = .lt := by
      have hle := atMost_iff.mp (ha b (List.mem_cons_self ..))
      exact (Ordering.isLE_iff_eq_lt_or_eq_eq.mp hle).resolve_right hab
    refine List.pairwise_cons.mpr ⟨fun c hc => ?_, ih hks⟩
    rcases List.mem_cons.mp (mem_dedup.mp hc) with rfl | hc
    · exact hlt
    · exact Std.TransCmp.lt_of_lt_of_isLE hlt (atMost_iff.mp (hb c hc))
  | case3 ks hshort =>
    match ks, hshort with
    | [], _ => exact List.Pairwise.nil
    | [a], _ => exact List.pairwise_singleton _ _
    | a :: b :: ks, hshort => exact absurd rfl (hshort a b ks)

theorem dedup_sort (ks : List Key) : dedup (sort ks) = OrderedSet.ofList ks := by
  have htotal : ∀ a b : Key, (a.atMost b || b.atMost a) = true := by
    intro a b
    cases hab : a.atMost b with
    | true => rfl
    | false => exact atMost_of_lt (atMost_eq_false.mp hab)
  have htrans : ∀ a b c : Key, a.atMost b = true → b.atMost c = true → a.atMost c = true :=
    fun _ _ _ => atMost_trans
  have hsort : (sort ks).Pairwise (·.atMost · = true) := List.pairwise_mergeSort htrans htotal ks
  refine (sorted_dedup hsort).ext (OrderedSet.sorted_ofList ks) fun k => ?_
  rw [mem_dedup, OrderedSet.mem_ofList]
  exact List.mem_mergeSort

end Key

/-! ## The laws of keys -/

structure KeyLaws (κ : Type) [Ord κ] [DecidableEq κ] (fed : κ → List Feed) : Prop where
  swap : ∀ a b : κ, compare b a = (compare a b).swap
  lt_trans : ∀ a b c : κ, compare a b = .lt → compare b c = .lt → compare a c = .lt
  isLE_trans : ∀ a b c : κ, (compare a b).isLE = true → (compare b c).isLE = true → (compare a c).isLE = true
  eq_iff : ∀ a b : κ, compare a b = .eq ↔ a = b
  fed_iff : ∀ a b : κ, compare a b = .eq ↔ fed a = fed b
  hashed : ∀ (α : Type) (hash : List Feed → UInt64) (es : List (κ × α)) (k : κ),
    (hashTable fed hash es)[(⟨k⟩ : Hashed fed hash)]? = lastUnder k es
  listed : ∀ ks : List κ, OrderedSet.Sorted (OrderedSet.ofList ks) ∧ ∀ k, k ∈ OrderedSet.ofList ks ↔ k ∈ ks
  mapped : ∀ (α : Type) (es : List (κ × α)),
    Catalog.Sorted (Catalog.ofList es) ∧ ∀ k, Catalog.get? k (Catalog.ofList es) = lastUnder k es

theorem keyLaws {κ : Type} [Ord κ] [DecidableEq κ] [Std.TransOrd κ] [Std.LawfulEqOrd κ] {fed : κ → List Feed}
    (hfed : Function.Injective fed) : KeyLaws κ fed where
  swap _ _ := Std.OrientedOrd.eq_swap
  lt_trans _ _ _ := Std.TransCmp.lt_trans
  isLE_trans _ _ _ := Std.TransCmp.isLE_trans
  eq_iff _ _ := Std.LawfulEqOrd.compare_eq_iff_eq
  fed_iff _ _ := Std.LawfulEqOrd.compare_eq_iff_eq.trans hfed.eq_iff.symm
  hashed α hash es := by
    refine get_foldl_put (fun (t : Std.HashMap (Hashed fed hash) α) k => t[(⟨k⟩ : Hashed fed hash)]?)
      (fun t k x => t.insert ⟨k⟩ x) (fun t l x k => ?_) (fun k => Std.HashMap.getElem?_empty) es
    simp only [Std.HashMap.getElem?_insert, Hashed.beq_iff]
  listed ks := ⟨OrderedSet.sorted_ofList ks, fun _ => OrderedSet.mem_ofList⟩
  mapped α es := by
    refine ⟨Catalog.Sorted.ofList es, get_foldl_put (fun c k => Catalog.get? k c)
      (fun c k x => Catalog.insert k x c) (fun c l x k => ?_) (fun _ => rfl) es⟩
    by_cases h : l = k
    · rw [if_pos h, h, Catalog.get?_insert_self]
    · rw [if_neg h, Catalog.get?_insert_ne (Ne.symm h)]

/-- The order of the keys is total and ties only between equal keys, also where floats may have any bits; so no key is
taken for another in a hash table, a list in order or a catalog. -/
theorem keys_told_apart :
    KeyLaws Key Key.fed ∧ KeyLaws BitKey BitKey.fed ∧ Function.Injective Key.bits ∧
      (∀ a b : Key, compare a.bits b.bits = compare a b) ∧ ∀ ks, Key.dedup (Key.sort ks) = OrderedSet.ofList ks :=
  ⟨keyLaws Key.fed_injective, keyLaws BitKey.fed_injective, Key.bits_injective, Key.compare_bits, Key.dedup_sort⟩

-- both integers round to the float, and both come before it
example : OrderedSet.ofList [Key.float 9007199254740992.0, .int 9007199254740993, .int 0, .float (-0.0),
    .int 9007199254740992] = [.float (-0.0), .int 0, .int 9007199254740992, .int 9007199254740993,
      .float 9007199254740992.0] := by
  decide +kernel

end TriGraph.Index
