import TriGraph.Index.Key
import TriGraph.Proofs.Number.Exact

/-!
# The order of index keys

A key has a place: its kind, then its rank among the floats, then an integer before a float, and last the integer or
the text itself. Keys are in the order of their places, so the order is total and ties only between equal keys,
whatever bits a float has.
-/

namespace TriGraph

theorem natAbs_toInt_le (n : Int64) : n.toInt.natAbs ≤ 2 ^ 64 := by
  have := n.le_toInt
  have := n.toInt_lt
  omega

/-! ## Floats by their bits -/

namespace Number

def bitsRank (b : UInt64) : Int :=
  if signWeight ≤ b.toNat then -((b.toNat % signWeight : Nat) : Int) - 1 else (b.toNat % signWeight : Nat)

theorem bitsRank_toBits (x : Float) : bitsRank x.toBits = totalRank x := by
  unfold bitsRank totalRank isNegative magnitude
  simp only [decide_eq_true_eq]

theorem eq_of_bitsRank_eq {b c : UInt64} (h : bitsRank b = bitsRank c) : b = c := by
  have hb := b.toNat_lt
  have hc := c.toNat_lt
  apply UInt64.toNat_inj.mp
  unfold bitsRank signWeight at h
  split at h <;> split at h <;> omega

end Number

namespace Index

inductive BitKey where
  | bool (b : Bool)
  | int (n : Int64)
  | float (bits : UInt64)
  | text (s : String)
deriving DecidableEq

namespace BitKey

open Number

def tier : BitKey → Nat
  | .bool _ => 0
  | .int _ => 1
  | .float _ => 1
  | .text _ => 2

def order : BitKey → BitKey → Ordering
  | .bool a, .bool b => compare a b
  | .text s, .text t => compare s t
  | .int m, .int n => compare m.toInt n.toInt
  | .float x, .float y => compare (bitsRank x) (bitsRank y)
  | .int n, .float x => (compare (bitsRank (ofInt n.toInt).toBits) (bitsRank x)).then .lt
  | .float x, .int n => (compare (bitsRank x) (bitsRank (ofInt n.toInt).toBits)).then .gt
  | a, b => compare a.tier b.tier

instance : Ord BitKey := ⟨order⟩

/-! ## Places -/

def rank : BitKey → Int
  | .bool b => if b then 1 else 0
  | .int n => bitsRank (ofInt n.toInt).toBits
  | .float x => bitsRank x
  | .text _ => 0

def side : BitKey → Nat
  | .float _ => 1
  | _ => 0

def integer : BitKey → Int
  | .int n => n.toInt
  | _ => 0

def letters : BitKey → String
  | .text s => s
  | _ => ""

def placeOrder : BitKey → BitKey → Ordering :=
  compareLex (compareOn tier) (compareLex (compareOn rank)
    (compareLex (compareOn side) (compareLex (compareOn integer) (compareOn letters))))

theorem compare_int_eq (m n : Int64) :
    compare m.toInt n.toInt =
      (compare (bitsRank (ofInt m.toInt).toBits) (bitsRank (ofInt n.toInt).toBits)).then
        (compare m.toInt n.toInt) := by
  rw [bitsRank_toBits, bitsRank_toBits]
  have hm := natAbs_toInt_le m
  have hn := natAbs_toInt_le n
  rcases Int.lt_trichotomy m.toInt n.toInt with h | h | h
  · have hr := totalRank_ofInt_mono hm hn (Int.le_of_lt h)
    rw [Int.compare_eq_lt.mpr h]
    rcases Int.lt_or_eq_of_le hr with hr | hr
    · rw [Int.compare_eq_lt.mpr hr]; rfl
    · rw [Int.compare_eq_eq.mpr hr]; rfl
  · rw [h, Int.compare_eq_eq.mpr rfl, Int.compare_eq_eq.mpr rfl]; rfl
  · have hr := totalRank_ofInt_mono hn hm (Int.le_of_lt h)
    rw [Int.compare_eq_gt.mpr h]
    rcases Int.lt_or_eq_of_le hr with hr | hr
    · rw [Int.compare_eq_gt.mpr hr]; rfl
    · rw [Int.compare_eq_eq.mpr hr.symm]; rfl

theorem order_eq_placeOrder (a b : BitKey) : order a b = placeOrder a b := by
  have hlt : compare (0 : Nat) 1 = .lt := rfl
  have hgt : compare (1 : Nat) 0 = .gt := rfl
  cases a with
  | bool a =>
    cases b with
    | bool b => cases a <;> cases b <;> rfl
    | _ => rfl
  | int m =>
    cases b with
    | int n =>
      have := compare_int_eq m n
      simpa [placeOrder, compareLex, compareOn, tier, rank, side, integer, letters, order] using this
    | float x => simp [placeOrder, compareLex, compareOn, tier, rank, side, order, hlt]
    | _ => rfl
  | float x =>
    cases b with
    | float y => simp [placeOrder, compareLex, compareOn, tier, rank, side, integer, letters, order]
    | int n => simp [placeOrder, compareLex, compareOn, tier, rank, side, order, hgt]
    | _ => rfl
  | text s =>
    cases b with
    | text t => simp [placeOrder, compareLex, compareOn, tier, rank, side, integer, letters, order]
    | _ => rfl

/-! ## A total order -/

theorem eq_of_order_eq {a b : BitKey} (h : order a b = .eq) : a = b := by
  cases a with
  | bool a =>
    cases b with
    | bool b => rw [Std.LawfulEqOrd.eq_of_compare (show compare a b = .eq from h)]
    | _ => cases h
  | int m =>
    cases b with
    | int n => rw [Int64.toInt_inj.mp (Int.compare_eq_eq.mp h)]
    | float x => simp [order] at h
    | _ => cases h
  | float x =>
    cases b with
    | float y => rw [eq_of_bitsRank_eq (Int.compare_eq_eq.mp h)]
    | int n => simp [order] at h
    | _ => cases h
  | text s =>
    cases b with
    | text t => rw [Std.LawfulEqOrd.eq_of_compare (show compare s t = .eq from h)]
    | _ => cases h

instance : Std.TransOrd BitKey := by
  have h : (compare : BitKey → BitKey → Ordering) = placeOrder := funext fun a => funext fun b => order_eq_placeOrder a b
  unfold Std.TransOrd
  rw [h]
  unfold placeOrder
  infer_instance

instance : Std.LawfulEqOrd BitKey where
  compare_self := Std.ReflCmp.compare_self
  eq_of_compare := eq_of_order_eq

end BitKey

/-! ## Keys by their bits -/

namespace Key

def bits : Key → BitKey
  | .bool b => .bool b
  | .int n => .int n
  | .float x => .float x.toBits
  | .text s => .text s

theorem bits_injective : Function.Injective bits
  | .bool _, .bool _, rfl => rfl
  | .int _, .int _, rfl => rfl
  | .float _, .float _, h => congrArg float (Number.eq_of_toBits_eq (BitKey.float.inj h))
  | .text _, .text _, rfl => rfl

theorem compare_bits (a b : Key) : compare a.bits b.bits = compare a b := by
  change a.bits.order b.bits = a.order b
  cases a with
  | float x =>
    cases b with
    | float y => simp only [bits, BitKey.order, order, Number.bitsRank_toBits]
    | int n => simp only [bits, BitKey.order, order, Number.bitsRank_toBits]
    | _ => rfl
  | int m =>
    cases b with
    | float y => simp only [bits, BitKey.order, order, Number.bitsRank_toBits]
    | _ => rfl
  | bool _ => cases b <;> rfl
  | text _ => cases b <;> rfl

instance : Std.TransOrd Key := by
  have h : (compare : Key → Key → Ordering) = compareOn bits := funext fun a => funext fun b => (compare_bits a b).symm
  unfold Std.TransOrd
  rw [h]
  infer_instance

instance : Std.LawfulEqOrd Key where
  compare_self := Std.ReflCmp.compare_self
  eq_of_compare {a b} h := bits_injective (Std.LawfulEqOrd.eq_of_compare ((compare_bits a b).trans h))

end Key

end Index

end TriGraph
