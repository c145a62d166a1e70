import Mathlib.Data.List.Forall2
import TriGraph.Text.Alphanumeric
import TriGraph.Text.Blank

/-!
# Words of a text

A text with given words is these words with blanks around them, at least one between two of them. The words that are
read off a text are the only ones without a blank that it can be written with.
-/

namespace TriGraph.Text

/-! ## Spacing -/

/-- Blanks stand before each word, at least one stands after each but the last, and more may stand at the end. -/
inductive Spaced : List String → List Char → Prop where
  | blank {gap : List Char} (hg : ∀ c ∈ gap, isBlank c) : Spaced [] gap
  | last {gap : List Char} (hg : ∀ c ∈ gap, isBlank c) (w : String) : Spaced [w] (gap ++ w.toList)
  | next {gap : List Char} (hg : ∀ c ∈ gap, isBlank c) (w : String) {b : Char} (hb : isBlank b) {ws : List String}
      {rest : List Char} (h : Spaced ws rest) : Spaced (w :: ws) (gap ++ w.toList ++ b :: rest)

structure Solid (w : String) : Prop where
  nonempty : w ≠ ""
  not_blank : ∀ c ∈ w.toList, ¬isBlank c

/-- The maximal runs of characters that are not blank, in their order. -/
def Divides (s : String) (ws : List String) : Prop :=
  Spaced ws s.toList ∧ ∀ w ∈ ws, Solid w

section
variable {word rest gap cs : List Char} {b : Char} {ws : List String}

theorem Spaced.cons_blank (hb : isBlank b) (h : Spaced ws rest) : Spaced ws (b :: rest) := by
  cases h with
  | blank hg => exact .blank (List.forall_mem_cons.mpr ⟨hb, hg⟩)
  | last hg w => exact .last (List.forall_mem_cons.mpr ⟨hb, hg⟩) w
  | next hg w hb' h => exact .next (List.forall_mem_cons.mpr ⟨hb, hg⟩) w hb' h

theorem wordsFrom_append (hw : ∀ c ∈ word, ¬isBlank c) (read : List Char) :
    wordsFrom read (word ++ rest) = wordsFrom (read ++ word) rest := by
  induction word generalizing read with
  | nil => simp
  | cons c word ih =>
    obtain ⟨hc, hw⟩ := List.forall_mem_cons.mp hw
    rw [List.cons_append, wordsFrom, if_neg hc, ih hw, List.append_assoc, List.singleton_append]

theorem wordsFrom_gap (hg : ∀ c ∈ gap, isBlank c) : wordsFrom [] (gap ++ rest) = wordsFrom [] rest := by
  induction gap with
  | nil => rfl
  | cons c gap ih =>
    obtain ⟨hc, hg⟩ := List.forall_mem_cons.mp hg
    rw [List.cons_append, wordsFrom, if_pos hc, List.isEmpty_nil, if_pos rfl, ih hg]

theorem wordsFrom_nil (hw : word ≠ []) : wordsFrom word [] = [word] := by
  simp [wordsFrom, hw]

theorem wordsFrom_blank (hw : word ≠ []) (hb : isBlank b) :
    wordsFrom word (b :: rest) = word :: wordsFrom [] rest := by
  simp [wordsFrom, hb, hw]

/-- The characters already read of the first word come in front of the rest. -/
theorem spaced_wordsFrom (word cs : List Char) : Spaced ((wordsFrom word cs).map String.ofList) (word ++ cs) := by
  have hnone : ∀ c ∈ ([] : List Char), isBlank c := List.forall_mem_nil _
  -- along the text, where the word already read grows until a blank ends it
  induction cs generalizing word with
  | nil =>
    cases word with
    | nil => exact .blank hnone
    | cons c word => simpa [wordsFrom] using Spaced.last hnone (String.ofList (c :: word))
  | cons b cs ih =>
    by_cases hb : isBlank b
    · cases word with
      | nil => simpa [wordsFrom, hb] using (ih []).cons_blank hb
      | cons c word =>
        simpa [wordsFrom_blank, hb] using Spaced.next hnone (String.ofList (c :: word)) hb (ih [])
    · simpa [wordsFrom, hb] using ih (word ++ [b])

theorem solid_of_mem_wordsFrom (hword : ∀ c ∈ word, ¬isBlank c) {w : List Char} (hw : w ∈ wordsFrom word cs) :
    Solid (String.ofList w) := by
  have hsolid : ∀ {v : List Char}, v ≠ [] → (∀ c ∈ v, ¬isBlank c) → Solid (String.ofList v) := fun hv h =>
    ⟨by simpa [← String.toList_inj] using hv, by simpa using h⟩
  induction cs generalizing word with
  | nil =>
    by_cases hn : word = []
    · simp [wordsFrom, hn] at hw
    · rw [wordsFrom_nil hn, List.mem_singleton] at hw
      exact hw ▸ hsolid hn hword
  | cons b cs ih =>
    by_cases hb : isBlank b
    · by_cases hn : word = []
      · rw [wordsFrom, if_pos hb, hn, List.isEmpty_nil, if_pos rfl] at hw
        exact ih (List.forall_mem_nil _) hw
      · rw [wordsFrom_blank hn hb, List.mem_cons] at hw
        rcases hw with rfl | hw
        · exact hsolid hn hword
        · exact ih (List.forall_mem_nil _) hw
    · rw [wordsFrom, if_neg hb] at hw
      exact ih (by simpa [or_imp, forall_and, hb] using hword) hw

theorem Spaced.wordsFrom_eq (h : Spaced ws cs) (hs : ∀ w ∈ ws, Solid w) : (wordsFrom [] cs).map String.ofList = ws := by
  induction h with
  | @blank gap hg =>
    have hgap : wordsFrom [] (gap ++ []) = [] := wordsFrom_gap hg
    rw [← List.append_nil gap, hgap, List.map_nil]
  | last hg w =>
    have hw := hs w (List.mem_singleton_self w)
    have hread : wordsFrom [] (w.toList ++ []) = [w.toList] :=
      (wordsFrom_append hw.not_blank []).trans (wordsFrom_nil (mt String.toList_eq_nil_iff.mp hw.nonempty))
    rw [wordsFrom_gap hg, ← List.append_nil w.toList, hread, List.map_singleton, String.ofList_toList]
  | @next gap hg w b hb ws rest _ ih =>
    obtain ⟨hw, hs⟩ := List.forall_mem_cons.mp hs
    rw [List.append_assoc, wordsFrom_gap hg, wordsFrom_append hw.not_blank, List.nil_append,
      wordsFrom_blank (mt String.toList_eq_nil_iff.mp hw.nonempty) hb, List.map_cons, String.ofList_toList, ih hs]

end

theorem words_eq_iff {s : String} {ws : List String} : words s = ws ↔ Divides s ws := by
  constructor
  · rintro rfl
    refine ⟨spaced_wordsFrom [] s.toList, fun w hw => ?_⟩
    obtain ⟨v, hv, rfl⟩ := List.mem_map.mp hw
    exact solid_of_mem_wordsFrom (List.forall_mem_nil _) hv
  · exact fun ⟨h, hs⟩ => h.wordsFrom_eq hs

/-! ## Letters -/

def Capital (a b : Char) : Prop :=
  'A'.toNat ≤ a.toNat ∧ a.toNat ≤ 'Z'.toNat ∧ b.toNat = a.toNat + ('a'.toNat - 'A'.toNat)

def SameLetter (a b : Char) : Prop :=
  a = b ∨ Capital a b ∨ Capital b a

def Recased (v w : String) : Prop :=
  List.Forall₂ SameLetter v.toList w.toList

instance (a b : Char) : Decidable (Capital a b) := inferInstanceAs (Decidable (_ ∧ _))

instance (a b : Char) : Decidable (SameLetter a b) := inferInstanceAs (Decidable (_ ∨ _))

instance (v w : String) : Decidable (Recased v w) := inferInstanceAs (Decidable (List.Forall₂ _ _ _))

def Capitals (v : String) : Prop :=
  v ≠ "" ∧ ∀ a ∈ v.toList, 'A'.toNat ≤ a.toNat ∧ a.toNat ≤ 'Z'.toNat

instance (v : String) : Decidable (Capitals v) :=
  @instDecidableAnd _ _ inferInstance (List.decidableBAll (fun a => 'A'.toNat ≤ a.toNat ∧ a.toNat ≤ 'Z'.toNat) v.toList)

theorem toNat_toLower (c : Char) :
    c.toLower.toNat = if 65 ≤ c.toNat ∧ c.toNat ≤ 90 then c.toNat + 32 else c.toNat := by
  have hcapital : (c.val ≥ 'A'.val ∧ c.val ≤ 'Z'.val) ↔ 65 ≤ c.toNat ∧ c.toNat ≤ 90 := by
    simp [UInt32.le_iff_toNat_le]
  unfold Char.toLower
  split
  · next h =>
    have hc := hcapital.mp h
    have hadd : (c.val + ('a'.val - 'A'.val)).toNat = (c.toNat + 32) % 2 ^ 32 := UInt32.toNat_add _ _
    rw [if_pos hc]
    exact hadd.trans (Nat.mod_eq_of_lt (by omega))
  · next h => rw [if_neg (mt hcapital.mpr h)]

theorem toLower_eq_iff {a b : Char} : a.toLower = b.toLower ↔ SameLetter a b := by
  rw [← Char.toNat_inj, toNat_toLower, toNat_toLower, SameLetter, Capital, Capital, ← Char.toNat_inj]
  change _ ↔ a.toNat = b.toNat ∨ (65 ≤ a.toNat ∧ a.toNat ≤ 90 ∧ b.toNat = a.toNat + 32) ∨
    (65 ≤ b.toNat ∧ b.toNat ≤ 90 ∧ a.toNat = b.toNat + 32)
  split <;> split <;> omega

theorem sameLetters_iff {v w : String} : sameLetters v w = true ↔ Recased v w := by
  rw [sameLetters, beq_iff_eq]
  change v.map Char.toLower = w.map Char.toLower ↔ _
  rw [← String.toList_inj, String.toList_map, String.toList_map, ← List.forall₂_eq_eq_eq, List.forall₂_map_left_iff,
    List.forall₂_map_right_iff]
  simp only [toLower_eq_iff, Recased]

/-! ## Characters that are not blank -/

theorem isBlank_iff {c : Char} : isBlank c = true ↔ ∃ r ∈ blankRanges, r.1 ≤ c.toNat ∧ c.toNat ≤ r.2 := by
  simp [isBlank]

theorem ranges_apart : ∀ r ∈ alphanumericRanges, ∀ b ∈ blankRanges, r.2 < b.1 ∨ b.2 < r.1 := by
  decide +kernel

theorem not_blank_of_alphanumeric {c : Char} (h : isAlphanumeric c) : ¬isBlank c := by
  rw [isBlank_iff]
  simp only [isAlphanumeric, List.any_eq_true, Bool.and_eq_true, decide_eq_true_eq] at h
  rintro ⟨b, hb, hlow, hhigh⟩
  obtain ⟨r, hr, hc⟩ := h
  have := ranges_apart r hr b hb
  omega

-- the blanks all lie below the capitals or above the small letters
theorem not_blank_of_capital {a c : Char} (ha : 'A'.toNat ≤ a.toNat ∧ a.toNat ≤ 'Z'.toNat) (h : SameLetter a c) :
    ¬isBlank c := by
  have hletters : ∀ b ∈ blankRanges, b.2 < 'A'.toNat ∨ 'z'.toNat < b.1 := by decide
  have hc : 'A'.toNat ≤ c.toNat ∧ c.toNat ≤ 'z'.toNat := by
    simp only [Char.reduceToNat] at ha ⊢
    rcases h with rfl | ⟨-, -, h⟩ | ⟨hlow, hhigh, h⟩
    · omega
    · simp only [Char.reduceToNat] at h
      omega
    · simp only [Char.reduceToNat] at hlow hhigh
      omega
  rw [isBlank_iff]
  rintro ⟨b, hb, hlow, hhigh⟩
  have := hletters b hb
  omega

theorem exists_of_mem_forall₂ {α β : Type} {R : α → β → Prop} {as : List α} {bs : List β} (h : List.Forall₂ R as bs)
    {b : β} (hb : b ∈ bs) : ∃ a ∈ as, R a b := by
  induction h with
  | nil => cases hb
  | cons h _ ih =>
    rcases List.mem_cons.mp hb with rfl | hb
    · exact ⟨_, List.mem_cons_self, h⟩
    · obtain ⟨a, ha, h⟩ := ih hb
      exact ⟨a, List.mem_cons_of_mem _ ha, h⟩

theorem Recased.solid {v w : String} (h : Recased v w) (hv : Capitals v) : Solid w where
  nonempty := by
    rintro rfl
    exact hv.1 (String.toList_eq_nil_iff.mp (List.forall₂_nil_right_iff.mp h))
  not_blank c hc := by
    obtain ⟨a, ha, hsame⟩ := exists_of_mem_forall₂ h hc
    exact not_blank_of_capital (hv.2 a ha) hsame

end TriGraph.Text
