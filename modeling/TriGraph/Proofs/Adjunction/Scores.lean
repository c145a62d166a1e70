import TriGraph.Proofs.Adjunction.Ranking
import TriGraph.Proofs.Number.Operations

/-!
# Scores

The score of a time in an interval is a number for all finite bounds, however far apart, but for the middle of the
shortest of all intervals, whose half is rounded to zero. Where a bound is infinite it is no number unless the
interval is a single point.
-/

namespace TriGraph.Builtin

open Number

/-! ## Intervals -/

/-- The bounds are in order, but one of them is infinite. -/
def Endless (first last : Float) : Prop :=
  less first last = true ∧ ¬(isFinite first = true ∧ isFinite last = true)

/-- The bounds are as near to each other as can be, and the time is their middle. -/
def Pinpoints (first last t : Float) : Prop :=
  magnitude (last - first) = 1 ∧ equal t (middle first last) = true

section
variable {first last t : Float}

theorem within_iff : within first last t = true ↔ isNaN first = false ∧ isNaN t = false ∧ isNaN last = false ∧
    rank first ≤ rank t ∧ rank t ≤ rank last := by
  rw [within, Bool.and_eq_true, atMost_iff, atMost_iff]
  tauto

theorem isFinite_of_within (hfirst : isFinite first = true) (hlast : isFinite last = true)
    (h : within first last t = true) : isFinite t = true := by
  obtain ⟨-, -, -, hle, hge⟩ := within_iff.mp h
  rw [isFinite_iff_rank] at hfirst hlast ⊢
  omega

/-- Finite bounds that are not finitely far apart are on both sides of zero, so that their middle is near it. -/
theorem isFinite_sub_middle (hfirst : isFinite first = true) (hlast : isFinite last = true)
    (h : within first last t = true) (hwide : isFinite (last - first) = false) :
    isFinite (t - middle first last) = true := by
  have ht := isFinite_of_within hfirst hlast h
  obtain ⟨-, -, -, hle, hge⟩ := within_iff.mp h
  rw [← place_le_iff] at hle hge
  have hlow := natAbs_place_le hfirst
  have hhigh := natAbs_place_le hlast
  have hslack := two_le_slack
  have hbeyond : beyond = 2 ^ 54 * slack := rfl
  have hapart : ¬(place last - place first).natAbs + slack < beyond := by
    intro hnear
    rw [isFinite_sub hlast hfirst hnear] at hwide
    cases hwide
  -- bounds so far apart lie on both sides of zero, so that their sum stays clear of `beyond`
  obtain ⟨hsum, hplace⟩ := isFinite_add hfirst hlast (by omega)
  have hround := near_error (a := place first + place last) (by omega)
  rw [← hplace] at hround
  obtain ⟨hmiddle, hhalf⟩ : isFinite (middle first last) = true ∧ place (middle first last) = _ :=
    isFinite_half_place hsum
  have herror := halve_error (place (first + last))
  rw [← hhalf] at herror
  -- the middle is off by less than a last place, and so much is left between the bounds and `beyond`
  exact isFinite_sub ht hmiddle (by omega)

/-! ## Infinite bounds -/

theorem sub_of_endless (h : Endless first last) : last - first = packed (.infinity .positive) :=
  sub_of_less h.1 h.2

theorem finite_or_isNaN_sub (h : within first last t = true) (hend : ¬Endless first last) :
    isFinite first = true ∧ isFinite last = true ∨ isNaN (last - first) = true := by
  by_cases hfin : isFinite first = true ∧ isFinite last = true
  · exact Or.inl hfin
  · obtain ⟨hfirst, -, hlast, hle, hge⟩ := within_iff.mp h
    have hnot : ¬rank first < rank last := fun hlt => hend ⟨less_iff.mpr ⟨hfirst, hlast, hlt⟩, hfin⟩
    have hrank : rank last = rank first := by omega
    have hinf : isFinite last = false := by
      rw [isFinite_iff_rank, ← hrank, ← isFinite_iff_rank] at hfin
      exact Bool.eq_false_iff.mpr fun hlast => hfin ⟨hlast, hlast⟩
    have hsame : last = first := eq_of_rank_eq hrank fun hz => by
      rw [isFinite_of_isZero (decide_eq_true hz)] at hinf
      cases hinf
    right
    rw [← hsame]
    exact isNaN_sub_self hinf

/-! ## Nearness to the middle -/

def nearness (first last t : Float) : Float :=
  1.0 - (t - middle first last).abs / ((last - first) / 2.0)

theorem isNaN_nearness_iff (hwidth : isNaN (last - first) = false) : isNaN (nearness first last t) = true ↔
    isNaN (t - middle first last) = true ∨
      isFinite (t - middle first last) = false ∧ isFinite (last - first) = false ∨
      isZero (t - middle first last) = true ∧ magnitude (last - first) ≤ 1 := by
  rw [nearness, isNaN_sub (by decide +kernel), isNaN_div, isNaN_abs, isFinite_abs, isZero_abs, isNaN_half,
    isFinite_half, isZero_half_iff, hwidth]
  simp

theorem isNaN_middle (hfirst : isFinite first = true) (hlast : isFinite last = true) :
    isNaN (middle first last) = false := by
  rw [middle, isNaN_half, isNaN_add hfirst, isNaN_of_isFinite hlast]

theorem isNaN_nearness_of_finite (hfirst : isFinite first = true) (hlast : isFinite last = true)
    (h : within first last t = true) :
    isNaN (nearness first last t) = true ↔ magnitude (last - first) ≤ 1 ∧ equal t (middle first last) = true := by
  have ht := isFinite_of_within hfirst hlast h
  have hmiddle := isNaN_middle hfirst hlast
  have hwidth : isNaN (last - first) = false := (isNaN_sub hlast).trans (isNaN_of_isFinite hfirst)
  have hnumber : isNaN (t - middle first last) = false := (isNaN_sub ht).trans hmiddle
  have hnot : ¬(isFinite (t - middle first last) = false ∧ isFinite (last - first) = false) := by
    rintro ⟨hfar, hwide⟩
    rw [isFinite_sub_middle hfirst hlast h hwide] at hfar
    cases hfar
  have hzero : isZero (t - middle first last) = true ↔ equal t (middle first last) = true := by
    rw [equal_iff]
    constructor
    · intro hz
      exact ⟨isNaN_of_isFinite ht, hmiddle, (isZero_sub_iff ht (isFinite_of_sub (isFinite_of_isZero hz)).2).mp hz⟩
    · rintro ⟨-, -, hrank⟩
      have hfinite : isFinite (middle first last) = true := by
        rw [isFinite_iff_rank] at ht ⊢
        rwa [← hrank]
      exact (isZero_sub_iff ht hfinite).mpr hrank
  rw [isNaN_nearness_iff hwidth, hnumber, hzero, or_iff_right Bool.false_ne_true, or_iff_right hnot, and_comm]

theorem isNaN_nearness_of_endless (h : Endless first last) : isNaN (nearness first last t) = true := by
  have hwide : isFinite (last - first) = false := by
    rw [sub_of_endless h]
    rfl
  have hwidth : isNaN (last - first) = false := by
    rw [sub_of_endless h]
    rfl
  have hfar : isFinite (t - middle first last) = false := by
    rw [Bool.eq_false_iff]
    intro hfin
    have hmiddle := (isFinite_of_sub hfin).2
    rw [middle, isFinite_half] at hmiddle
    obtain ⟨hfirst, hlast⟩ := isFinite_of_add hmiddle
    exact h.2 ⟨hfirst, hlast⟩
  exact (isNaN_nearness_iff hwidth).mpr (Or.inr (Or.inl ⟨hfar, hwide⟩))

theorem isFinite_nearness (hwide : isFinite (last - first) = false)
    (h : isNaN (nearness first last t) = false) : isFinite (nearness first last t) = true := by
  rw [nearness, isNaN_sub (by decide +kernel)] at h
  obtain ⟨s, hs⟩ := div_of_not_finite (isFinite_half.trans hwide) h
  rw [nearness, hs]
  cases s <;> decide +kernel

/-! ## Scores of times -/

theorem isNaN_clampUnit (x : Float) : isNaN (clampUnit x) = isNaN x := by
  unfold clampUnit
  split
  · next h =>
    rw [(less_iff.mp h).1]
    decide +kernel
  · split
    · next h =>
      rw [(less_iff.mp h).2.1]
      decide +kernel
    · rfl

theorem of_less_zero {x : Float} (h : less 0.0 x = true) : isNaN x = false ∧ isZero x = false := by
  obtain ⟨-, hx, hrank⟩ := less_iff.mp h
  refine ⟨hx, decide_eq_false fun hz => ?_⟩
  have hzero : rank 0.0 = 0 := by decide +kernel
  rw [hzero] at hrank
  unfold rank at hrank
  split at hrank <;> omega

theorem isNaN_centrality (h : within first last t = true) :
    isNaN (clampUnit (centrality first last t)) = true ↔ Endless first last := by
  have hone : isNaN 1.0 = false := by decide +kernel
  rw [isNaN_clampUnit]
  unfold centrality
  dsimp only
  constructor
  · intro hnan
    by_contra hend
    split at hnan
    · next hhalf =>
      obtain ⟨hnumber, hzero⟩ := of_less_zero hhalf
      rw [isNaN_half] at hnumber
      rcases finite_or_isNaN_sub h hend with ⟨hfirst, hlast⟩ | hwidth
      · have hshort := ((isNaN_nearness_of_finite hfirst hlast h).mp hnan).1
        rw [isZero_half_iff.mpr hshort] at hzero
        cases hzero
      · rw [hwidth] at hnumber
        cases hnumber
    · rw [hone] at hnan
      cases hnan
  · intro hend
    have hhalf : less 0.0 ((last - first) / 2.0) = true := by
      rw [sub_of_endless hend]
      decide +kernel
    rw [if_pos hhalf]
    exact isNaN_nearness_of_endless hend

theorem isNaN_contextScore (h : within first last t = true) (hwidth : less 0.0 (last - first) = true) :
    isNaN (nearness first last t / (last - first)) = true ↔ Endless first last ∨ Pinpoints first last t := by
  obtain ⟨hnumber, hzero⟩ := of_less_zero hwidth
  have hquotient : isNaN (nearness first last t / (last - first)) = true ↔ isNaN (nearness first last t) = true := by
    rw [isNaN_div, hnumber, hzero]
    refine ⟨fun hnan => ?_, Or.inl⟩
    rcases hnan with hnan | hnan | ⟨hnear, hwide⟩ | ⟨-, hnan⟩
    · exact hnan
    · cases hnan
    · by_contra hnan
      rw [isFinite_nearness hwide (Bool.eq_false_iff.mpr hnan)] at hnear
      cases hnear
    · cases hnan
  rw [hquotient]
  by_cases hend : Endless first last
  · exact iff_of_true (isNaN_nearness_of_endless hend) (Or.inl hend)
  · rcases finite_or_isNaN_sub h hend with ⟨hfirst, hlast⟩ | hnan
    · have hmag : magnitude (last - first) ≠ 0 := of_decide_eq_false hzero
      have hone : magnitude (last - first) ≤ 1 ↔ magnitude (last - first) = 1 := by omega
      rw [isNaN_nearness_of_finite hfirst hlast h, hone, or_iff_right hend, Pinpoints]
    · rw [hnan] at hnumber
      cases hnumber

end

/-! ## Scores of candidates -/

def Boundless (context : Node) : Prop :=
  ∃ first last, interval? context = some (first, last) ∧ Endless first last

def PinpointedBy (t : Float) (context : Node) : Prop :=
  ∃ first last, interval? context = some (first, last) ∧ Pinpoints first last t

variable {g : Graphs} {n : Node} {c : Node × Float}

theorem isNaN_of_mem_exemplars (hc : c ∈ exemplars g n) :
    isNaN c.2 = true ↔ ContextKind.ofNode n = .temporal ∧ Boundless n := by
  unfold exemplars at hc
  split at hc
  · next hkind =>
    split at hc
    · next first last hbounds =>
      obtain ⟨m, -, hscore⟩ := List.mem_filterMap.mp hc
      obtain ⟨t, -, hscore⟩ := Option.bind_eq_some_iff.mp hscore
      split at hscore
      · next hwithin =>
        cases hscore
        rw [isNaN_centrality hwithin]
        simp [Boundless, hkind, hbounds]
      · cases hscore
    · cases hc
  · next hkind =>
    have hone : isNaN 1.0 = false := by decide +kernel
    split at hc
    · obtain ⟨m, -, rfl⟩ := List.mem_map.mp hc
      simp [hone, hkind]
    · cases hc
  · cases hc

theorem isNaN_of_contextScore? {t : Float} {context : Node} (h : contextScore? t context = some c) :
    c.1 = context ∧ (isNaN c.2 = true ↔ Boundless context ∨ PinpointedBy t context) := by
  obtain ⟨⟨first, last⟩, hbounds, hscore⟩ := Option.bind_eq_some_iff.mp h
  dsimp only at hscore
  split at hscore
  · next hguard =>
    obtain ⟨hwithin, hwidth⟩ := Bool.and_eq_true_iff.mp hguard
    cases hscore
    refine ⟨rfl, (isNaN_contextScore hwithin hwidth).trans ?_⟩
    simp [Boundless, PinpointedBy, hbounds]
  · cases hscore

theorem exemplified_cases (hc : c ∈ exemplified g n) :
    (c.1 ∈ g.contexts.nodesOfType ContextKind.temporalType ∧
      ∃ t, numberOf? timestamp n = some t ∧ contextScore? t c.1 = some c) ∨
    c.1 ∈ g.contexts.nodesOfType ContextKind.spatialType ∧ c.2 = 0.8 := by
  rcases List.mem_append.mp hc with hc | hc
  · split at hc
    · next t htime =>
      obtain ⟨context, hcontext, hscore⟩ := List.mem_filterMap.mp hc
      obtain ⟨rfl, -⟩ := isNaN_of_contextScore? hscore
      exact Or.inl ⟨hcontext, t, htime, hscore⟩
    · cases hc
  · split at hc
    · obtain ⟨context, hcontext, rfl⟩ := List.mem_map.mp hc
      exact Or.inr ⟨List.mem_of_mem_filter hcontext, rfl⟩
    · cases hc

theorem type_of_mem_nodesOfType {s : Store} {type : String} {m : Node} (h : m ∈ s.nodesOfType type) : m.type = type :=
  beq_iff_eq.mp (List.mem_filter.mp h).2

theorem isNaN_of_mem_exemplified (hc : c ∈ exemplified g n) :
    isNaN c.2 = true ↔ c.1 ∈ g.contexts.nodesOfType ContextKind.temporalType ∧
      ∃ t, numberOf? timestamp n = some t ∧ (Boundless c.1 ∨ PinpointedBy t c.1) := by
  rcases exemplified_cases hc with ⟨hcontext, t, htime, hscore⟩ | ⟨hcontext, hscore⟩
  · rw [(isNaN_of_contextScore? hscore).2]
    simp [hcontext, htime]
  · have hnumber : isNaN 0.8 = false := by decide +kernel
    have hne : ContextKind.spatialType ≠ ContextKind.temporalType := by decide
    rw [hscore, hnumber]
    refine iff_of_false nofun fun ⟨htemporal, _⟩ => hne ?_
    rw [← type_of_mem_nodesOfType hcontext, type_of_mem_nodesOfType htemporal]

/-- The order of the candidates is a total preorder, and the first with the highest score is chosen. -/
structure Chosen (cs : List (Node × Float)) (choice : Option String) : Prop where
  ordered : Std.TransCmp fun a b : { c // c ∈ cs } => Ranking.order a.1 b.1
  none_iff : choice = none ↔ cs = []
  some_iff : ∀ id, choice = some id ↔ ∃ c, Ranking.Wins cs c ∧ c.1.id = id

theorem chosen_of_scored {cs : List (Node × Float)} (h : Ranking.Scored cs) :
    Chosen cs ((Ranking.best? cs).map (·.id)) := by
  refine ⟨Ranking.transCmp_order h, Option.map_eq_none_iff.trans Ranking.best?_eq_none_iff, fun id => ?_⟩
  rw [Option.map_eq_some_iff]
  simp only [Ranking.best?_eq_some_iff h]
  constructor
  · rintro ⟨_, ⟨d, hd, rfl⟩, hid⟩
    exact ⟨d, hd, hid⟩
  · rintro ⟨d, hd, hid⟩
    exact ⟨d.1, ⟨d, hd, rfl⟩, hid⟩

/-- Every candidate has a score, but for the endless contexts and those that are as short as can be around the time of
the entity. Where there are none of these a highest one is chosen. -/
theorem highest_chosen_unless_endless (g : Graphs) (n : Node) :
    (∀ c ∈ exemplars g n, isNaN c.2 = true ↔ ContextKind.ofNode n = .temporal ∧ Boundless n) ∧
    (∀ c ∈ exemplified g n, isNaN c.2 = true ↔ c.1 ∈ g.contexts.nodesOfType ContextKind.temporalType ∧
      ∃ t, numberOf? timestamp n = some t ∧ (Boundless c.1 ∨ PinpointedBy t c.1)) ∧
    ((ContextKind.ofNode n = .temporal → ¬Boundless n) → Chosen (exemplars g n) (exemplarOfContext g n)) ∧
    ((∀ c ∈ g.contexts.nodesOfType ContextKind.temporalType, ∀ t, numberOf? timestamp n = some t →
      ¬Boundless c ∧ ¬PinpointedBy t c) → Chosen (exemplified g n) (exemplifiedByEntity g n)) := by
  refine ⟨fun c => isNaN_of_mem_exemplars, fun c => isNaN_of_mem_exemplified, fun h => ?_, fun h => ?_⟩
  · refine chosen_of_scored fun c hc => ?_
    rw [Bool.eq_false_iff, ne_eq, isNaN_of_mem_exemplars hc]
    exact fun ⟨hkind, hend⟩ => h hkind hend
  · refine chosen_of_scored fun c hc => ?_
    rw [Bool.eq_false_iff, ne_eq, isNaN_of_mem_exemplified hc]
    rintro ⟨htemporal, t, htime, hend | hpin⟩
    · exact (h c.1 htemporal t htime).1 hend
    · exact (h c.1 htemporal t htime).2 hpin

def age : Node := Contexts.temporal "age" (.float (-1.7e308)) (.float 1.7e308) []

def day : Node := Contexts.temporal "day" (.int (-1)) (.int 1) []

def always : Node :=
  Contexts.temporal "always" (.float (packed (.infinity .negative))) (.float (packed (.infinity .positive))) []

def harbour : Node := Contexts.spatial "harbour" "Harbour" []

def noon : Node := Instances.entity "noon" "Event" [("timestamp", .int 0), ("location", .text "Harbour")]

def logbook (contexts : List Node) : Trinity :=
  ((Trinity.new "Log").mapStore .contexts (·.run (contexts.map .addNode))).mapStore .instances (·.run [.addNode noon])

theorem bounded_of_interval {context : Node} {first last t : Float} (h : interval? context = some (first, last))
    (hfirst : isFinite first = true) (hlast : isFinite last = true) (hwide : magnitude (last - first) ≠ 1) :
    ¬Boundless context ∧ ¬PinpointedBy t context := by
  constructor
  · rintro ⟨first', last', hbounds, -, hend⟩
    cases h.symm.trans hbounds
    exact hend ⟨hfirst, hlast⟩
  · rintro ⟨first', last', hbounds, hone, -⟩
    cases h.symm.trans hbounds
    exact hwide hone

theorem highest_chosen_unless_endless_harbour :
    ¬Boundless age ∧ Chosen (exemplars (logbook [age, day, harbour]).graphs age) (some "noon") ∧
    (∀ c ∈ (logbook [age, day, harbour]).graphs.contexts.nodesOfType ContextKind.temporalType, ∀ t,
      numberOf? timestamp noon = some t → ¬Boundless c ∧ ¬PinpointedBy t c) ∧
    Chosen (exemplified (logbook [age, day, harbour]).graphs noon) (some "harbour") := by
  have hage : ∀ t, ¬Boundless age ∧ ¬PinpointedBy t age := fun t =>
    bounded_of_interval rfl (by decide +kernel) (by decide +kernel) (by decide +kernel)
  have hday : ∀ t, ¬Boundless day ∧ ¬PinpointedBy t day := fun t =>
    bounded_of_interval rfl (by decide +kernel) (by decide +kernel) (by decide +kernel)
  have hcontexts : (logbook [age, day, harbour]).graphs.contexts.nodesOfType ContextKind.temporalType = [age, day] :=
    rfl
  have hbounded : ∀ c ∈ (logbook [age, day, harbour]).graphs.contexts.nodesOfType ContextKind.temporalType, ∀ t,
      numberOf? timestamp noon = some t → ¬Boundless c ∧ ¬PinpointedBy t c := by
    rw [hcontexts]
    exact List.forall_mem_cons.mpr ⟨fun t _ => hage t, List.forall_mem_cons.mpr ⟨fun t _ => hday t, nofun⟩⟩
  have hnoon : exemplarOfContext (logbook [age, day, harbour]).graphs age = some "noon" := by decide +kernel
  have hharbour : exemplifiedByEntity (logbook [age, day, harbour]).graphs noon = some "harbour" := by decide +kernel
  exact ⟨(hage 0).1, hnoon ▸ (highest_chosen_unless_endless _ age).2.2.1 fun _ => (hage 0).1, hbounded,
    hharbour ▸ (highest_chosen_unless_endless _ noon).2.2.2 hbounded⟩

/-- Beside a context without bounds the day is chosen, though the harbour has a higher score. -/
theorem endless_hides_highest :
    (∃ c ∈ exemplified (logbook [day, always, harbour]).graphs noon, isNaN c.2 = true) ∧
    exemplifiedByEntity (logbook [day, always, harbour]).graphs noon = some day.id ∧
    (∃ c ∈ exemplified (logbook [day, always, harbour]).graphs noon, c.1.id = day.id ∧
      ∃ d ∈ exemplified (logbook [day, always, harbour]).graphs noon, d.1.id = harbour.id ∧ less c.2 d.2 = true) ∧
    ∃ c ∈ exemplars (logbook [always]).graphs always, isNaN c.2 = true := by
  decide +kernel

end TriGraph.Builtin
