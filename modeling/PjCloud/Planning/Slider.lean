import Mathlib.Algebra.Order.Ring.Int
import PjCloud.Lib.Lists
import PjCloud.Planning.Overlap

/-!
# The window of the slider

`slider_window.h` of the plugin, over the bounds that `buildStitchedSelection` of `stitch_select.h` gives it. Signed
64-bit arithmetic has no value where it overflows.
-/

namespace PjCloud.Planning
open Lib

/-! ## The bounds of a selection -/

structure UnionBounds where
  haveMin : Bool := false
  unionMinTsNs : Int := 0
  unionMaxTsNs : Int := 0

def UnionBounds.add (out : UnionBounds) (s : SelInput) : UnionBounds :=
  let low := s.minTsNs > 0 ∧ (!out.haveMin ∨ s.minTsNs < out.unionMinTsNs)
  { haveMin := out.haveMin || decide low
    unionMinTsNs := if low then s.minTsNs else out.unionMinTsNs
    unionMaxTsNs := max out.unionMaxTsNs s.maxTsNs }

/-- The loop of `buildStitchedSelection` over the ordered selection. -/
def unionBounds (R : Runtime) (selected : List SelInput) : UnionBounds :=
  (R.slice (fun s => toLex (s.minTsNs, s.name)) selected).foldl UnionBounds.add {}

lemma UnionBounds.min_nonneg (selected : List SelInput) : ∀ {out : UnionBounds}, 0 ≤ out.unionMinTsNs →
    0 ≤ (selected.foldl UnionBounds.add out).unionMinTsNs := by
  induction selected with
  | nil => exact id
  | cons s selected ih =>
    intro out nonneg
    apply ih
    simp only [UnionBounds.add]
    split <;> omega

/-! ## The slider -/

def int64 (v : Int) : Option Int := if -2 ^ 63 ≤ v ∧ v < 2 ^ 63 then some v else none

lemma int64_of {v : Int} (nonneg : 0 ≤ v) (fits : v < 2 ^ 63) : int64 v = some v := if_pos ⟨by omega, fits⟩

structure SliderWindow where
  startNs : Int := 0
  endNs : Int := 0
  hasWindow : Bool := false
  deriving DecidableEq, Repr

/-- The window is half-open. -/
def SliderWindow.Covers (w : SliderWindow) (t : Int) : Prop := w.startNs ≤ t ∧ t < w.endNs

def offset (span sliderSteps pos : Int) : Option Int := do
  let q ← int64 (span.tdiv sliderSteps)
  let r ← int64 (span.tmod sliderSteps)
  let whole ← int64 (q * pos)
  let scaled ← int64 (r * pos)
  let part ← int64 (scaled.tdiv sliderSteps)
  int64 (whole + part)

def sliderToWindow (unionMinNs unionMaxNs lower upper sliderSteps : Int) : Option SliderWindow :=
  if unionMaxNs ≤ unionMinNs ∨ sliderSteps ≤ 0 then some {}
  else do
    let span ← int64 (unionMaxNs - unionMinNs)
    let startNs ← int64 (unionMinNs + (← offset span sliderSteps lower))
    let endNs ← if upper ≥ sliderSteps then int64 (unionMaxNs + 1)
      else int64 (unionMinNs + (← offset span sliderSteps upper))
    some { startNs, endNs, hasWindow := true }

/-- The exact instant of a handle. -/
def instant (unionMinNs unionMaxNs sliderSteps pos : Int) : Int :=
  unionMinNs + (unionMaxNs - unionMinNs) * pos / sliderSteps

/-- Where a window ends. -/
def stop (unionMinNs unionMaxNs sliderSteps pos : Int) : Int :=
  if pos = sliderSteps then unionMaxNs + 1 else instant unionMinNs unionMaxNs sliderSteps pos

/-- Quotient and remainder are scaled apart: no product passes the span or the square of the steps. -/
lemma offset_eq {span steps pos : Int} (nonneg : 0 ≤ span) (fits : span < 2 ^ 63) (positive : 1 ≤ steps)
    (int : steps ≤ 2 ^ 31 - 1) (low : 0 ≤ pos) (high : pos ≤ steps) :
    offset span steps pos = some (span * pos / steps) := by
  have split : span.tdiv steps * steps + span.tmod steps = span := Int.tdiv_mul_add_tmod span steps
  have qNonneg : 0 ≤ span.tdiv steps := Int.tdiv_nonneg nonneg (by omega)
  have qBelow : span.tdiv steps ≤ span := Int.tdiv_le_self _ nonneg
  have rNonneg : 0 ≤ span.tmod steps := Int.tmod_nonneg _ nonneg
  have rBelow : span.tmod steps < steps := Int.tmod_lt_of_pos _ (by omega)
  simp only [offset]
  generalize span.tdiv steps = q at *
  generalize span.tmod steps = r at *
  have whole : q * pos ≤ q * steps := Int.mul_le_mul_of_nonneg_left high qNonneg
  have wholeNonneg : 0 ≤ q * pos := Int.mul_nonneg qNonneg low
  have scaledNonneg : 0 ≤ r * pos := Int.mul_nonneg rNonneg low
  have scaled : r * pos ≤ (2 ^ 31 - 1) * (2 ^ 31 - 1) := Int.mul_le_mul (by omega) (by omega) low (by omega)
  have part : r * pos / steps ≤ r := by
    apply Int.ediv_le_of_le_mul (by omega)
    exact Int.mul_le_mul_of_nonneg_left high rNonneg
  have partNonneg : 0 ≤ r * pos / steps := Int.ediv_nonneg scaledNonneg (by omega)
  have exact : span * pos / steps = q * pos + r * pos / steps := by
    rw [← split, Int.add_mul, Int.mul_right_comm, Int.add_comm, Int.add_mul_ediv_right _ _ (by omega), Int.add_comm]
  rw [exact, int64_of qNonneg (by omega), int64_of rNonneg (by omega)]
  simp only [Option.bind_eq_bind, Option.bind_some]
  rw [int64_of wholeNonneg (by omega), int64_of scaledNonneg (by omega)]
  simp only [Option.bind_some]
  rw [Int.tdiv_eq_ediv_of_nonneg scaledNonneg, int64_of partNonneg (by omega), Option.bind_some,
    int64_of (by omega) (by omega)]

lemma exists_turn {p : Nat → Prop} : ∀ {n : Nat}, ¬ p 0 → p n → ∃ i < n, ¬ p i ∧ p (i + 1)
  | 0, starts, ends => absurd ends starts
  | n + 1, starts, ends => by
    by_cases before : p n
    · obtain ⟨i, below, turn⟩ := exists_turn starts before
      exact ⟨i, by omega, turn⟩
    · exact ⟨n, by omega, before, ends⟩

section Windows
variable {low high steps : Int} (nonneg : 0 ≤ low) (proper : low < high) (fits : high < 2 ^ 63 - 1)
  (positive : 1 ≤ steps) (int : steps ≤ 2 ^ 31 - 1)
include positive

include proper in
lemma instant_mono {a b : Int} (le : a ≤ b) : instant low high steps a ≤ instant low high steps b := by
  apply Int.add_le_add_left
  apply Int.ediv_le_ediv (by omega)
  exact Int.mul_le_mul_of_nonneg_left le (by omega)

omit positive in
lemma instant_zero : instant low high steps 0 = low := by simp [instant]

lemma instant_last : instant low high steps steps = high := by
  rw [instant, Int.mul_ediv_cancel _ (by omega)]
  omega

lemma instant_le_stop {a : Int} : instant low high steps a ≤ stop low high steps a := by
  unfold stop
  split
  · next last =>
    rw [last, instant_last positive]
    omega
  · exact le_rfl

include proper in
lemma stop_mono {a b : Int} (le : a ≤ b) (inside : b ≤ steps) : stop low high steps a ≤ stop low high steps b := by
  unfold stop
  split_ifs with first second second
  · exact le_rfl
  · omega
  · have below := instant_mono proper positive inside
    have onward := instant_mono proper positive le
    rw [instant_last positive] at below
    omega
  · exact instant_mono proper positive le

include nonneg proper fits int

lemma sliderToWindow_eq {a b : Int} (start : 0 ≤ a) (le : a ≤ b) (inside : b ≤ steps) :
    sliderToWindow low high a b steps =
      some { startNs := instant low high steps a, endNs := stop low high steps b, hasWindow := true } := by
  have bounds {c : Int} (first : 0 ≤ c) (last : c ≤ steps) :
      int64 (instant low high steps c) = some (instant low high steps c) := by
    have above := instant_mono proper positive first
    have below := instant_mono proper positive last
    rw [instant_zero] at above
    rw [instant_last positive] at below
    exact int64_of (by omega) (by omega)
  have span := @int64_of (high - low) (by omega) (by omega)
  have exact {c : Int} (first : 0 ≤ c) (last : c ≤ steps) :=
    @offset_eq (high - low) steps c (by omega) (by omega) positive int first last
  simp only [sliderToWindow, if_neg (show ¬ (high ≤ low ∨ steps ≤ 0) by omega), span, Option.bind_eq_bind,
    Option.bind_some, exact start (by omega)]
  rw [← instant, bounds start (by omega), Option.bind_some]
  by_cases last : b = steps
  · rw [if_pos (by omega), int64_of (by omega) (by omega), stop, if_pos last]
    rfl
  · rw [if_neg (by omega), exact (by omega) inside, Option.bind_some, ← instant, bounds (by omega) inside, stop,
      if_neg last]
    rfl

end Windows

/-- Handles give exact windows without overflow that grow with them. Windows of handles in a row are disjoint unless the
second one lies wholly at the last step, and windows from the first step to the last cover the union. -/
theorem slider_windows_tile (R : Runtime) {low high steps : Int} (nonneg : 0 ≤ low) (proper : low < high)
    (fits : high < 2 ^ 63 - 1) (positive : 1 ≤ steps) (int : steps ≤ 2 ^ 31 - 1) :
    (∀ selected, 0 ≤ (unionBounds R selected).unionMinTsNs) ∧
    (∀ a b, 0 ≤ a → a ≤ b → b ≤ steps → ∃ w, sliderToWindow low high a b steps = some w ∧ w.hasWindow = true ∧
      w.startNs = low + (high - low) * a / steps ∧
      w.endNs = (if b = steps then high + 1 else low + (high - low) * b / steps) ∧
      w.startNs ≤ w.endNs ∧ low ≤ w.startNs ∧ w.endNs ≤ high + 1) ∧
    (∀ a b c d w w', 0 ≤ a → a ≤ b → b ≤ steps → 0 ≤ c → c ≤ d → d ≤ steps →
      sliderToWindow low high a b steps = some w → sliderToWindow low high c d steps = some w' →
      (a ≤ c → w.startNs ≤ w'.startNs) ∧ (b ≤ d → w.endNs ≤ w'.endNs) ∧
      (b ≤ c → c < steps → ∀ t, w.Covers t → ¬ w'.Covers t)) ∧
    (∀ (handle : Nat → Int) (n : Nat), handle 0 = 0 → Monotone handle → handle n = steps →
      ∀ t, low ≤ t → t ≤ high → ∃ i < n, ∃ w,
        sliderToWindow low high (handle i) (handle (i + 1)) steps = some w ∧ w.Covers t) := by
  have eq {a b : Int} := @sliderToWindow_eq low high steps nonneg proper fits positive int a b
  refine ⟨fun selected => UnionBounds.min_nonneg _ le_rfl, ?_, ?_, ?_⟩
  · intro a b start le inside
    refine ⟨_, eq start le inside, rfl, rfl, rfl, ?_, ?_, ?_⟩
    · exact (instant_mono proper positive le).trans (instant_le_stop positive)
    · simpa [instant_zero] using instant_mono proper positive start
    · simpa [stop] using stop_mono proper positive inside le_rfl
  · intro a b c d w w' start le inside start' le' inside' first second
    rw [eq start le inside, Option.some_inj] at first
    rw [eq start' le' inside', Option.some_inj] at second
    subst first second
    refine ⟨fun h => instant_mono proper positive h, fun h => stop_mono proper positive h inside', ?_⟩
    rintro follows before t ⟨-, below⟩ ⟨above, -⟩
    simp only [stop, if_neg (show b ≠ steps by omega)] at below
    have onward := instant_mono proper positive follows
    simp only at above
    omega
  · intro handle n zero mono last t above below
    have outside : ¬ t < stop low high steps (handle 0) := by
      rw [zero, stop, if_neg (by omega), instant_zero]
      omega
    have inside : t < stop low high steps (handle n) := by
      rw [last, stop, if_pos rfl]
      omega
    obtain ⟨i, before, starts, ends⟩ := exists_turn (p := fun i => t < stop low high steps (handle i)) outside inside
    have low' : 0 ≤ handle i := zero ▸ mono (Nat.zero_le i)
    have high' : handle (i + 1) ≤ steps := last ▸ mono (show i + 1 ≤ n by omega)
    refine ⟨i, before, _, eq low' (mono (Nat.le_succ i)) high', ?_, ends⟩
    exact (instant_le_stop positive).trans (not_lt.mp starts)

theorem short_slider_tiles : ∃ w, sliderToWindow 0 10 1 2 2 = some w ∧ w.startNs = 5 ∧ w.endNs = 11 := by
  obtain ⟨w, eq, -, start, stop, -⟩ := (@slider_windows_tile .ordered 0 10 2
    (by decide) (by decide) (by decide) (by decide) (by decide)).2.1 1 2 (by decide) (by decide) (by decide)
  exact ⟨w, eq, start, stop⟩

/-- Both handles at the last step still open a window, on the last instant. -/
theorem last_step_repeats_last_instant : ∃ w w', sliderToWindow 0 10 0 2 2 = some w ∧
    sliderToWindow 0 10 2 2 2 = some w' ∧ w.Covers 10 ∧ w'.Covers 10 :=
  ⟨_, _, rfl, rfl, by unfold SliderWindow.Covers; decide, by unfold SliderWindow.Covers; decide⟩

end PjCloud.Planning
