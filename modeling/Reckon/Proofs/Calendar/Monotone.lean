import Reckon.Proofs.Binary64.Product
import Reckon.Proofs.Calendar.Chains
import Reckon.Proofs.Calendar.Order

/-!
Shifts keep the order of quantities. A greater quantity comes to at least as great a whole number, whether
its fraction is cut off or its product with the unit is rounded, and a greater number leads to a later
date. So the dates that a date is moved to stand in the order of the quantities, and the quantities by
which it can be moved have no gap.
-/

namespace Reckon.Calendar

open Rational

variable {t u v : DateTime} {shift : Shift} {quantity p q : Float} {c r s : Rat} {m n : Int}

private theorem roundHalfAway_of_nonneg (h : 0 ≤ r) : roundHalfAway r = ⌊r + 1 / 2⌋ := by
  have hden : (r.den : Rat) ≠ 0 := by exact_mod_cast r.den_pos.ne'
  have hnum : (r.num.natAbs : Rat) = r.num := by
    rw [← Int.cast_natCast, Int.natAbs_of_nonneg (Rat.num_nonneg.mpr h)]
  have hsum : r + 1 / 2 = ((2 * r.num.natAbs + r.den : Nat) : Rat) / (2 * r.den : Nat) := by
    push_cast
    rw [hnum]
    nth_rewrite 1 [← Rat.num_div_den r]
    field_simp
  rw [hsum, Rat.floor_natCast_div_natCast, ← Int.natCast_ediv]
  unfold roundHalfAway
  rcases (Rat.num_nonneg.mpr h).eq_or_lt with hzero | hpos
  · have hhalf : (2 * (0 : Int).natAbs + r.den) / (2 * r.den) = 0 := by
      have hden := r.den_pos
      exact Nat.div_eq_of_lt (by omega)
    rw [← hzero, hhalf]
    rfl
  · rw [Int.sign_eq_one_of_pos hpos, one_mul]

theorem roundHalfAway_mono (h : r ≤ s) : roundHalfAway r ≤ roundHalfAway s := by
  have hnonneg {x : Rat} (hx : 0 ≤ x) : 0 ≤ roundHalfAway x := by
    rw [roundHalfAway_of_nonneg hx]
    exact Int.floor_nonneg.mpr (by linarith)
  have hmono {x y : Rat} (hx : 0 ≤ x) (hxy : x ≤ y) : roundHalfAway x ≤ roundHalfAway y := by
    rw [roundHalfAway_of_nonneg hx, roundHalfAway_of_nonneg (hx.trans hxy)]
    exact Int.floor_le_floor (by linarith)
  rcases le_total 0 r with hr | hr
  · exact hmono hr h
  · have hback := roundHalfAway_neg r
    rcases le_total 0 s with hs | hs
    · have hbelow := hnonneg (neg_nonneg.mpr hr)
      have habove := hnonneg hs
      omega
    · have hopposite := hmono (neg_nonneg.mpr hs) (neg_le_neg h)
      rw [roundHalfAway_neg, roundHalfAway_neg] at hopposite
      omega

private theorem clockMillis?_between {unitMillis q₁ q₂ q₃ : Float} {a₁ a₂ a₃ : Rat} {n₁ n₃ : Int}
    (hunit : Binary64.toRat? unitMillis = some c) (hpos : 0 < c)
    (h₁ : Binary64.toRat? q₁ = some a₁) (h₂ : Binary64.toRat? q₂ = some a₂)
    (h₃ : Binary64.toRat? q₃ = some a₃) (h₁₂ : a₁ ≤ a₂) (h₂₃ : a₂ ≤ a₃)
    (hn₁ : clockMillis? q₁ unitMillis = some n₁) (hn₃ : clockMillis? q₃ unitMillis = some n₃) :
    ∃ n₂, clockMillis? q₂ unitMillis = some n₂ ∧ n₁ ≤ n₂ ∧ n₂ ≤ n₃ := by
  obtain ⟨v₁, hv₁, rfl⟩ := Option.map_eq_some_iff.mp hn₁
  obtain ⟨v₃, hv₃, rfl⟩ := Option.map_eq_some_iff.mp hn₃
  obtain ⟨v₂, hv₂, hlow, hhigh⟩ :=
    Binary64.toRat?_mul_between hunit hpos h₁ h₂ h₃ h₁₂ h₂₃ hv₁ hv₃
  refine ⟨roundHalfAway v₂, ?_, roundHalfAway_mono hlow, roundHalfAway_mono hhigh⟩
  rw [clockMillis?, hv₂]
  rfl

/-- A quantity between two others comes to a whole number between theirs. -/
theorem Shift.count?_between {q₁ q₂ q₃ : Float} {a₁ a₂ a₃ : Rat} {n₁ n₃ : Int}
    (h₁ : Binary64.toRat? q₁ = some a₁) (h₂ : Binary64.toRat? q₂ = some a₂)
    (h₃ : Binary64.toRat? q₃ = some a₃) (h₁₂ : a₁ ≤ a₂) (h₂₃ : a₂ ≤ a₃)
    (hn₁ : shift.count? q₁ = some n₁) (hn₃ : shift.count? q₃ = some n₃) :
    ∃ n₂, shift.count? q₂ = some n₂ ∧ n₁ ≤ n₂ ∧ n₂ ≤ n₃ := by
  have hlow := truncate_mono h₁₂
  have hhigh := truncate_mono h₂₃
  unfold count? at *
  rw [h₁] at hn₁
  rw [h₂]
  rw [h₃] at hn₃
  cases shift with
  | years =>
    cases hn₁
    cases hn₃
    exact ⟨_, rfl, by omega, by omega⟩
  | months | days | plus | minus =>
    cases hn₁
    cases hn₃
    exact ⟨_, rfl, hlow, hhigh⟩
  | hours =>
    have hunit : Binary64.toRat? 3600000.0 = some 3600000 := by decide +kernel
    exact clockMillis?_between hunit (by norm_num) h₁ h₂ h₃ h₁₂ h₂₃ hn₁ hn₃
  | minutes =>
    have hunit : Binary64.toRat? 60000.0 = some 60000 := by decide +kernel
    exact clockMillis?_between hunit (by norm_num) h₁ h₂ h₃ h₁₂ h₂₃ hn₁ hn₃
  | seconds =>
    have hunit : Binary64.toRat? 1000.0 = some 1000 := by decide +kernel
    exact clockMillis?_between hunit (by norm_num) h₁ h₂ h₃ h₁₂ h₂₃ hn₁ hn₃

/-- Where a displacement leads, in the calendar or not. -/
def Displacement.Leads (d : Displacement) (t u : DateTime) : Prop :=
  match d with
  | months count => DateTime.MonthsLater count t u
  | span duration => DateTime.SpanLater duration t u

theorem Displacement.Leads.unique {d : Displacement} (hu : d.Leads t u) (hv : d.Leads t v) : u = v := by
  cases d with
  | months count => exact DateTime.MonthsLater.unique hu hv
  | span duration => exact DateTime.SpanLater.unique hu hv

theorem Displacement.exists_leads (ht : t.Shown) (d : Displacement) :
    ∃ u, d.Leads t u ∧ d.move? t = u.inCalendar? := by
  cases d with
  | months count => exact DateTime.exists_monthsLater ht count
  | span duration => exact DateTime.exists_spanLater ht duration

/-- A shift succeeds where its count leads to a date of the calendar, and gives that date. -/
theorem Shift.apply_eq_ok_iff_count (ht : t.Shown) :
    shift.apply t quantity = .ok u ↔
      ∃ count, shift.count? quantity = some count ∧ (shift.displace count).Leads t u ∧
        YearInRange u.date.year := by
  have hmove (d : Displacement) : d.move? t = some u ↔ d.Leads t u ∧ YearInRange u.date.year := by
    obtain ⟨w, hw, hmoved⟩ := d.exists_leads ht
    rw [hmoved, DateTime.inCalendar?_eq_some_iff]
    constructor
    · rintro ⟨hrange, rfl⟩
      exact ⟨hw, hrange⟩
    · rintro ⟨hu, hrange⟩
      obtain rfl := hw.unique hu
      exact ⟨hrange, rfl⟩
  rw [apply_eq_ok_iff ht.bounded, meant?_eq_map_count]
  constructor
  · rintro ⟨d, hmeant, hmoved⟩
    obtain ⟨count, hcount, rfl⟩ := Option.map_eq_some_iff.mp hmeant
    exact ⟨count, hcount, (hmove _).mp hmoved⟩
  · rintro ⟨count, hcount, hleads⟩
    exact ⟨_, Option.map_eq_some_iff.mpr ⟨count, hcount, rfl⟩, (hmove _).mpr hleads⟩

/-- One date is before another in the direction in which a shift moves. -/
def Shift.Before (shift : Shift) (u v : DateTime) : Prop :=
  match shift with
  | minus => v.Earlier u
  | years | months | days | hours | minutes | seconds | plus => u.Earlier v

/-- A greater count leads further. -/
theorem Shift.before_of_count_lt (hu : (shift.displace m).Leads t u)
    (hv : (shift.displace n).Leads t v) (h : m < n) : shift.Before u v := by
  have hdays : m * 86400000 < n * 86400000 := by omega
  have hback : -n * 86400000 < -m * 86400000 := by omega
  cases shift with
  | years | months => exact DateTime.MonthsLater.earlier hu hv h
  | days | plus => exact DateTime.SpanLater.earlier hu hv hdays
  | minus => exact DateTime.SpanLater.earlier hv hu hback
  | hours | minutes | seconds => exact DateTime.SpanLater.earlier hu hv h

/-- The dates `u` and `v`, to which a date is moved by the quantities `p` and `q`, stand in the direction
of the shift: they are one date where the quantities come to one number, and else the first is before
the second. -/
structure Shift.InOrder (shift : Shift) (p q : Float) (u v : DateTime) : Prop where
  same : shift.count? p = shift.count? q → u = v
  apart : shift.count? p ≠ shift.count? q → shift.Before u v

theorem Shift.inOrder_of_count_le (hm : shift.count? p = some m) (hn : shift.count? q = some n)
    (hu : (shift.displace m).Leads t u) (hv : (shift.displace n).Leads t v) (h : m ≤ n) :
    shift.InOrder p q u v := by
  refine ⟨?_, ?_⟩
  · intro hsame
    rw [hm, hn, Option.some_inj] at hsame
    subst hsame
    exact hu.unique hv
  · intro hapart
    rw [hm, hn, ne_eq, Option.some_inj] at hapart
    exact before_of_count_lt hu hv (lt_of_le_of_ne h hapart)

/-- The calendar has no gap between two of its dates. -/
theorem Shift.InOrder.yearInRange {q₁ q₂ q₃ : Float} {u₁ u₂ u₃ : DateTime}
    (h₁₂ : shift.InOrder q₁ q₂ u₁ u₂) (h₂₃ : shift.InOrder q₂ q₃ u₂ u₃)
    (h₁ : YearInRange u₁.date.year) (h₃ : YearInRange u₃.date.year) : YearInRange u₂.date.year := by
  by_cases hsame₁₂ : shift.count? q₁ = shift.count? q₂
  · rw [← h₁₂.same hsame₁₂]
    exact h₁
  by_cases hsame₂₃ : shift.count? q₂ = shift.count? q₃
  · rw [h₂₃.same hsame₂₃]
    exact h₃
  have hbefore₁₂ := h₁₂.apart hsame₁₂
  have hbefore₂₃ := h₂₃.apart hsame₂₃
  unfold YearInRange at *
  cases shift with
  | minus =>
    have hlow := DateTime.Earlier.year_le hbefore₂₃
    have hhigh := DateTime.Earlier.year_le hbefore₁₂
    omega
  | years | months | days | hours | minutes | seconds | plus =>
    have hlow := DateTime.Earlier.year_le hbefore₁₂
    have hhigh := DateTime.Earlier.year_le hbefore₂₃
    omega

/-- The quantities by which a date can be moved have no gap, and they move it in their order. Between two
of them a third one succeeds as well, and of the three dates each is before the next in the direction of
the shift, or the same where the quantities come to the same number of months, days or milliseconds. -/
theorem shifts_monotone (ht : t.Valid) (shift : Shift) {q₁ q₂ q₃ : Float} {a₁ a₂ a₃ : Rat}
    (h₁ : Binary64.toRat? q₁ = some a₁) (h₂ : Binary64.toRat? q₂ = some a₂)
    (h₃ : Binary64.toRat? q₃ = some a₃) (h₁₂ : a₁ ≤ a₂) (h₂₃ : a₂ ≤ a₃) {u₁ u₃ : DateTime}
    (hu₁ : shift.apply t q₁ = .ok u₁) (hu₃ : shift.apply t q₃ = .ok u₃) :
    ∃ u₂, shift.apply t q₂ = .ok u₂ ∧ shift.InOrder q₁ q₂ u₁ u₂ ∧ shift.InOrder q₂ q₃ u₂ u₃ ∧
      shift.InOrder q₁ q₃ u₁ u₃ := by
  obtain ⟨n₁, hn₁, hleads₁, hrange₁⟩ := (Shift.apply_eq_ok_iff_count ht.shown).mp hu₁
  obtain ⟨n₃, hn₃, hleads₃, hrange₃⟩ := (Shift.apply_eq_ok_iff_count ht.shown).mp hu₃
  obtain ⟨n₂, hn₂, hlow, hhigh⟩ := Shift.count?_between h₁ h₂ h₃ h₁₂ h₂₃ hn₁ hn₃
  obtain ⟨u₂, hleads₂, -⟩ := Displacement.exists_leads ht.shown (shift.displace n₂)
  have horder₁₂ := Shift.inOrder_of_count_le hn₁ hn₂ hleads₁ hleads₂ hlow
  have horder₂₃ := Shift.inOrder_of_count_le hn₂ hn₃ hleads₂ hleads₃ hhigh
  have hrange₂ := horder₁₂.yearInRange horder₂₃ hrange₁ hrange₃
  exact ⟨u₂, (Shift.apply_eq_ok_iff_count ht.shown).mpr ⟨n₂, hn₂, hleads₂, hrange₂⟩, horder₁₂,
    horder₂₃, Shift.inOrder_of_count_le hn₁ hn₃ hleads₁ hleads₃ (hlow.trans hhigh)⟩

/-- From within a leap second: back to the second it follows, on inside it and out of it forwards; and by
days withdrawn, out of it forwards, nowhere and out of it backwards. -/
theorem shifts_monotone_leap_second :
    (DateTime.mk ⟨2016, 12, 31⟩ ⟨23, 59, 59, 1500000000⟩).Valid ∧
      Shift.seconds.apply (DateTime.mk ⟨2016, 12, 31⟩ ⟨23, 59, 59, 1500000000⟩) (-0.75) =
        .ok ⟨⟨2016, 12, 31⟩, ⟨23, 59, 59, 750000000⟩⟩ ∧
      Shift.seconds.apply (DateTime.mk ⟨2016, 12, 31⟩ ⟨23, 59, 59, 1500000000⟩) 1.0 =
        .ok ⟨⟨2017, 1, 1⟩, ⟨0, 0, 0, 500000000⟩⟩ ∧
      (∃ u, Shift.seconds.apply (DateTime.mk ⟨2016, 12, 31⟩ ⟨23, 59, 59, 1500000000⟩) 0.25 = .ok u ∧
        DateTime.Earlier ⟨⟨2016, 12, 31⟩, ⟨23, 59, 59, 750000000⟩⟩ u ∧
        u.Earlier ⟨⟨2017, 1, 1⟩, ⟨0, 0, 0, 500000000⟩⟩) ∧
      Shift.minus.apply (DateTime.mk ⟨2016, 12, 31⟩ ⟨23, 59, 59, 1500000000⟩) (-1.0) =
        .ok ⟨⟨2017, 1, 1⟩, ⟨23, 59, 59, 500000000⟩⟩ ∧
      Shift.minus.apply (DateTime.mk ⟨2016, 12, 31⟩ ⟨23, 59, 59, 1500000000⟩) 1.0 =
        .ok ⟨⟨2016, 12, 31⟩, ⟨0, 0, 0, 500000000⟩⟩ ∧
      ∃ u, Shift.minus.apply (DateTime.mk ⟨2016, 12, 31⟩ ⟨23, 59, 59, 1500000000⟩) 0.5 = .ok u ∧
        u.Earlier ⟨⟨2017, 1, 1⟩, ⟨23, 59, 59, 500000000⟩⟩ ∧
        DateTime.Earlier ⟨⟨2016, 12, 31⟩, ⟨0, 0, 0, 500000000⟩⟩ u := by
  have ht : (DateTime.mk ⟨2016, 12, 31⟩ ⟨23, 59, 59, 1500000000⟩).Valid := by decide
  have hback : Shift.seconds.apply (DateTime.mk ⟨2016, 12, 31⟩ ⟨23, 59, 59, 1500000000⟩) (-0.75) =
      .ok ⟨⟨2016, 12, 31⟩, ⟨23, 59, 59, 750000000⟩⟩ := by decide +kernel
  have hon : Shift.seconds.apply (DateTime.mk ⟨2016, 12, 31⟩ ⟨23, 59, 59, 1500000000⟩) 1.0 =
      .ok ⟨⟨2017, 1, 1⟩, ⟨0, 0, 0, 500000000⟩⟩ := by decide +kernel
  have hadded : Shift.minus.apply (DateTime.mk ⟨2016, 12, 31⟩ ⟨23, 59, 59, 1500000000⟩) (-1.0) =
      .ok ⟨⟨2017, 1, 1⟩, ⟨23, 59, 59, 500000000⟩⟩ := by decide +kernel
  have hwithdrawn : Shift.minus.apply (DateTime.mk ⟨2016, 12, 31⟩ ⟨23, 59, 59, 1500000000⟩) 1.0 =
      .ok ⟨⟨2016, 12, 31⟩, ⟨0, 0, 0, 500000000⟩⟩ := by decide +kernel
  have hlong : Binary64.toRat? (-0.75) = some (-3 / 4) := by decide +kernel
  have hquarter : Binary64.toRat? 0.25 = some (1 / 4) := by decide +kernel
  have hminus : Binary64.toRat? (-1.0) = some (-1) := by decide +kernel
  have hhalf : Binary64.toRat? 0.5 = some (1 / 2) := by decide +kernel
  have hone : Binary64.toRat? 1.0 = some 1 := by decide +kernel
  obtain ⟨u, hu, hlow, hhigh, -⟩ :=
    shifts_monotone ht .seconds hlong hquarter hone (by norm_num) (by norm_num) hback hon
  obtain ⟨v, hv, habove, hbelow, -⟩ :=
    shifts_monotone ht .minus hminus hhalf hone (by norm_num) (by norm_num) hadded hwithdrawn
  refine ⟨ht, hback, hon, ⟨u, hu, ?_, ?_⟩, hadded, hwithdrawn, v, hv, ?_, ?_⟩
  · exact hlow.apart (by decide +kernel)
  · exact hhigh.apart (by decide +kernel)
  · exact habove.apart (by decide +kernel)
  · exact hbelow.apart (by decide +kernel)

end Reckon.Calendar
