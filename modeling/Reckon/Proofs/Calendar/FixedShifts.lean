import Reckon.Proofs.Binary64.Sign
import Reckon.Proofs.Calendar.Quantities
import Reckon.Proofs.Run

/-!
Shifts by spans of time add up. Outside leap seconds a date is as good as its instant, and a shift by
days, hours, minutes or seconds adds to it; so a sequence of them comes to the sum of its spans, in
whatever order and in whatever portions, and goes back the way it came.
-/

namespace Reckon.Calendar

open Rational Run

variable {t u v : DateTime} {shift : Shift} {quantity : Float} {steps more : List (Shift × Float)}

/-- A valid date outside all leap seconds. -/
def DateTime.Ordinary (t : DateTime) : Prop := t.Valid ∧ t.time.isLeapSecond = false

/-- The milliseconds of all steps together. -/
def totalMillis (steps : List (Shift × Float)) : Int :=
  (steps.map fun step => (step.1.millis? step.2).getD 0).sum

/-- A date moved by one step after another; the first refusal ends it. -/
def travel (t : DateTime) (steps : List (Shift × Float)) : Except OperatorError DateTime :=
  steps.foldlM (fun t step => step.1.apply t step.2) t

/-- The same shift the other way. -/
def reverseStep (step : Shift × Float) : Shift × Float := (step.1, -step.2)

theorem roundHalfAway_neg (r : Rat) : roundHalfAway (-r) = -roundHalfAway r := by
  unfold roundHalfAway
  rw [Rat.num_neg_eq_neg_num, Rat.den_neg_eq_den, Int.sign_neg, Int.natAbs_neg, Int.neg_mul]

theorem clockMillis?_neg (quantity unitMillis : Float) :
    clockMillis? (-quantity) unitMillis = (clockMillis? quantity unitMillis).map (- ·) := by
  unfold clockMillis?
  rw [Binary64.toRat?_neg_mul]
  cases Binary64.toRat? (quantity * unitMillis) with
  | none => rfl
  | some millis => exact congrArg some (roundHalfAway_neg millis)

/-- The opposite quantity means the opposite span. -/
theorem Shift.millis?_neg (shift : Shift) (quantity : Float) :
    shift.millis? (-quantity) = (shift.millis? quantity).map (- ·) := by
  unfold millis?
  rw [Binary64.toRat?_neg]
  cases Binary64.toRat? quantity with
  | none => rfl
  | some value =>
    have hwhole : truncate (-value) * 86400000 = -(truncate value * 86400000) := by
      rw [truncate_neg, Int.neg_mul]
    cases shift with
    | years | months => rfl
    | days | plus => exact congrArg some hwhole
    | minus =>
      change some (-truncate (-value) * 86400000) = some (-(-truncate value * 86400000))
      rw [truncate_neg, Int.neg_mul]
    | hours | minutes | seconds => exact clockMillis?_neg _ _

/-- Outside leap seconds a shift by a span of time adds that span to the instant, and that is all there
is to say of it. -/
theorem Shift.apply_eq_ok_iff_instant (ht : t.Ordinary) (hfixed : shift.Fixed) :
    shift.apply t quantity = .ok u ↔
      ∃ millis, shift.millis? quantity = some millis ∧ u.Ordinary ∧
        u.instant = t.instant + millis * 1000000 := by
  have hnano := TimeOfDay.isLeapSecond_eq_false_iff.mp ht.2
  have hmove (millis : Int) : (Displacement.span ⟨millis⟩).move? t = some u ↔
      u.Ordinary ∧ u.instant = t.instant + millis * 1000000 := by
    change t.addDuration? ⟨millis⟩ = some u ↔ _
    rw [DateTime.addDuration?_eq_some_iff hnano, ← TimeOfDay.isLeapSecond_eq_false_iff,
      ← and_assoc]
    rfl
  rw [apply_eq_ok_iff ht.1.shown.bounded, meant?_of_fixed hfixed]
  constructor
  · rintro ⟨d, hmeant, hmoved⟩
    obtain ⟨millis, hmillis, rfl⟩ := Option.map_eq_some_iff.mp hmeant
    exact ⟨millis, hmillis, (hmove millis).mp hmoved⟩
  · rintro ⟨millis, hmillis, hmoved⟩
    refine ⟨.span ⟨millis⟩, ?_, (hmove millis).mpr hmoved⟩
    rw [hmillis]
    rfl

/-- Ordinary dates with one instant are one date. -/
theorem DateTime.Ordinary.eq_of_instant (ht : t.Ordinary) (hu : u.Ordinary)
    (hinstant : t.instant = u.instant) : t = u :=
  ht.1.shown.proper.eq_of_instant hu.1.shown.proper (TimeOfDay.isLeapSecond_eq_false_iff.mp ht.2)
    (TimeOfDay.isLeapSecond_eq_false_iff.mp hu.2) hinstant

/-- A shift by a span of time is undone by the opposite quantity, which never fails. -/
theorem Shift.apply_neg (ht : t.Ordinary) (hfixed : shift.Fixed)
    (h : shift.apply t quantity = .ok u) : shift.apply u (-quantity) = .ok t := by
  obtain ⟨millis, hmillis, hu, hinstant⟩ := (apply_eq_ok_iff_instant ht hfixed).mp h
  rw [apply_eq_ok_iff_instant hu hfixed]
  refine ⟨-millis, ?_, ht, ?_⟩
  · rw [millis?_neg, hmillis]
    rfl
  · omega

theorem Shift.millis?_minus (quantity : Float) :
    minus.millis? quantity = (plus.millis? quantity).map (- ·) := by
  unfold millis?
  cases Binary64.toRat? quantity with
  | none => rfl
  | some value =>
    change some (-truncate value * 86400000) = some (-(truncate value * 86400000))
    rw [Int.neg_mul]

theorem Shift.minus_apply_of_plus (ht : t.Ordinary) (h : plus.apply t quantity = .ok u) :
    minus.apply u quantity = .ok t := by
  have hplus : plus.Fixed := ⟨by decide, by decide⟩
  have hminus : minus.Fixed := ⟨by decide, by decide⟩
  obtain ⟨millis, hmillis, hu, hinstant⟩ := (apply_eq_ok_iff_instant ht hplus).mp h
  rw [apply_eq_ok_iff_instant hu hminus]
  refine ⟨-millis, ?_, ht, ?_⟩
  · rw [millis?_minus, hmillis]
    rfl
  · omega

private theorem travel_append_of_ok (h : travel t steps = .ok u) :
    travel t (steps ++ more) = travel u more := append_of_ok h

private theorem travel_cons_of_ok {step : Shift × Float} (h : step.1.apply t step.2 = .ok u) :
    travel t (step :: more) = travel u more := by
  change (step.1.apply t step.2 >>= fun next => travel next more) = _
  rw [h]
  rfl

theorem travel_append_eq_ok (h : travel t (steps ++ more) = .ok v) :
    ∃ u, travel t steps = .ok u ∧ travel u more = .ok v := append_eq_ok h

private theorem totalMillis_cons (step : Shift × Float) (steps : List (Shift × Float)) :
    totalMillis (step :: steps) = (step.1.millis? step.2).getD 0 + totalMillis steps := rfl

theorem totalMillis_of_perm (h : more.Perm steps) : totalMillis more = totalMillis steps :=
  (h.map _).sum_eq

/-- A sequence of shifts by spans of time adds all of them to the instant. -/
theorem instant_of_travel (ht : t.Ordinary) (hfixed : ∀ step ∈ steps, step.1.Fixed)
    (hrun : travel t steps = .ok u) :
    u.Ordinary ∧ u.instant = t.instant + totalMillis steps * 1000000 := by
  induction steps generalizing t with
  | nil =>
    cases hrun
    exact ⟨ht, by simp [totalMillis]⟩
  | cons step rest ih =>
    rw [List.forall_mem_cons] at hfixed
    obtain ⟨next, hstep, hrest⟩ := bind_eq_ok hrun
    obtain ⟨millis, hmillis, hnext, hinstant⟩ :=
      (Shift.apply_eq_ok_iff_instant ht hfixed.1).mp hstep
    obtain ⟨hu, htotal⟩ := ih hnext hfixed.2 hrest
    refine ⟨hu, ?_⟩
    rw [totalMillis_cons, hmillis, Option.getD_some, htotal, hinstant]
    ring

/-- The way back takes the steps in reverse, each the other way. -/
theorem travel_back (ht : t.Ordinary) (hfixed : ∀ step ∈ steps, step.1.Fixed)
    (hrun : travel t steps = .ok u) : travel u (steps.reverse.map reverseStep) = .ok t := by
  induction steps generalizing t with
  | nil =>
    cases hrun
    rfl
  | cons step rest ih =>
    rw [List.forall_mem_cons] at hfixed
    obtain ⟨next, hstep, hrest⟩ := bind_eq_ok hrun
    obtain ⟨-, -, hnext, -⟩ := (Shift.apply_eq_ok_iff_instant ht hfixed.1).mp hstep
    have hback : travel u (rest.reverse.map reverseStep) = .ok next := ih hnext hfixed.2 hrest
    have hlast : (reverseStep step).1.apply next (reverseStep step).2 = .ok t :=
      Shift.apply_neg ht hfixed.1 hstep
    rw [List.reverse_cons, List.map_append, travel_append_of_ok hback, List.map_singleton,
      travel_cons_of_ok hlast]
    rfl

/-- One step as long as several together leads to the same date as they do, without fail. -/
theorem travel_merge {before group after : List (Shift × Float)} (ht : t.Ordinary)
    (hfixed : ∀ step ∈ before ++ group ++ after, step.1.Fixed)
    (hrun : travel t (before ++ group ++ after) = .ok u) (hshift : shift.Fixed)
    (hmillis : shift.millis? quantity = some (totalMillis group)) :
    travel t (before ++ (shift, quantity) :: after) = .ok u := by
  simp only [List.forall_mem_append] at hfixed
  obtain ⟨⟨hbefore, hgroup⟩, -⟩ := hfixed
  obtain ⟨next, hto, hafter⟩ := travel_append_eq_ok hrun
  obtain ⟨start, hstart, hnext⟩ := travel_append_eq_ok hto
  have hordinary := (instant_of_travel ht hbefore hstart).1
  obtain ⟨hnextOrdinary, hinstant⟩ := instant_of_travel hordinary hgroup hnext
  have hstep : shift.apply start quantity = .ok next :=
    (Shift.apply_eq_ok_iff_instant hordinary hshift).mpr ⟨_, hmillis, hnextOrdinary, hinstant⟩
  have hmerged : travel start ((shift, quantity) :: after) = travel next after :=
    travel_cons_of_ok hstep
  rw [travel_append_of_ok hstart, hmerged, hafter]

/-- Shifts by spans of time are an additive action on the dates outside leap seconds. Where a sequence
leads depends on the sum of its spans only, not on their order or their portions; one step as long as
several of them takes their place; and every step is undone by the opposite quantity. -/
theorem fixed_shifts_additive (t : DateTime) (ht : t.Ordinary) :
    (∀ (steps : List (Shift × Float)) (u : DateTime), (∀ step ∈ steps, step.1.Fixed) →
      travel t steps = .ok u →
      (u.Ordinary ∧ u.instant = t.instant + totalMillis steps * 1000000) ∧
      (∀ more v, (∀ step ∈ more, step.1.Fixed) → totalMillis more = totalMillis steps →
        travel t more = .ok v → v = u) ∧
      (∀ more v, more.Perm steps → travel t more = .ok v → v = u) ∧
      (∀ before group after shift quantity, steps = before ++ group ++ after →
        shift.Fixed → shift.millis? quantity = some (totalMillis group) →
        travel t (before ++ (shift, quantity) :: after) = .ok u) ∧
      travel u (steps.reverse.map reverseStep) = .ok t) ∧
    (∀ (shift : Shift) quantity u, shift.Fixed → shift.apply t quantity = .ok u →
      shift.apply u (-quantity) = .ok t) ∧
    ∀ quantity u, Shift.plus.apply t quantity = .ok u → Shift.minus.apply u quantity = .ok t := by
  refine ⟨?_, ?_, ?_⟩
  · intro steps u hfixed hrun
    have hu := instant_of_travel ht hfixed hrun
    have hsame (more v) (hmore : ∀ step ∈ more, step.1.Fixed)
        (htotal : totalMillis more = totalMillis steps) (hrun' : travel t more = .ok v) : v = u := by
      obtain ⟨hv, hinstant⟩ := instant_of_travel ht hmore hrun'
      apply hv.eq_of_instant hu.1
      rw [hinstant, htotal, hu.2]
    refine ⟨hu, hsame, ?_, ?_, travel_back ht hfixed hrun⟩
    · intro more v hperm hrun'
      have hmore : ∀ step ∈ more, step.1.Fixed := fun step hstep =>
        hfixed step (hperm.mem_iff.mp hstep)
      exact hsame more v hmore (totalMillis_of_perm hperm) hrun'
    · rintro before group after shift quantity rfl hshift hmillis
      exact travel_merge ht hfixed hrun hshift hmillis
  · intro shift quantity u hfixed h
    exact Shift.apply_neg ht hfixed h
  · intro quantity u h
    exact Shift.minus_apply_of_plus ht h

/-- Four steps over a leap day and a year, in two orders and back. -/
theorem fixed_shifts_additive_leap_day :
    (DateTime.mk ⟨2024, 2, 28⟩ ⟨23, 30, 0, 0⟩).Ordinary ∧
      travel ⟨⟨2024, 2, 28⟩, ⟨23, 30, 0, 0⟩⟩
        [(.hours, 0.75), (.days, 1.9), (.minus, -365.0), (.seconds, -0.001)] =
          .ok ⟨⟨2025, 3, 1⟩, ⟨0, 14, 59, 999000000⟩⟩ ∧
      (∀ v, travel ⟨⟨2024, 2, 28⟩, ⟨23, 30, 0, 0⟩⟩
        [(.seconds, -0.001), (.minus, -365.0), (.days, 1.9), (.hours, 0.75)] = .ok v →
          v = ⟨⟨2025, 3, 1⟩, ⟨0, 14, 59, 999000000⟩⟩) ∧
      Shift.plus.apply (DateTime.mk ⟨2024, 2, 28⟩ ⟨23, 30, 0, 0⟩) 2.0 =
        .ok ⟨⟨2024, 3, 1⟩, ⟨23, 30, 0, 0⟩⟩ ∧
      Shift.minus.apply (DateTime.mk ⟨2024, 3, 1⟩ ⟨23, 30, 0, 0⟩) 2.0 =
        .ok ⟨⟨2024, 2, 28⟩, ⟨23, 30, 0, 0⟩⟩ := by
  have ht : (DateTime.mk ⟨2024, 2, 28⟩ ⟨23, 30, 0, 0⟩).Ordinary := ⟨by decide, by decide⟩
  have hrun : travel ⟨⟨2024, 2, 28⟩, ⟨23, 30, 0, 0⟩⟩
      [(.hours, 0.75), (.days, 1.9), (.minus, -365.0), (.seconds, -0.001)] =
        .ok ⟨⟨2025, 3, 1⟩, ⟨0, 14, 59, 999000000⟩⟩ := by decide +kernel
  have hplus : Shift.plus.apply (DateTime.mk ⟨2024, 2, 28⟩ ⟨23, 30, 0, 0⟩) 2.0 =
      .ok ⟨⟨2024, 3, 1⟩, ⟨23, 30, 0, 0⟩⟩ := by decide +kernel
  have hfixed : ∀ step ∈ [(Shift.hours, (0.75 : Float)), (.days, 1.9), (.minus, -365.0),
      (.seconds, -0.001)], step.1.Fixed := by
    simp [Shift.Fixed]
  have h := fixed_shifts_additive _ ht
  obtain ⟨-, -, hperm, -⟩ := h.1 _ _ hfixed hrun
  refine ⟨ht, hrun, ?_, hplus, h.2.2 _ _ hplus⟩
  intro v hv
  exact hperm _ v (List.reverse_perm _) hv

end Reckon.Calendar
