import RegisterVM.Proofs.Site.Turns

/-
  What promotions and demotions rest on.

  A demotion rests on the misses of the window that it closes. The
  windows run on whatever else happens, so the first window that
  closes after a promotion may have begun before it, and then it
  counts the misses of both sides: a site may be demoted for the
  very misses that it was promoted for. From the second window on,
  only misses of the promoted site count.

  A promotion rests on the counters since the last reset. These
  stop at their cap, each on its own, so beyond it they overstate
  the share of misses. Below the cap they are exact; and if the cap
  is large against the accesses that a check may have to wait for,
  then a site is never promoted beyond it.

  Key definitions include:
    * `SiteState.LastPromotion`

  Key theorems include:
    * `SiteState.exists_lastPromotion`
    * `SiteState.misses_of_demotesAt`
    * `SiteState.demoted_on_window_misses`
    * `SiteState.hit_of_due`
    * `SiteState.missesIn_sinceReset_le`
    * `SiteState.promoted_on_capped_rate`
-/

namespace RegisterVM

namespace SiteState

section Stretches

variable {events : List Bool}

------------------------------------------------------------
-- Stretches Of Accesses
------------------------------------------------------------

/- Misses before and after a point in between. -/
theorem missesIn_split
    (start : Nat)
    {middle stop : Nat}
    (hMiddle : middle ≤ stop)
    (hInside : stop ≤ events.length) :
    missesIn events start stop =
      missesIn events start middle +
        missesIn events (max middle start) stop := by
  have hTake :
      events.take stop =
        events.take middle ++ (events.take stop).drop middle := by
    have hFront : (events.take stop).take middle = events.take middle := by
      rw [List.take_take, Nat.min_eq_left hMiddle]
    rw [← hFront, List.take_append_drop]
  have hLength : (events.take middle).length = middle :=
    List.length_take_of_le (Nat.le_trans hMiddle hInside)
  have hMax : middle + (start - middle) = max middle start := by
    omega
  unfold missesIn
  conv_lhs => rw [hTake]
  rw [List.drop_append, List.count_append, hLength,
    List.drop_drop, hMax]

theorem missesIn_le
    (events : List Bool)
    (start stop : Nat) :
    missesIn events start stop ≤ stop - start := by
  have hCount :
      missesIn events start stop ≤
        ((events.take stop).drop start).length :=
    List.count_le_length
  rw [List.length_drop, List.length_take] at hCount
  omega

/- A stretch without a miss. -/
theorem missesIn_eq_zero
    {start stop : Nat}
    (hHits :
      ∀ n, start ≤ n → n < stop → events[n]? ≠ some true) :
    missesIn events start stop = 0 := by
  apply List.count_eq_zero.mpr
  intro hMem
  rcases List.mem_iff_getElem?.mp hMem with ⟨i, hMiss⟩
  rw [List.getElem?_drop, List.getElem?_take] at hMiss
  split at hMiss
  next hBefore => exact hHits (start + i) (by omega) hBefore hMiss
  next => cases hMiss

end Stretches

section Runs

variable {t : Tuning} {events : List Bool} {n p b start : Nat}

------------------------------------------------------------
-- Demotions
------------------------------------------------------------

/- A promotion that none follows up to an access. -/
structure LastPromotion
    (t : Tuning)
    (events : List Bool)
    (n p : Nat) : Prop where
  promotes : PromotesAt t events p
  before : p < n
  last : ∀ m, p < m → m ≤ n → ¬PromotesAt t events m

instance
    (t : Tuning)
    (events : List Bool)
    (n p : Nat) :
    Decidable (LastPromotion t events n p) :=
  decidable_of_iff
    (PromotesAt t events p ∧ p < n ∧
      ∀ m, m ≤ n → p < m → ¬PromotesAt t events m)
    ⟨fun h => ⟨h.1, h.2.1, fun m hAfter hUntil =>
        h.2.2 m hUntil hAfter⟩,
      fun h => ⟨h.promotes, h.before, fun m hUntil hAfter =>
        h.last m hAfter hUntil⟩⟩

/- A site that is promoted was promoted by some access. -/
theorem exists_promotesAt
    (hCheck : t.check = .ok ())
    (hInside : n ≤ events.length)
    (hPromoted : (counted t (events.take n)).promoted = true) :
    ∃ p, p < n ∧ PromotesAt t events p := by
  induction n with
  | zero => cases hPromoted
  | succ n ih =>
      have hMiss := List.getElem?_eq_getElem hInside
      rw [counted_take_succ t hMiss] at hPromoted
      cases turn_count hCheck (counted t (events.take n))
          events[n] with
      | demoted _ _ hAfter =>
          rw [hAfter] at hPromoted
          cases hPromoted
      | promoted _ _ _ _ _ _ _ _ _ hPromotions =>
          exact ⟨n, Nat.lt_succ_self n, _, hMiss, hPromotions⟩
      | kept hAfter =>
          rcases ih (Nat.le_of_lt hInside)
              (hAfter.symm.trans hPromoted) with
            ⟨p, hBefore, hPromotes⟩
          exact ⟨p, Nat.lt_succ_of_lt hBefore, hPromotes⟩

theorem exists_lastPromotion
    (hCheck : t.check = .ok ())
    (hDemotes : DemotesAt t events n) :
    ∃ p, LastPromotion t events n p := by
  rcases exists_promotesAt hCheck (Nat.le_of_lt hDemotes.lt_length)
      (hDemotes.turn hCheck).2.1 with
    ⟨first, hBefore, hFirst⟩
  rcases exists_last hFirst (Nat.le_of_lt hBefore) with
    ⟨p, _, hUntil, hPromotes, hLast⟩
  have hOther : p ≠ n := by
    rintro rfl
    exact not_demotesAt_of_promotesAt hCheck hPromotes hDemotes
  exact ⟨p, hPromotes, Nat.lt_of_le_of_ne hUntil hOther, hLast⟩

/- A demotion closes a window with too many misses. -/
theorem misses_of_demotesAt
    (hCheck : t.check = .ok ())
    (hDemotes : DemotesAt t events n) :
    t.demoteMissPct.toNat * t.window.toNat ≤
      100 * missesIn events (n + 1 - t.window.toNat) (n + 1) := by
  have hWindow := window_pos_of_check hCheck
  have hInside := hDemotes.lt_length
  rcases (hDemotes.turn hCheck).1 with ⟨hAdapts, hWindowed, _⟩
  rcases hDemotes with ⟨miss, hMiss, hDemotes⟩
  have hMany :=
    ((demotes_iff hAdapts hWindowed hWindow _ miss).mp
      hDemotes).2.2
  have hLength : (events.take (n + 1)).length = n + 1 :=
    List.length_take_of_le hInside
  rwa [← take_succ_of_getElem? hMiss, List.rtake, hLength] at hMany

/-
  A demotion follows a promotion, and rests on the misses of the
  window that it closes, those up to the promotion and those since.
  If the window began after the promotion, then it rests on misses
  since the promotion only, and without any of these a site is not
  demoted.
-/
theorem demoted_on_window_misses
    {t : Tuning}
    (hCheck : t.check = .ok ())
    {events : List Bool}
    {n : Nat}
    (hDemotes : DemotesAt t events n) :
    (∃ p, LastPromotion t events n p) ∧
      ∀ p, LastPromotion t events n p →
        t.demoteMissPct.toNat * t.window.toNat ≤
          100 *
            (missesIn events (n + 1 - t.window.toNat) (p + 1) +
              missesIn events
                (max (p + 1) (n + 1 - t.window.toNat)) (n + 1)) ∧
        (p + t.window.toNat ≤ n →
          t.demoteMissPct.toNat * t.window.toNat ≤
              100 *
                missesIn events
                  (max (p + 1) (n + 1 - t.window.toNat)) (n + 1) ∧
            (0 < t.demoteMissPct.toNat →
              0 < missesIn events (p + 1) (n + 1))) := by
  refine ⟨exists_lastPromotion hCheck hDemotes, ?_⟩
  intro p hLast
  have hInside := hDemotes.lt_length
  have hWindow := window_pos_of_check hCheck
  have hMany := misses_of_demotesAt hCheck hDemotes
  have hBefore := hLast.before
  constructor
  · have hSplit :=
      missesIn_split (n + 1 - t.window.toNat)
        (Nat.succ_le_succ (Nat.le_of_lt hBefore)) hInside
    rwa [hSplit] at hMany
  · intro hOpened
    have hMax :
        max (p + 1) (n + 1 - t.window.toNat) =
          n + 1 - t.window.toNat := by
      omega
    refine ⟨hMax.symm ▸ hMany, ?_⟩
    intro hSome
    have hPositive := Nat.mul_pos hSome hWindow
    have hSplit :=
      missesIn_split (p + 1)
        (Nat.sub_le (n + 1) t.window.toNat) hInside
    rw [Nat.max_comm, hMax] at hSplit
    omega

/-
  Windows of two accesses, all of them misses: the second promotes
  the site as its window closes, so the fourth, which demotes it,
  closes a window of misses since.
-/
theorem demoted_on_window_misses_of_aligned :
    let t : Tuning :=
      { promoteAfter := 2, window := 2, demoteMissPct := 50 }
    let events := [true, true, true, true]
    t.check = .ok () ∧ DemotesAt t events 3 ∧
      LastPromotion t events 3 1 ∧
      50 * 2 ≤ 100 * missesIn events 2 4 ∧
      0 < missesIn events 2 4 := by
  intro t events
  have hCheck : t.check = .ok () := by decide
  have hDemotes : DemotesAt t events 3 := by decide
  have hLast : LastPromotion t events 3 1 := by decide
  rcases (demoted_on_window_misses hCheck hDemotes).2 1 hLast with
    ⟨_, hSince⟩
  rcases hSince (by decide) with ⟨hMany, hSome⟩
  exact ⟨hCheck, hDemotes, hLast, hMany, hSome (by decide)⟩

/-
  A window of four accesses in which a site is promoted: the two
  misses that promote it also demote it, when the window closes
  after two hits.
-/
theorem demoted_without_miss_since_promotion :
    let t : Tuning :=
      { promoteAfter := 2, window := 4, demoteMissPct := 50 }
    let events := [true, true, false, false]
    t.check = .ok () ∧ 0 < t.demoteMissPct.toNat ∧
      DemotesAt t events 3 ∧ LastPromotion t events 3 1 ∧
      missesIn events (max (1 + 1) (3 + 1 - t.window.toNat))
          (3 + 1) = 0 := by
  intro t events
  exact ⟨by decide, by decide, by decide, by decide, by decide⟩

------------------------------------------------------------
-- Resets
------------------------------------------------------------

instance
    (t : Tuning)
    (events : List Bool)
    (n : Nat) :
    Decidable (ResetsAt t events n) :=
  inferInstanceAs
    (Decidable (∃ _, _ ∧ ((_ ∧ _ ∧ _ ∧ _) ∨ _ = _)))

instance
    (t : Tuning)
    (events : List Bool)
    (start : Nat) :
    Decidable (SinceReset t events start) :=
  decidable_of_iff
    (start ≤ events.length ∧
      (start = 0 ∨ ResetsAt t events (start - 1)) ∧
      ∀ n, n < events.length → start ≤ n → ¬ResetsAt t events n)
    ⟨fun h => ⟨h.1, h.2.1, fun n hLater hReset =>
        h.2.2 n hReset.lt_length hLater hReset⟩,
      fun h => ⟨h.inside, h.reset, fun n _ hLater =>
        h.none n hLater⟩⟩

/- There is one last reset. -/
theorem SinceReset.unique
    {start' : Nat}
    (hSince : SinceReset t events start)
    (hSince' : SinceReset t events start') :
    start = start' := by
  rcases Nat.lt_trichotomy start start' with hLess | hSame | hMore
  · rcases hSince'.reset with hZero | hReset
    · omega
    · exact absurd hReset (hSince.none _ (by omega))
  · exact hSame
  · rcases hSince.reset with hZero | hReset
    · omega
    · exact absurd hReset (hSince'.none _ (by omega))

/- The last reset is the last one at every moment since. -/
theorem SinceReset.take
    (hSince : SinceReset t (events.take b) start)
    (hFrom : start ≤ n)
    (hUntil : n ≤ b)
    (hInside : b ≤ events.length) :
    SinceReset t (events.take n) start where
  inside := by
    rw [List.length_take]
    omega
  reset := by
    rcases hSince.reset with hZero | hReset
    · exact Or.inl hZero
    · by_cases hZero : start = 0
      · exact Or.inl hZero
      · rw [resetsAt_take (by omega)] at hReset
        exact Or.inr ((resetsAt_take (by omega)).mpr hReset)
  none m hLater hReset := by
    have hBefore := hReset.lt_length
    rw [List.length_take] at hBefore
    rw [resetsAt_take (by omega)] at hReset
    exact hSince.none m hLater
      ((resetsAt_take (by omega)).mpr hReset)

/- Nothing but a demotion freezes a site. -/
theorem freeze_until
    (hCheck : t.check = .ok ())
    (hLater : p ≤ n)
    (hInside : n ≤ events.length)
    (hNone : ∀ m, p ≤ m → m < n → ¬DemotesAt t events m) :
    (counted t (events.take n)).freeze ≤
      (counted t (events.take p)).freeze := by
  induction n, hLater using Nat.le_induction with
  | base => exact Nat.le_refl _
  | succ n hLater ih =>
      have hBefore :=
        ih (by omega) fun m hFrom hUntil =>
          hNone m hFrom (by omega)
      have hNot := hNone n hLater (Nat.lt_succ_self n)
      rw [(turn_of_not_demotesAt hCheck hInside hNot).1]
      exact Nat.le_trans (Nat.sub_le _ _) hBefore

/- A check finds the site thawed, and leaves it so. -/
theorem Checks.freeze_count
    (hAdapts : t.adapts = true)
    {s : SiteState}
    {miss : Bool}
    (hChecks : s.Checks t miss) :
    (s.count t miss).freeze = 0 := by
  rw [count_of_adapts hAdapts, if_pos hChecks.1,
    (turn_considerPromotion _ t).1]
  exact hChecks.2.2.1

/-
  Since a reset a site is frozen at most for as many accesses as
  the windows of a freeze have.
-/
theorem freeze_sinceReset
    (hCheck : t.check = .ok ())
    (hAdapts : t.adapts = true)
    (hSince : SinceReset t (events.take b) start)
    (hInside : b ≤ events.length)
    (hFrom : start ≤ n)
    (hBefore : n < b)
    (hLong :
      t.freezeWindows.toNat * t.window.toNat ≤ n + 1 - start) :
    (counted t (events.take (n + 1))).freeze = 0 := by
  have hNone : ∀ m, start ≤ m → m < n + 1 → ¬DemotesAt t events m := by
    intro m hLater hUntil hDemotes
    exact hSince.none m hLater
      ((resetsAt_take (by omega)).mpr hDemotes.resetsAt)
  have hThawed :
      (counted t (events.take start)).freeze = 0 →
        (counted t (events.take (n + 1))).freeze = 0 := by
    intro hZero
    have hLater : start ≤ n + 1 := Nat.le_succ_of_le hFrom
    have hLess := freeze_until hCheck hLater (by omega) hNone
    omega
  by_cases hZero : start = 0
  · apply hThawed
    rw [hZero]
    rfl
  · have hLast : start - 1 + 1 = start := by omega
    have hReset : ResetsAt t events (start - 1) := by
      rcases hSince.reset with hFresh | hReset
      · exact absurd hFresh hZero
      · exact (resetsAt_take (by omega)).mp hReset
    rcases hReset with ⟨miss, hMiss, hChecks | hDemotes⟩
    · apply hThawed
      have hFreeze := hChecks.freeze_count hAdapts
      rwa [← counted_take_succ t hMiss, hLast] at hFreeze
    · have hFreeze :=
        freeze_after hCheck ⟨miss, hMiss, hDemotes⟩
          (Nat.le_trans (Nat.sub_le start 1) hFrom) (by omega)
          fun m hAfter hUntil => hNone m (by omega) (by omega)
      have hWindow := window_pos_of_check hCheck
      have hSize : n - (start - 1) = n + 1 - start := by omega
      have hWindows :
          t.freezeWindows.toNat ≤
            (n + 1 - start) / t.window.toNat :=
        (Nat.le_div_iff_mul_le hWindow).mpr hLong
      rw [hFreeze, hSize]
      exact Nat.sub_eq_zero_iff_le.mpr hWindows

------------------------------------------------------------
-- Promotions
------------------------------------------------------------

/- A miss of a site that is thawed checks, once it is time. -/
theorem checks_of_due
    (hAdapts : t.adapts = true)
    {s : SiteState}
    (hNot : ¬s.Demotes t true)
    (hPlain : s.promoted = false)
    (hThawed : s.thawed t = 0)
    (hEnough :
      t.promoteAfter.toNat ≤ capped t s.lifetimeAccesses) :
    s.Checks t true := by
  rw [Demotes, (windows_count hAdapts s true).2.2] at hNot
  rcases turn_windowed hAdapts s true with
    ⟨_, ⟨_, _, _, _, hMore⟩ | ⟨hPromoted, hFreeze, _⟩⟩
  · exact absurd hMore hNot
  · rcases s.lifetime_windowed t true with
      ⟨_, hAccesses, _⟩ | ⟨hMore, _⟩
    · exact ⟨rfl, hPromoted.trans hPlain, hFreeze.trans hThawed,
        hAccesses.symm ▸ hEnough⟩
    · exact absurd hMore hNot

/-
  Before a promotion, once there were enough accesses since the
  last reset and the freeze is over, there are only hits: a miss
  would have been a check.
-/
theorem hit_of_due
    (hCheck : t.check = .ok ())
    (hPromotes : PromotesAt t events b)
    (hSince : SinceReset t (events.take b) start)
    (hFrom : start ≤ n)
    (hBefore : n < b)
    (hLong :
      max t.promoteAfter.toNat
        (t.freezeWindows.toNat * t.window.toNat) ≤ n + 1 - start) :
    events[n]? ≠ some true := by
  intro hMiss
  have hInside := Nat.le_of_lt hPromotes.lt_length
  have hAdapts := hPromotes.adapts hCheck
  have hNone : ∀ m, start ≤ m → m < b → ¬DemotesAt t events m := by
    intro m hLater hUntil hDemotes
    exact hSince.none m hLater
      ((resetsAt_take hUntil).mpr hDemotes.resetsAt)
  have hNot := hNone n hFrom hBefore
  have hPlain : (counted t (events.take n)).promoted = false := by
    by_contra hPromoted
    have hStill :=
      promoted_until hCheck (Bool.not_eq_false _ ▸ hPromoted)
        (Nat.le_of_lt hBefore) hInside fun m hLater hUntil =>
          hNone m (Nat.le_trans hFrom hLater) hUntil
    rw [(hPromotes.turn hCheck).1] at hStill
    cases hStill
  have hThawed : (counted t (events.take n)).thawed t = 0 := by
    rw [← (turn_of_not_demotesAt hCheck (by omega) hNot).1]
    exact freeze_sinceReset hCheck hAdapts hSince hInside hFrom
      hBefore (by omega)
  have hEnough :
      t.promoteAfter.toNat ≤
        capped t (counted t (events.take n)).lifetimeAccesses := by
    rcases lifetime_counted hAdapts (events.take n) with
      ⟨start', hSince', hAccesses, _⟩
    have hSame :=
      (hSince.take hFrom (Nat.le_of_lt hBefore) hInside).unique
        hSince'
    have hCap := (promoteAfter_of_check hCheck).2
    rw [hAccesses, capped_min, ← hSame, List.length_drop,
      List.length_take_of_le (by omega)]
    omega
  have hChecks :=
    checks_of_due hAdapts (fun hMore => hNot ⟨true, hMiss, hMore⟩)
      hPlain hThawed hEnough
  exact hSince.none n hFrom
    ((resetsAt_take hBefore).mpr ⟨true, hMiss, Or.inl hChecks⟩)

/- So the misses that a promotion rests on are few. -/
theorem missesIn_sinceReset_le
    (hCheck : t.check = .ok ())
    (hPromotes : PromotesAt t events b)
    (hSince : SinceReset t (events.take b) start) :
    missesIn events start (b + 1) ≤
      max t.promoteAfter.toNat
        (t.freezeWindows.toNat * t.window.toNat) := by
  have hInside := hPromotes.lt_length
  have hPositive := (promoteAfter_of_check hCheck).1
  generalize hLong :
    max t.promoteAfter.toNat
      (t.freezeWindows.toNat * t.window.toNat) = long
  have hShort := missesIn_le events start (b + 1)
  by_cases hEarly : b + 1 ≤ start + long
  · omega
  · -- Misses in the beginning, then hits, then the promotion.
    have hFirst := missesIn_le events start (start + long - 1)
    have hLast := missesIn_le events b (b + 1)
    have hHits : missesIn events (start + long - 1) b = 0 := by
      apply missesIn_eq_zero
      intro m hFrom hBefore
      exact hit_of_due hCheck hPromotes hSince (by omega) hBefore
        (by omega)
    have hEnd : start + long - 1 ≤ b + 1 := by omega
    have hSplit := missesIn_split start hEnd hInside
    have hSplit' :=
      missesIn_split (start + long - 1) (Nat.le_add_right b 1)
        hInside
    rw [Nat.max_eq_left (by omega)] at hSplit hSplit'
    omega

end Runs

/-
  A promotion rests on the accesses since the last reset, itself
  included. There are enough of them, and the share of misses is
  beyond the limit, as counted up to the cap; if the cap was not
  passed, the real share is. And if the cap is large against the
  accesses that a check may have to wait for, it always is.
-/
theorem promoted_on_capped_rate
    {t : Tuning}
    (hCheck : t.check = .ok ())
    {events : List Bool}
    {b : Nat}
    (hPromotes : PromotesAt t events b) :
    (∃ start, SinceReset t (events.take b) start) ∧
      ∀ start, SinceReset t (events.take b) start →
        t.promoteAfter.toNat ≤ b + 1 - start ∧
        t.promoteMissPct.toNat *
            min t.counterCap.toNat (b + 1 - start) <
          100 *
            min t.counterCap.toNat
              (missesIn events start (b + 1)) ∧
        (b + 1 - start ≤ t.counterCap.toNat ∨
            100 *
                max t.promoteAfter.toNat
                  (t.freezeWindows.toNat * t.window.toNat) ≤
              t.promoteMissPct.toNat * t.counterCap.toNat →
          t.promoteMissPct.toNat * (b + 1 - start) <
            100 * missesIn events start (b + 1)) := by
  rcases rate_of_promotesAt hCheck hPromotes with
    ⟨start, hSince, hEnough, hRate⟩
  refine ⟨⟨start, hSince⟩, ?_⟩
  intro start' hSince'
  obtain rfl := hSince.unique hSince'
  have hFew := missesIn_sinceReset_le hCheck hPromotes hSince
  refine ⟨by omega, hRate, ?_⟩
  have hExact :
      b + 1 - start ≤ t.counterCap.toNat →
        t.promoteMissPct.toNat * (b + 1 - start) <
          100 * missesIn events start (b + 1) := by
    intro hBelow
    rw [Nat.min_eq_right hBelow] at hRate
    omega
  rintro (hBelow | hLarge)
  · exact hExact hBelow
  · apply hExact
    by_contra hBeyond
    rw [Nat.min_eq_left (by omega)] at hRate
    omega

/- The cap of the default tuning is large enough. -/
example :
    let t : Tuning := {}
    100 *
        max t.promoteAfter.toNat
          (t.freezeWindows.toNat * t.window.toNat) ≤
      t.promoteMissPct.toNat * t.counterCap.toNat := by
  decide

/-
  A cap of ten is large enough for checks after two accesses and
  freezes of two: two misses of four are a real half.
-/
theorem promoted_on_capped_rate_of_half :
    let t : Tuning :=
      { promoteAfter := 2, window := 2, freezeWindows := 1,
        counterCap := 10 }
    let events := [true, false, false, true]
    t.check = .ok () ∧ PromotesAt t events 3 ∧
      SinceReset t (events.take 3) 0 ∧
      2 ≤ 4 ∧ 20 * min 10 4 < 100 * min 10 (missesIn events 0 4) ∧
      20 * 4 < 100 * missesIn events 0 4 := by
  intro t events
  have hCheck : t.check = .ok () := by decide
  have hPromotes : PromotesAt t events 3 := by decide
  have hSince : SinceReset t (events.take 3) 0 := by decide
  rcases (promoted_on_capped_rate hCheck hPromotes).2 0 hSince with
    ⟨hEnough, hRate, hExact⟩
  exact ⟨hCheck, hPromotes, hSince, hEnough, hRate,
    hExact (Or.inr (by decide))⟩

/-
  With a cap of two, two misses of eight count as two of two: the
  site is promoted at a quarter of misses, though its limit is a
  half.
-/
theorem promoted_below_rate_of_cap :
    let t : Tuning :=
      { promoteAfter := 2, promoteMissPct := 50, counterCap := 2 }
    let events := [true] ++ List.replicate 6 false ++ [true]
    t.check = .ok () ∧ PromotesAt t events 7 ∧
      SinceReset t (events.take 7) 0 ∧
      ¬t.promoteMissPct.toNat * (7 + 1 - 0) <
          100 * missesIn events 0 (7 + 1) := by
  intro t events
  exact ⟨by decide, by decide, by decide, by decide⟩

end SiteState

end RegisterVM
