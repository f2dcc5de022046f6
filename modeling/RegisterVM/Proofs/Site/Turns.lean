import Mathlib.Data.Nat.Find
import RegisterVM.Proofs.Site.Adaptation

/-
  Promotions and demotions in turn. An access promotes a site,
  demotes it, or does neither, and never both. A demotion freezes
  the site, and from then on only the ends of windows thaw it; the
  demotion is itself the end of a window, so the freeze runs out a
  whole number of windows later, and not before that may the next
  promotion come. Nor may it come before the accesses counted
  since the demotion are enough for a check.

  Key definitions include:
    * `SiteState.Closes`
    * `SiteState.Promotes`
    * `SiteState.Turn`
    * `SiteState.DemotesAt`
    * `SiteState.PromotesAt`
    * `SiteState.missesIn`

  Key theorems include:
    * `SiteState.turn_count`
    * `SiteState.promoted_until`
    * `SiteState.freeze_after`
    * `SiteState.rate_of_promotesAt`
    * `SiteState.turns_cool_down`
-/

namespace RegisterVM

namespace SiteState

------------------------------------------------------------
-- One Access
------------------------------------------------------------

/- The next access is the last one of a window. -/
def Closes
    (t : Tuning)
    (s : SiteState) : Prop :=
  t.adapts = true ∧ t.windowedDemotion = true ∧
    t.window.toNat ≤ s.windowAccesses + 1

instance
    (t : Tuning)
    (s : SiteState) :
    Decidable (s.Closes t) :=
  inferInstanceAs (Decidable (_ ∧ _ ∧ _))

/- The freeze that an access leaves, if it does not demote. -/
def thawed
    (t : Tuning)
    (s : SiteState) : Nat :=
  s.freeze - if s.Closes t then 1 else 0

/- An access ends in a promotion. -/
def Promotes
    (t : Tuning)
    (s : SiteState)
    (miss : Bool) : Prop :=
  (s.count t miss).promotions = s.promotions + 1

/-
  What an access makes of a site: it is demoted, or promoted, or
  stays as it is.
-/
inductive Turn
    (t : Tuning)
    (s : SiteState)
    (miss : Bool)
    (s' : SiteState) : Prop where
  | demoted
      (hCloses : s.Closes t)
      (hBefore : s.promoted = true)
      (hAfter : s'.promoted = false)
      (hFreeze : s'.freeze = t.freezeWindows.toNat)
      (hDemotions : s'.demotions = s.demotions + 1)
      (hPromotions : s'.promotions = s.promotions)
  | promoted
      (hAdapts : t.adapts = true)
      (hMiss : miss = true)
      (hEnough : t.promoteAfter.toNat ≤ capped t s.lifetimeAccesses)
      (hRate :
        t.promoteMissPct.toNat * capped t s.lifetimeAccesses <
          capped t s.lifetimeMisses * 100)
      (hBefore : s.promoted = false)
      (hAfter : s'.promoted = true)
      (hThawed : s'.freeze = 0)
      (hFreeze : s'.freeze = s.thawed t)
      (hDemotions : s'.demotions = s.demotions)
      (hPromotions : s'.promotions = s.promotions + 1)
  | kept
      (hAfter : s'.promoted = s.promoted)
      (hFreeze : s'.freeze = s.thawed t)
      (hDemotions : s'.demotions = s.demotions)
      (hPromotions : s'.promotions = s.promotions)

theorem promoteAfter_of_check
    {t : Tuning}
    (hCheck : t.check = .ok ()) :
    0 < t.promoteAfter.toNat ∧
      t.promoteAfter.toNat ≤ t.counterCap.toNat := by
  unfold Tuning.check at hCheck
  split at hCheck
  next => cases hCheck
  next hPositive =>
    split at hCheck
    next => cases hCheck
    next =>
      split at hCheck
      next => cases hCheck
      next =>
        split at hCheck
        next => cases hCheck
        next hCap =>
          have hSome : t.promoteAfter.toNat ≠ 0 :=
            fun hZero => hPositive (UInt32.toNat_inj.mp hZero)
          rw [UInt32.lt_iff_toNat_lt, Nat.not_lt] at hCap
          exact ⟨Nat.pos_of_ne_zero hSome, hCap⟩

/- The window demotes a site, or only thaws it. -/
theorem turn_windowed
    {t : Tuning}
    (hAdapts : t.adapts = true)
    (s : SiteState)
    (miss : Bool) :
    (s.windowed t miss).promotions = s.promotions ∧
      ((s.Closes t ∧ s.promoted = true ∧
          (s.windowed t miss).promoted = false ∧
          (s.windowed t miss).freeze = t.freezeWindows.toNat ∧
          (s.windowed t miss).demotions = s.demotions + 1) ∨
        ((s.windowed t miss).promoted = s.promoted ∧
          (s.windowed t miss).freeze = s.thawed t ∧
          (s.windowed t miss).demotions = s.demotions)) := by
  have hSame :
      ∃ c : SiteState, c = s.countOne t miss ∧
        c.windowAccesses = s.windowAccesses ∧
        c.freeze = s.freeze ∧ c.promoted = s.promoted ∧
        c.demotions = s.demotions ∧ c.promotions = s.promotions := by
    cases miss <;> exact ⟨_, rfl, rfl, rfl, rfl, rfl, rfl⟩
  rcases hSame with
    ⟨c, hCounted, hAccesses, hFreeze, hPromoted, hDemotions,
      hPromotions⟩
  rw [windowed, ← hCounted, promotions_advanceWindow]
  refine ⟨hPromotions, ?_⟩
  rw [advanceWindow, thawed]
  generalize (c.windowMisses + if miss = true then 1 else 0) =
    misses
  by_cases hWindowed : t.windowedDemotion = true
  · rw [if_pos hWindowed]
    dsimp only
    by_cases hOpen : c.windowAccesses + 1 < t.window.toNat
    · have hNot : ¬s.Closes t := by
        rintro ⟨_, _, hFull⟩
        omega
      rw [if_pos hOpen, if_neg hNot]
      exact Or.inr ⟨hPromoted, hFreeze, hDemotions⟩
    · have hCloses : s.Closes t := ⟨hAdapts, hWindowed, by omega⟩
      rw [if_neg hOpen, if_pos hCloses]
      split
      next =>
        exact Or.inr
          ⟨hPromoted, congrArg (· - 1) hFreeze, hDemotions⟩
      next hThawed =>
        split
        next hMany =>
          exact Or.inl ⟨hCloses, hPromoted ▸ hMany.1, rfl, rfl,
            congrArg (· + 1) hDemotions⟩
        next =>
          refine Or.inr ⟨hPromoted, ?_, hDemotions⟩
          dsimp only
          omega
  · have hNot : ¬s.Closes t := fun hCloses => hWindowed hCloses.2.1
    rw [if_neg hWindowed, if_neg hNot]
    exact Or.inr ⟨hPromoted, hFreeze, hDemotions⟩

/- The consideration of a promotion promotes a site, or not. -/
theorem turn_considerPromotion
    (s : SiteState)
    (t : Tuning) :
    (s.considerPromotion t).2.freeze = s.freeze ∧
      (s.considerPromotion t).2.demotions = s.demotions ∧
      ((s.promoted = false ∧ s.freeze = 0 ∧
          t.promoteAfter.toNat ≤ s.lifetimeAccesses ∧
          t.promoteMissPct.toNat * s.lifetimeAccesses <
            s.lifetimeMisses * 100 ∧
          (s.considerPromotion t).2.promoted = true ∧
          (s.considerPromotion t).2.promotions =
            s.promotions + 1) ∨
        ((s.considerPromotion t).2.promoted = s.promoted ∧
          (s.considerPromotion t).2.promotions =
            s.promotions)) := by
  unfold considerPromotion
  split
  next => exact ⟨rfl, rfl, Or.inr ⟨rfl, rfl⟩⟩
  next hDue =>
    rw [not_or, not_or, Nat.not_lt, Nat.not_lt] at hDue
    dsimp only
    split
    next hRate =>
      exact ⟨rfl, rfl, Or.inl ⟨Bool.eq_false_iff.mpr hDue.1,
        Nat.le_zero.mp hDue.2.1, hDue.2.2, hRate, rfl, rfl⟩⟩
    next => exact ⟨rfl, rfl, Or.inr ⟨rfl, rfl⟩⟩

/- Every access is a turn of the site. -/
theorem turn_count
    {t : Tuning}
    (hCheck : t.check = .ok ())
    (s : SiteState)
    (miss : Bool) :
    Turn t s miss (s.count t miss) := by
  have hPositive := (promoteAfter_of_check hCheck).1
  by_cases hAdapts : t.adapts = true
  · rcases turn_windowed hAdapts s miss with ⟨hPromotions, hWindow⟩
    have hLifetime := s.lifetime_windowed t miss
    rw [count_of_adapts hAdapts]
    split
    next hMiss =>
      rcases turn_considerPromotion (s.windowed t miss) t with
        ⟨hFreeze', hDemotions', hPromotion⟩
      rcases hWindow with
        ⟨hCloses, hBefore, hPlain, hFreeze, hDemotions⟩ |
          ⟨hSame, hFreeze, hDemotions⟩
      · -- A demotion leaves no accesses counted, so nothing is due.
        have hZero : (s.windowed t miss).lifetimeAccesses = 0 := by
          rcases hLifetime with ⟨hKept, _⟩ | ⟨_, hZero, _⟩
          · omega
          · exact hZero
        rcases hPromotion with
          ⟨_, _, hEnough, _⟩ | ⟨hPlain', hPromotions'⟩
        · omega
        · exact .demoted hCloses hBefore (hPlain'.trans hPlain)
            (hFreeze'.trans hFreeze) (hDemotions'.trans hDemotions)
            (hPromotions'.trans hPromotions)
      · have hCounted :
            (s.windowed t miss).lifetimeAccesses =
                capped t s.lifetimeAccesses ∧
              (s.windowed t miss).lifetimeMisses =
                capped t s.lifetimeMisses := by
          rcases hLifetime with ⟨_, hAccesses, hMisses⟩ | ⟨hMore, _⟩
          · rw [if_pos hMiss] at hMisses
            exact ⟨hAccesses, hMisses⟩
          · omega
        rcases hPromotion with
          ⟨hPlain, hThawed, hEnough, hRate, hAfter, hPromotions'⟩ |
            ⟨hAfter, hPromotions'⟩
        · rw [hCounted.1] at hEnough
          rw [hCounted.1, hCounted.2] at hRate
          exact .promoted hAdapts hMiss hEnough hRate
            (hSame.symm.trans hPlain) hAfter
            (hFreeze'.trans hThawed) (hFreeze'.trans hFreeze)
            (hDemotions'.trans hDemotions)
            (hPromotions'.trans (congrArg (· + 1) hPromotions))
        · exact .kept (hAfter.trans hSame) (hFreeze'.trans hFreeze)
            (hDemotions'.trans hDemotions)
            (hPromotions'.trans hPromotions)
    next =>
      rcases hWindow with
        ⟨hCloses, hBefore, hPlain, hFreeze, hDemotions⟩ |
          ⟨hSame, hFreeze, hDemotions⟩
      · exact .demoted hCloses hBefore hPlain hFreeze hDemotions
          hPromotions
      · exact .kept hSame hFreeze hDemotions hPromotions
  · have hNot : ¬s.Closes t := fun hCloses => hAdapts hCloses.1
    have hThawed : s.freeze = s.thawed t := by
      rw [thawed, if_neg hNot, Nat.sub_zero]
    cases miss with
    | false =>
        have hCount : s.count t false = _ :=
          s.recordHit_of_fixed hAdapts
        rw [hCount]
        exact .kept rfl hThawed rfl rfl
    | true =>
        have hCount : s.count t true = _ :=
          s.recordMiss_of_fixed hAdapts
        rw [hCount]
        exact .kept rfl hThawed rfl rfl

/- No access both demotes a site and promotes it. -/
theorem not_promotes_of_demotes
    {t : Tuning}
    (hCheck : t.check = .ok ())
    {s : SiteState}
    {miss : Bool}
    (hDemotes : s.Demotes t miss) :
    ¬s.Promotes t miss := by
  intro hPromotes
  rw [Demotes] at hDemotes
  rw [Promotes] at hPromotes
  cases turn_count hCheck s miss <;> omega

------------------------------------------------------------
-- Runs
------------------------------------------------------------

/- The access of a number ends in a demotion. -/
def DemotesAt
    (t : Tuning)
    (events : List Bool)
    (n : Nat) : Prop :=
  ∃ miss, events[n]? = some miss ∧
    (counted t (events.take n)).Demotes t miss

/- The access of a number ends in a promotion. -/
def PromotesAt
    (t : Tuning)
    (events : List Bool)
    (n : Nat) : Prop :=
  ∃ miss, events[n]? = some miss ∧
    (counted t (events.take n)).Promotes t miss

instance
    (t : Tuning)
    (events : List Bool)
    (n : Nat) :
    Decidable (DemotesAt t events n) :=
  inferInstanceAs (Decidable (∃ _, _ ∧ _ = _))

instance
    (t : Tuning)
    (events : List Bool)
    (n : Nat) :
    Decidable (PromotesAt t events n) :=
  inferInstanceAs (Decidable (∃ _, _ ∧ _ = _))

section Runs

variable {t : Tuning} {events : List Bool} {a b n : Nat}

theorem take_succ_of_getElem?
    {miss : Bool}
    (hMiss : events[n]? = some miss) :
    events.take (n + 1) = events.take n ++ [miss] := by
  rw [List.take_add_one, hMiss]
  rfl

/- The access of a number is counted by the site as it was left. -/
theorem counted_take_succ
    (t : Tuning)
    {miss : Bool}
    (hMiss : events[n]? = some miss) :
    counted t (events.take (n + 1)) =
      (counted t (events.take n)).count t miss := by
  rw [take_succ_of_getElem? hMiss, counted_concat]

/- A demotion happens to a promoted site, and freezes it. -/
theorem DemotesAt.turn
    (hCheck : t.check = .ok ())
    (hDemotes : DemotesAt t events n) :
    (counted t (events.take n)).Closes t ∧
      (counted t (events.take n)).promoted = true ∧
      (counted t (events.take (n + 1))).freeze =
        t.freezeWindows.toNat := by
  rcases hDemotes with ⟨miss, hMiss, hMore⟩
  rw [Demotes] at hMore
  rw [counted_take_succ t hMiss]
  cases turn_count hCheck (counted t (events.take n)) miss with
  | demoted hCloses hBefore _ hFreeze =>
      exact ⟨hCloses, hBefore, hFreeze⟩
  | promoted => omega
  | kept => omega

/- A promotion happens to a site that is not frozen. -/
theorem PromotesAt.turn
    (hCheck : t.check = .ok ())
    (hPromotes : PromotesAt t events n) :
    (counted t (events.take n)).promoted = false ∧
      (counted t (events.take (n + 1))).promoted = true ∧
      (counted t (events.take (n + 1))).freeze = 0 := by
  rcases hPromotes with ⟨miss, hMiss, hMore⟩
  rw [Promotes] at hMore
  rw [counted_take_succ t hMiss]
  cases turn_count hCheck (counted t (events.take n)) miss with
  | demoted => omega
  | promoted _ _ _ _ hBefore hAfter hThawed =>
      exact ⟨hBefore, hAfter, hThawed⟩
  | kept => omega

/- Other accesses only thaw a site, and leave it promoted. -/
theorem turn_of_not_demotesAt
    (hCheck : t.check = .ok ())
    (hInside : n < events.length)
    (hNot : ¬DemotesAt t events n) :
    (counted t (events.take (n + 1))).freeze =
        (counted t (events.take n)).thawed t ∧
      ((counted t (events.take n)).promoted = true →
        (counted t (events.take (n + 1))).promoted = true) := by
  have hMiss := List.getElem?_eq_getElem hInside
  rw [counted_take_succ t hMiss]
  cases turn_count hCheck (counted t (events.take n)) events[n] with
  | demoted _ _ _ _ hDemotions =>
      exact absurd ⟨_, hMiss, hDemotions⟩ hNot
  | promoted _ _ _ _ _ hAfter _ hFreeze =>
      exact ⟨hFreeze, fun _ => hAfter⟩
  | kept hAfter hFreeze =>
      exact ⟨hFreeze, fun hBefore => hAfter.trans hBefore⟩

theorem DemotesAt.lt_length
    (hDemotes : DemotesAt t events n) :
    n < events.length := by
  rcases hDemotes with ⟨miss, hMiss, _⟩
  exact (List.getElem?_eq_some_iff.mp hMiss).1

theorem PromotesAt.lt_length
    (hPromotes : PromotesAt t events n) :
    n < events.length := by
  rcases hPromotes with ⟨miss, hMiss, _⟩
  exact (List.getElem?_eq_some_iff.mp hMiss).1

/- Only a site that adapts is promoted. -/
theorem PromotesAt.adapts
    (hCheck : t.check = .ok ())
    (hPromotes : PromotesAt t events n) :
    t.adapts = true :=
  ((balanced_counted t _).promoted
    (hPromotes.turn hCheck).2.1).1

theorem not_demotesAt_of_promotesAt
    (hCheck : t.check = .ok ())
    (hPromotes : PromotesAt t events n) :
    ¬DemotesAt t events n := by
  rintro ⟨miss, hMiss, hDemotes⟩
  rcases hPromotes with ⟨miss', hMiss', hPromotes⟩
  rw [hMiss] at hMiss'
  cases hMiss'
  exact not_promotes_of_demotes hCheck hDemotes hPromotes

/- A site stays promoted until it is demoted. -/
theorem promoted_until
    (hCheck : t.check = .ok ())
    (hBefore : (counted t (events.take a)).promoted = true)
    (hLater : a ≤ n)
    (hInside : n ≤ events.length)
    (hNone : ∀ m, a ≤ m → m < n → ¬DemotesAt t events m) :
    (counted t (events.take n)).promoted = true := by
  induction n, hLater using Nat.le_induction with
  | base => exact hBefore
  | succ n hLater ih =>
      have hStill :=
        ih (by omega) fun m hFrom hUntil =>
          hNone m hFrom (by omega)
      have hNot := hNone n hLater (Nat.lt_succ_self n)
      exact (turn_of_not_demotesAt hCheck hInside hNot).2 hStill

/- Between two promotions of a site there is a demotion. -/
theorem exists_demotesAt_between
    (hCheck : t.check = .ok ())
    (hFirst : PromotesAt t events a)
    (hSecond : PromotesAt t events b)
    (hOrder : a < b) :
    ∃ n, a < n ∧ n < b ∧ DemotesAt t events n := by
  by_contra hNone
  have hStill :
      (counted t (events.take b)).promoted = true := by
    apply promoted_until hCheck (hFirst.turn hCheck).2.1 hOrder
      (Nat.le_of_lt hSecond.lt_length)
    intro m hAfter hBefore hDemotes
    exact hNone ⟨m, hAfter, hBefore, hDemotes⟩
  rw [(hSecond.turn hCheck).1] at hStill
  cases hStill

------------------------------------------------------------
-- Thawing
------------------------------------------------------------

/- Windows close at the multiples of their size. -/
theorem closes_iff
    (hAdapts : t.adapts = true)
    (hWindowed : t.windowedDemotion = true)
    (hWindow : 0 < t.window.toNat)
    (hInside : n < events.length) :
    (counted t (events.take n)).Closes t ↔
      t.window.toNat ∣ n + 1 := by
  have hLength : (events.take n).length = n :=
    List.length_take_of_le (Nat.le_of_lt hInside)
  have hAccesses :=
    (windows_counted hAdapts hWindowed hWindow (events.take n)).1
  have hBound := Nat.mod_lt n hWindow
  rw [hLength] at hAccesses
  rw [Closes, hAccesses, Nat.dvd_iff_mod_eq_zero,
    ← Nat.mod_add_mod]
  by_cases hEnd : n % t.window.toNat + 1 < t.window.toNat
  · rw [Nat.mod_eq_of_lt hEnd]
    omega
  · have hLast : n % t.window.toNat + 1 = t.window.toNat := by
      omega
    rw [hLast, Nat.mod_self]
    exact ⟨fun _ => rfl, fun _ => ⟨hAdapts, hWindowed, by omega⟩⟩

/-
  As long as a site is not demoted again, its freeze is the one of
  the demotion less the windows that closed since. The demotion
  closed a window itself, so these are as many as fit.
-/
theorem freeze_after
    (hCheck : t.check = .ok ())
    (hDemotes : DemotesAt t events a)
    (hLater : a ≤ n)
    (hInside : n < events.length)
    (hNone : ∀ m, a < m → m ≤ n → ¬DemotesAt t events m) :
    (counted t (events.take (n + 1))).freeze =
      t.freezeWindows.toNat - (n - a) / t.window.toNat := by
  have hWindow := window_pos_of_check hCheck
  rcases hDemotes.turn hCheck with ⟨hCloses, _, hFrozen⟩
  -- Windows close at whole distances from the demotion.
  have hAligned : t.window.toNat ∣ a + 1 :=
    (closes_iff hCloses.1 hCloses.2.1 hWindow
      hDemotes.lt_length).mp hCloses
  induction n, hLater using Nat.le_induction with
  | base => rw [hFrozen, Nat.sub_self, Nat.zero_div, Nat.sub_zero]
  | succ n hLater ih =>
      have hBefore :=
        ih (by omega) fun m hAfter hUntil =>
          hNone m hAfter (by omega)
      have hNot := hNone (n + 1) (by omega) (Nat.le_refl _)
      have hSince : n + 1 + 1 = (a + 1) + (n - a + 1) := by omega
      have hEnd :
          (counted t (events.take (n + 1))).Closes t ↔
            t.window.toNat ∣ n - a + 1 := by
        rw [closes_iff hCloses.1 hCloses.2.1 hWindow hInside,
          hSince, Nat.dvd_add_right hAligned]
      rw [(turn_of_not_demotesAt hCheck hInside hNot).1, thawed,
        hBefore, Nat.sub_add_comm hLater, Nat.succ_div,
        Nat.sub_sub]
      simp only [hEnd]

/- The last time that something happened. -/
theorem exists_last
    {P : Nat → Prop}
    (hFirst : P a)
    (hLater : a ≤ n) :
    ∃ last, a ≤ last ∧ last ≤ n ∧ P last ∧
      ∀ m, last < m → m ≤ n → ¬P m := by
  classical
  exact ⟨Nat.findGreatest P n, Nat.le_findGreatest hLater hFirst,
    Nat.findGreatest_le n, Nat.findGreatest_spec hLater hFirst,
    fun _ => Nat.findGreatest_is_greatest⟩

/- A demoted site is not promoted before its freeze is over. -/
theorem freeze_le_of_promotesAt
    (hCheck : t.check = .ok ())
    (hDemotes : DemotesAt t events a)
    (hPromotes : PromotesAt t events b)
    (hOrder : a < b) :
    t.freezeWindows.toNat * t.window.toNat ≤ b - a := by
  -- A later demotion only puts the promotion off further.
  rcases exists_last hDemotes (Nat.le_of_lt hOrder) with
    ⟨last, hFrom, hUntil, hLast, hNone⟩
  have hFreeze :=
    freeze_after hCheck hLast hUntil hPromotes.lt_length hNone
  rw [(hPromotes.turn hCheck).2.2] at hFreeze
  have hWindows :
      t.freezeWindows.toNat ≤ (b - last) / t.window.toNat :=
    Nat.sub_eq_zero_iff_le.mp hFreeze.symm
  have hWindow := window_pos_of_check hCheck
  rw [Nat.le_div_iff_mul_le hWindow] at hWindows
  omega

------------------------------------------------------------
-- Rates
------------------------------------------------------------

/- What follows an access does not matter to it. -/
theorem resetsAt_take
    (hBefore : a < n) :
    ResetsAt t (events.take n) a ↔ ResetsAt t events a := by
  rw [ResetsAt, ResetsAt, List.getElem?_take_of_lt hBefore,
    List.take_take, Nat.min_eq_left (Nat.le_of_lt hBefore)]

theorem DemotesAt.resetsAt
    (hDemotes : DemotesAt t events n) :
    ResetsAt t events n := by
  rcases hDemotes with ⟨miss, hMiss, hDemotes⟩
  exact ⟨miss, hMiss, Or.inr hDemotes⟩

/- The misses among the accesses from one number up to another. -/
def missesIn
    (events : List Bool)
    (start stop : Nat) : Nat :=
  ((events.take stop).drop start).count true

/-
  A promotion rests on the accesses since the last reset, itself
  included: they are enough, and too many of them are misses, as
  far as the capped counters tell.
-/
theorem rate_of_promotesAt
    (hCheck : t.check = .ok ())
    (hPromotes : PromotesAt t events b) :
    ∃ start, SinceReset t (events.take b) start ∧
      t.promoteAfter.toNat ≤ min t.counterCap.toNat (b + 1 - start) ∧
      t.promoteMissPct.toNat *
          min t.counterCap.toNat (b + 1 - start) <
        100 *
          min t.counterCap.toNat (missesIn events start (b + 1)) := by
  have hInside := hPromotes.lt_length
  have hLength : (events.take b).length = b :=
    List.length_take_of_le (Nat.le_of_lt hInside)
  rcases hPromotes with ⟨miss, hMiss, hMore⟩
  rw [Promotes] at hMore
  cases turn_count hCheck (counted t (events.take b)) miss with
  | demoted => omega
  | kept => omega
  | promoted hAdapts hTrue hEnough hRate =>
      rcases lifetime_counted hAdapts (events.take b) with
        ⟨start, hSince, hAccesses, hMisses⟩
      have hStart := hSince.inside
      rw [hLength] at hStart
      have hSize :
          ((events.take b).drop start).length + 1 =
            b + 1 - start := by
        rw [List.length_drop, hLength]
        omega
      have hMissed :
          ((events.take b).drop start).count true + 1 =
            missesIn events start (b + 1) := by
        rw [missesIn, take_succ_of_getElem? hMiss, hTrue,
          List.drop_append_of_le_length hSince.inside,
          List.count_append, List.count_singleton_self]
      rw [hAccesses, capped_min, hSize] at hEnough hRate
      rw [hMisses, capped_min, hMissed, Nat.mul_comm _ 100] at hRate
      exact ⟨start, hSince, hEnough, hRate⟩

/- A demoted site is not promoted before enough accesses. -/
theorem promoteAfter_le_of_promotesAt
    (hCheck : t.check = .ok ())
    (hDemotes : DemotesAt t events a)
    (hPromotes : PromotesAt t events b)
    (hOrder : a < b) :
    t.promoteAfter.toNat ≤ b - a := by
  rcases rate_of_promotesAt hCheck hPromotes with
    ⟨start, hSince, hEnough, _⟩
  have hReset : ResetsAt t (events.take b) a :=
    (resetsAt_take hOrder).mpr hDemotes.resetsAt
  have hBefore : a < start := by
    by_contra hAfter
    exact hSince.none a (Nat.not_lt.mp hAfter) hReset
  omega

------------------------------------------------------------
-- Cooling Down
------------------------------------------------------------

end Runs

/-
  A site does not oscillate. From a demotion to any later promotion
  there are at least as many accesses as the windows of the freeze
  have, and as a check for a promotion needs; until the next
  demotion the freeze is that of the demotion less the windows
  completed since. No access both promotes a site and demotes it,
  and between two promotions there is a demotion.
-/
theorem turns_cool_down
    {t : Tuning}
    (hCheck : t.check = .ok ())
    (events : List Bool) :
    (∀ a b, DemotesAt t events a → PromotesAt t events b → a < b →
      max (t.freezeWindows.toNat * t.window.toNat)
        t.promoteAfter.toNat ≤ b - a) ∧
    (∀ a n, DemotesAt t events a → a ≤ n → n < events.length →
      (∀ m, a < m → m ≤ n → ¬DemotesAt t events m) →
      (counted t (events.take (n + 1))).freeze =
        t.freezeWindows.toNat - (n - a) / t.window.toNat) ∧
    (∀ n, ¬(PromotesAt t events n ∧ DemotesAt t events n)) ∧
    (∀ a b, PromotesAt t events a → PromotesAt t events b → a < b →
      ∃ n, a < n ∧ n < b ∧ DemotesAt t events n) := by
  refine ⟨?_, ?_, ?_, ?_⟩
  · intro a b hDemotes hPromotes hOrder
    apply Nat.max_le.mpr
    exact ⟨freeze_le_of_promotesAt hCheck hDemotes hPromotes hOrder,
      promoteAfter_le_of_promotesAt hCheck hDemotes hPromotes
        hOrder⟩
  · intro a n hDemotes hLater hInside hNone
    exact freeze_after hCheck hDemotes hLater hInside hNone
  · rintro n ⟨hPromotes, hDemotes⟩
    exact not_demotesAt_of_promotesAt hCheck hPromotes hDemotes
  · intro a b hFirst hSecond hOrder
    exact exists_demotesAt_between hCheck hFirst hSecond hOrder

/-
  Six misses in windows of two: the second promotes the site, the
  fourth demotes it, and the sixth, which ends the freeze, promotes
  it again, as early as can be.
-/
theorem turns_cool_down_of_misses :
    let t : Tuning :=
      { promoteAfter := 2, window := 2, demoteMissPct := 50,
        freezeWindows := 1, counterCap := 4 }
    let events := List.replicate 6 true
    t.check = .ok () ∧ DemotesAt t events 3 ∧
      PromotesAt t events 1 ∧ PromotesAt t events 5 ∧
      max (t.freezeWindows.toNat * t.window.toNat)
        t.promoteAfter.toNat ≤ 5 - 3 ∧
      (counted t (events.take 5)).freeze = 1 ∧
      ¬DemotesAt t events 5 ∧
      ∃ n, 1 < n ∧ n < 5 ∧ DemotesAt t events n := by
  intro t events
  have hCheck : t.check = .ok () := by decide
  have hDemotes : DemotesAt t events 3 := by decide
  have hFirst : PromotesAt t events 1 := by decide
  have hSecond : PromotesAt t events 5 := by decide
  have hNone : ∀ m, 3 < m → m ≤ 4 → ¬DemotesAt t events m := by
    intro m hAfter hUntil
    have hFour : m = 4 := by omega
    subst hFour
    decide
  rcases turns_cool_down hCheck events with
    ⟨hGap, hFreeze, hNever, hBetween⟩
  refine ⟨hCheck, hDemotes, hFirst, hSecond, ?_, ?_, ?_, ?_⟩
  · exact hGap 3 5 hDemotes hSecond (by decide)
  · exact (hFreeze 3 4 hDemotes (by decide) (by decide)
      hNone).trans (by decide)
  · exact fun hBoth => hNever 5 ⟨hSecond, hBoth⟩
  · exact hBetween 1 5 hFirst hSecond (by decide)

end SiteState

end RegisterVM
