import Mathlib.Data.List.DropRight
import RegisterVM.Proofs.Site.Steps

/-
  Counters of a site as functions of its history. Hits and misses
  are counted one after the other; a window closes after every so
  many of them, whatever else happens, and the lifetime counters
  start anew when a promotion is considered and when the site is
  demoted. So the window counters are those of the last accesses
  modulo the window, a site that is promoted is demoted exactly at
  the end of a window with too many misses, and the lifetime
  counters are those of the accesses since the last reset, up to
  their cap.

  Key definitions include:
    * `SiteState.count`
    * `SiteState.counted`
    * `SiteState.Demotes`
    * `SiteState.Checks`
    * `SiteState.SinceReset`

  Key theorems include:
    * `SiteState.balanced_counted`
    * `SiteState.windows_counted`
    * `SiteState.demotes_iff`
    * `SiteState.lifetime_counted`
    * `SiteState.counters_of_history`
-/

namespace RegisterVM

namespace SiteState

------------------------------------------------------------
-- Counting Accesses
------------------------------------------------------------

/- The state after an access was counted, as a miss or a hit. -/
def count
    (t : Tuning)
    (s : SiteState)
    (miss : Bool) : SiteState :=
  if miss then (s.recordMiss t).2 else (s.recordHit t).2

/- A fresh site after some accesses, each a miss or a hit. -/
def counted
    (t : Tuning)
    (events : List Bool) : SiteState :=
  events.foldl (count t) (fresh t)

theorem counted_concat
    (t : Tuning)
    (events : List Bool)
    (miss : Bool) :
    counted t (events ++ [miss]) = (counted t events).count t miss :=
  List.foldl_append

theorem balanced_counted
    (t : Tuning)
    (events : List Bool) :
    (counted t events).Balanced t := by
  induction events using List.reverseRecOn with
  | nil => exact .fresh t
  | append_singleton events miss ih =>
      rw [counted_concat]
      cases miss with
      | false => exact ih.recordHit
      | true => exact ih.recordMiss

/- An access that is counted, before its window is handled. -/
def countOne
    (t : Tuning)
    (s : SiteState)
    (miss : Bool) : SiteState :=
  if miss then s.countMiss t else s.countHit t

/- An access that is counted, after its window was handled. -/
def windowed
    (t : Tuning)
    (s : SiteState)
    (miss : Bool) : SiteState :=
  ((s.countOne t miss).advanceWindow t miss).2

/- A site that adapts handles the window, and then promotions. -/
theorem count_of_adapts
    {t : Tuning}
    (hAdapts : t.adapts = true)
    (s : SiteState)
    (miss : Bool) :
    s.count t miss =
      if miss then ((s.windowed t miss).considerPromotion t).2
      else s.windowed t miss := by
  cases miss with
  | false => exact s.recordHit_of_adapts hAdapts
  | true => exact s.recordMiss_of_adapts hAdapts

/- Considering a promotion does not concern windows and demotions. -/
theorem windows_considerPromotion
    (s : SiteState)
    (t : Tuning) :
    (s.considerPromotion t).2.windowAccesses = s.windowAccesses ∧
      (s.considerPromotion t).2.windowMisses = s.windowMisses ∧
      (s.considerPromotion t).2.demotions = s.demotions := by
  rcases s.considerPromotion_cases t with
    hEnd | hEnd | ⟨_, _, hEnd⟩ <;> rw [hEnd] <;>
    exact ⟨rfl, rfl, rfl⟩

theorem windows_count
    {t : Tuning}
    (hAdapts : t.adapts = true)
    (s : SiteState)
    (miss : Bool) :
    (s.count t miss).windowAccesses =
        (s.windowed t miss).windowAccesses ∧
      (s.count t miss).windowMisses =
        (s.windowed t miss).windowMisses ∧
      (s.count t miss).demotions =
        (s.windowed t miss).demotions := by
  rw [count_of_adapts hAdapts]
  cases miss with
  | false => exact ⟨rfl, rfl, rfl⟩
  | true => exact windows_considerPromotion _ t

------------------------------------------------------------
-- Windows
------------------------------------------------------------

/- What an access does to a window, and whether it demotes. -/
theorem windowed_cases
    {t : Tuning}
    (hWindowed : t.windowedDemotion = true)
    (s : SiteState)
    (miss : Bool) :
    let accesses := s.windowAccesses + 1
    let misses := s.windowMisses + if miss then 1 else 0
    (accesses < t.window.toNat →
        (s.windowed t miss).windowAccesses = accesses ∧
          (s.windowed t miss).windowMisses = misses ∧
          (s.windowed t miss).demotions = s.demotions) ∧
      (t.window.toNat ≤ accesses →
        (s.windowed t miss).windowAccesses = 0 ∧
          (s.windowed t miss).windowMisses = 0 ∧
          (s.windowed t miss).demotions =
            s.demotions +
              if s.freeze = 0 ∧ s.promoted = true ∧
                  t.demoteMissPct.toNat * accesses ≤ misses * 100
              then 1 else 0) := by
  intro accesses misses
  have hSame :
      ∃ c : SiteState, c = s.countOne t miss ∧
        c.windowAccesses = s.windowAccesses ∧
        c.windowMisses = s.windowMisses ∧ c.freeze = s.freeze ∧
        c.promoted = s.promoted ∧ c.demotions = s.demotions := by
    cases miss <;> exact ⟨_, rfl, rfl, rfl, rfl, rfl, rfl⟩
  rcases hSame with
    ⟨c, hCounted, hAccesses, hMisses, hFreeze, hPromoted, hDemotions⟩
  rw [windowed, ← hCounted, advanceWindow, if_pos hWindowed]
  simp only [hAccesses, hMisses, hFreeze, hPromoted]
  refine ⟨fun hOpen => ?_, fun hFull => ?_⟩
  · rw [if_pos hOpen]
    exact ⟨rfl, rfl, hDemotions⟩
  · rw [if_neg (Nat.not_lt.mpr hFull)]
    by_cases hFrozen : 0 < s.freeze
    · have hNot : ¬s.freeze = 0 := by omega
      rw [if_pos hFrozen, if_neg fun hAll => hNot hAll.1]
      exact ⟨rfl, rfl, hDemotions⟩
    · have hThawed : s.freeze = 0 := by omega
      rw [if_neg hFrozen]
      by_cases hMany :
          s.promoted = true ∧
            t.demoteMissPct.toNat * accesses ≤ misses * 100
      · rw [if_pos hMany, if_pos ⟨hThawed, hMany⟩]
        exact ⟨rfl, rfl, congrArg (· + 1) hDemotions⟩
      · rw [if_neg hMany, if_neg fun hAll => hMany hAll.2]
        exact ⟨rfl, rfl, hDemotions⟩

/- The window counters are those of the last accesses. -/
theorem windows_counted
    {t : Tuning}
    (hAdapts : t.adapts = true)
    (hWindowed : t.windowedDemotion = true)
    (hWindow : 0 < t.window.toNat)
    (events : List Bool) :
    (counted t events).windowAccesses =
        events.length % t.window.toNat ∧
      (counted t events).windowMisses =
        (events.rtake (events.length % t.window.toNat)).count
          true := by
  induction events using List.reverseRecOn with
  | nil => simp [counted, fresh]
  | append_singleton events miss ih =>
      rcases ih with ⟨hAccesses, hMisses⟩
      rcases windows_count hAdapts (counted t events) miss with
        ⟨hAccesses', hMisses', _⟩
      rcases windowed_cases hWindowed (counted t events) miss with
        ⟨hOpen, hFull⟩
      have hBound := Nat.mod_lt events.length hWindow
      have hMod :=
        Nat.mod_add_mod events.length t.window.toNat 1
      rw [counted_concat, hAccesses', hMisses', List.length_append,
        List.length_singleton, ← hMod]
      by_cases hEnd :
          events.length % t.window.toNat + 1 < t.window.toNat
      · rcases hOpen (hAccesses ▸ hEnd) with ⟨hNow, hNowMisses, _⟩
        rw [Nat.mod_eq_of_lt hEnd, hNow, hNowMisses, hAccesses,
          hMisses, List.rtake_concat_succ, List.count_append,
          List.count_singleton]
        simp
      · have hLast :
            events.length % t.window.toNat + 1 = t.window.toNat := by
          omega
        rcases hFull (by omega) with ⟨hNow, hNowMisses, _⟩
        rw [hLast, Nat.mod_self, hNow, hNowMisses, List.rtake_zero]
        exact ⟨rfl, rfl⟩

/- An access ends in a demotion. -/
def Demotes
    (t : Tuning)
    (s : SiteState)
    (miss : Bool) : Prop :=
  (s.count t miss).demotions = s.demotions + 1

/-
  A demotion happens at the end of a window, if the site was
  promoted before and too much of the window were misses.
-/
theorem demotes_iff
    {t : Tuning}
    (hAdapts : t.adapts = true)
    (hWindowed : t.windowedDemotion = true)
    (hWindow : 0 < t.window.toNat)
    (events : List Bool)
    (miss : Bool) :
    (counted t events).Demotes t miss ↔
      t.window.toNat ∣ events.length + 1 ∧
        (counted t events).promoted = true ∧
        t.demoteMissPct.toNat * t.window.toNat ≤
          100 * ((events ++ [miss]).rtake t.window.toNat).count
            true := by
  have hBalanced := balanced_counted t events
  rcases windows_counted hAdapts hWindowed hWindow events with
    ⟨hAccesses, hMisses⟩
  rcases windows_count hAdapts (counted t events) miss with
    ⟨_, _, hDemotions⟩
  rcases windowed_cases hWindowed (counted t events) miss with
    ⟨hOpen, hFull⟩
  have hBound := Nat.mod_lt events.length hWindow
  have hMod := Nat.mod_add_mod events.length t.window.toNat 1
  rw [Demotes, hDemotions, Nat.dvd_iff_mod_eq_zero, ← hMod]
  by_cases hEnd :
      events.length % t.window.toNat + 1 < t.window.toNat
  · rw [(hOpen (hAccesses ▸ hEnd)).2.2, Nat.mod_eq_of_lt hEnd]
    omega
  · have hLast :
        events.length % t.window.toNat + 1 = t.window.toNat := by
      omega
    have hCount :
        ((events ++ [miss]).rtake t.window.toNat).count true =
          (counted t events).windowMisses +
            if miss then 1 else 0 := by
      rw [← hLast, List.rtake_concat_succ, List.count_append,
        List.count_singleton, hMisses]
      simp
    rw [(hFull (by omega)).2.2, hCount, hAccesses, hLast,
      Nat.mod_self, Nat.mul_comm 100]
    constructor
    · intro hOne
      by_contra hNot
      rw [if_neg fun hAll => hNot ⟨rfl, hAll.2⟩] at hOne
      omega
    · rintro ⟨_, hPromoted, hMany⟩
      have hThawed := (hBalanced.promoted hPromoted).2
      rw [if_pos ⟨hThawed, hPromoted, hMany⟩]

/- Without windows there are no demotions. -/
theorem demotions_counted_of_unwindowed
    {t : Tuning}
    (hAdapts : t.adapts = true)
    (hWindowed : t.windowedDemotion = false)
    (events : List Bool) :
    (counted t events).demotions = 0 := by
  induction events using List.reverseRecOn with
  | nil => rfl
  | append_singleton events miss ih =>
      have hSame :
          ((counted t events).windowed t miss).demotions =
            (counted t events).demotions := by
        rw [windowed, advanceWindow, if_neg (by simp [hWindowed])]
        cases miss <;> rfl
      rw [counted_concat, (windows_count hAdapts _ miss).2.2, hSame,
        ih]

------------------------------------------------------------
-- Lifetimes
------------------------------------------------------------

/-
  An access checks for a promotion: it is a miss, and once its
  window was handled it finds the site neither promoted nor frozen
  and with enough accesses.
-/
def Checks
    (t : Tuning)
    (s : SiteState)
    (miss : Bool) : Prop :=
  miss = true ∧
    (s.windowed t miss).promoted = false ∧
    (s.windowed t miss).freeze = 0 ∧
    t.promoteAfter.toNat ≤ (s.windowed t miss).lifetimeAccesses

/- An access starts the lifetime counters anew. -/
def Resets
    (t : Tuning)
    (s : SiteState)
    (miss : Bool) : Prop :=
  s.Checks t miss ∨ s.Demotes t miss

/- A check starts the lifetime counters anew, and nothing else does. -/
theorem lifetime_considerPromotion
    {t : Tuning}
    {s : SiteState}
    {miss : Bool}
    (hMiss : miss = true) :
    (s.Checks t miss →
        ((s.windowed t miss).considerPromotion t).2.lifetimeAccesses =
            0 ∧
          ((s.windowed t miss).considerPromotion t).2.lifetimeMisses =
            0) ∧
      (¬s.Checks t miss →
        ((s.windowed t miss).considerPromotion t).2 =
          s.windowed t miss) := by
  constructor
  · rintro ⟨_, hPlain, hThawed, hEnough⟩
    have hDue :
        ¬((s.windowed t miss).promoted = true ∨
          0 < (s.windowed t miss).freeze ∨
          (s.windowed t miss).lifetimeAccesses <
            t.promoteAfter.toNat) := by
      rw [hPlain, hThawed]
      simpa using hEnough
    rw [considerPromotion, if_neg hDue]
    dsimp only
    split <;> exact ⟨rfl, rfl⟩
  · intro hNot
    have hEarly :
        (s.windowed t miss).promoted = true ∨
          0 < (s.windowed t miss).freeze ∨
          (s.windowed t miss).lifetimeAccesses <
            t.promoteAfter.toNat := by
      by_contra hDue
      rw [not_or, not_or, Nat.not_lt, Nat.not_lt] at hDue
      exact hNot ⟨hMiss, Bool.eq_false_iff.mpr hDue.1,
        Nat.le_zero.mp hDue.2.1, hDue.2.2⟩
    rw [considerPromotion, if_pos hEarly]

/- The window starts lifetimes anew by a demotion, or not at all. -/
theorem lifetime_windowed
    (t : Tuning)
    (s : SiteState)
    (miss : Bool) :
    ((s.windowed t miss).demotions = s.demotions ∧
        (s.windowed t miss).lifetimeAccesses =
          capped t s.lifetimeAccesses ∧
        (s.windowed t miss).lifetimeMisses =
          if miss then capped t s.lifetimeMisses
          else s.lifetimeMisses) ∨
      ((s.windowed t miss).demotions = s.demotions + 1 ∧
        (s.windowed t miss).lifetimeAccesses = 0 ∧
        (s.windowed t miss).lifetimeMisses = 0) := by
  rw [windowed]
  rcases (s.countOne t miss).advanceWindow_cases t miss with
    hEnd | ⟨_, hEnd⟩ | ⟨_, hEnd⟩ | ⟨_, hEnd⟩ | hEnd <;>
    rw [hEnd]
  · exact Or.inl (by cases miss <;> exact ⟨rfl, rfl, rfl⟩)
  · exact Or.inl (by cases miss <;> exact ⟨rfl, rfl, rfl⟩)
  · exact Or.inl (by cases miss <;> exact ⟨rfl, rfl, rfl⟩)
  · exact Or.inr (by cases miss <;> exact ⟨rfl, rfl, rfl⟩)
  · exact Or.inl (by cases miss <;> exact ⟨rfl, rfl, rfl⟩)

/- An access starts the lifetime counters anew, or is counted. -/
theorem lifetime_count
    {t : Tuning}
    (hAdapts : t.adapts = true)
    (s : SiteState)
    (miss : Bool) :
    (s.Resets t miss →
        (s.count t miss).lifetimeAccesses = 0 ∧
          (s.count t miss).lifetimeMisses = 0) ∧
      (¬s.Resets t miss →
        (s.count t miss).lifetimeAccesses =
            capped t s.lifetimeAccesses ∧
          (s.count t miss).lifetimeMisses =
            if miss then capped t s.lifetimeMisses
            else s.lifetimeMisses) := by
  have hDemotions := (windows_count hAdapts s miss).2.2
  have hWindow := s.lifetime_windowed t miss
  have hCount := count_of_adapts hAdapts s miss
  -- If it is no check, then all that happens is in the window.
  have hPlain : ¬s.Checks t miss → s.count t miss = s.windowed t miss := by
    intro hNoCheck
    rw [hCount]
    split
    next hMiss =>
      exact (lifetime_considerPromotion hMiss).2 hNoCheck
    next => rfl
  have hChecked :
      s.Checks t miss →
        (s.count t miss).lifetimeAccesses = 0 ∧
          (s.count t miss).lifetimeMisses = 0 := by
    intro hCheck
    rw [hCount, if_pos hCheck.1]
    exact (lifetime_considerPromotion hCheck.1).1 hCheck
  constructor
  · rintro (hCheck | hDemotes)
    · exact hChecked hCheck
    · by_cases hCheck : s.Checks t miss
      · exact hChecked hCheck
      · rw [Demotes, hDemotions] at hDemotes
        rcases hWindow with ⟨hKept, _⟩ | ⟨_, hZero⟩
        · omega
        · rw [hPlain hCheck]
          exact hZero
  · intro hNone
    rw [Resets, not_or, Demotes, hDemotions] at hNone
    rcases hWindow with ⟨_, hCapped⟩ | ⟨hMore, _⟩
    · rw [hPlain hNone.1]
      exact hCapped
    · exact absurd hMore hNone.2

/- The access of a number starts the lifetime counters anew. -/
def ResetsAt
    (t : Tuning)
    (events : List Bool)
    (n : Nat) : Prop :=
  ∃ miss, events[n]? = some miss ∧
    (counted t (events.take n)).Resets t miss

/-
  The accesses from a number on are those since the last reset, or
  all of them if there was none.
-/
structure SinceReset
    (t : Tuning)
    (events : List Bool)
    (start : Nat) : Prop where
  inside : start ≤ events.length
  reset : start = 0 ∨ ResetsAt t events (start - 1)
  none : ∀ n, start ≤ n → ¬ResetsAt t events n

/- Later accesses do not matter to earlier ones. -/
theorem resetsAt_concat
    {t : Tuning}
    {events : List Bool}
    {n : Nat}
    (hBefore : n < events.length)
    (miss : Bool) :
    ResetsAt t (events ++ [miss]) n ↔ ResetsAt t events n := by
  rw [ResetsAt, ResetsAt, List.getElem?_append_left hBefore,
    List.take_append_of_le_length (Nat.le_of_lt hBefore)]

theorem resetsAt_last
    (t : Tuning)
    (events : List Bool)
    (miss : Bool) :
    ResetsAt t (events ++ [miss]) events.length ↔
      (counted t events).Resets t miss := by
  rw [ResetsAt, List.getElem?_concat_length, List.take_left]
  simp

theorem ResetsAt.lt_length
    {t : Tuning}
    {events : List Bool}
    {n : Nat}
    (hResets : ResetsAt t events n) :
    n < events.length := by
  rcases hResets with ⟨miss, hMiss, _⟩
  exact (List.getElem?_eq_some_iff.mp hMiss).1

namespace SinceReset

variable {t : Tuning} {events : List Bool} {start : Nat} {miss : Bool}

/- After a reset there is nothing yet. -/
theorem of_resets
    (hResets : (counted t events).Resets t miss) :
    SinceReset t (events ++ [miss]) (events.length + 1) where
  inside := by simp
  reset := Or.inr ((resetsAt_last t events miss).mpr hResets)
  none n hLater hAt := by
    have hInside := hAt.lt_length
    rw [List.length_append, List.length_singleton] at hInside
    omega

/- Without a reset there is one access more. -/
theorem concat
    (hSince : SinceReset t events start)
    (hNone : ¬(counted t events).Resets t miss) :
    SinceReset t (events ++ [miss]) start where
  inside := by
    have hInside := hSince.inside
    rw [List.length_append]
    omega
  reset := by
    rcases hSince.reset with hZero | hReset
    · exact Or.inl hZero
    · exact Or.inr
        ((resetsAt_concat hReset.lt_length miss).mpr hReset)
  none n hLater hAt := by
    have hInside := hAt.lt_length
    rw [List.length_append, List.length_singleton] at hInside
    by_cases hBefore : n < events.length
    · exact hSince.none n hLater
        ((resetsAt_concat hBefore miss).mp hAt)
    · have hLast : n = events.length := by omega
      rw [hLast] at hAt
      exact hNone ((resetsAt_last t events miss).mp hAt)

end SinceReset

theorem capped_min
    (t : Tuning)
    (n : Nat) :
    capped t (min t.counterCap.toNat n) =
      min t.counterCap.toNat (n + 1) := by
  unfold capped
  omega

/- The lifetime counters are those of the accesses since a reset. -/
theorem lifetime_counted
    {t : Tuning}
    (hAdapts : t.adapts = true)
    (events : List Bool) :
    ∃ start, SinceReset t events start ∧
      (counted t events).lifetimeAccesses =
        min t.counterCap.toNat (events.drop start).length ∧
      (counted t events).lifetimeMisses =
        min t.counterCap.toNat ((events.drop start).count true) := by
  induction events using List.reverseRecOn with
  | nil =>
      refine ⟨0, ⟨Nat.le_refl _, Or.inl rfl, ?_⟩, ?_, ?_⟩
      · intro n _ hAt
        exact absurd hAt.lt_length (Nat.not_lt_zero n)
      · exact (Nat.min_zero _).symm
      · exact (Nat.min_zero _).symm
  | append_singleton events miss ih =>
      rcases ih with ⟨start, hSince, hAccesses, hMisses⟩
      rcases lifetime_count hAdapts (counted t events) miss with
        ⟨hReset, hCount⟩
      rw [counted_concat]
      by_cases hResets : (counted t events).Resets t miss
      · rcases hReset hResets with ⟨hNoAccess, hNoMiss⟩
        refine ⟨events.length + 1, .of_resets hResets, ?_, ?_⟩
        · simp [hNoAccess]
        · simp [hNoMiss]
      · rcases hCount hResets with ⟨hAccess, hMiss⟩
        have hDrop :
            (events ++ [miss]).drop start =
              events.drop start ++ [miss] :=
          List.drop_append_of_le_length hSince.inside
        refine ⟨start, hSince.concat hResets, ?_, ?_⟩
        · rw [hAccess, hAccesses, capped_min, hDrop,
            List.length_append, List.length_singleton]
        · rw [hMiss, hMisses, capped_min, hDrop,
            List.count_append, List.count_singleton]
          cases miss <;> rfl

------------------------------------------------------------
-- Counters And Histories
------------------------------------------------------------

theorem window_pos_of_check
    {t : Tuning}
    (hCheck : t.check = .ok ()) :
    0 < t.window.toNat := by
  by_contra hZero
  have hWindow : t.window = 0 :=
    UInt32.toNat_inj.mp (Nat.eq_zero_of_not_pos hZero)
  unfold Tuning.check at hCheck
  rw [if_pos hWindow] at hCheck
  split at hCheck <;> cases hCheck

/-
  The counters of a site that adapts are functions of the hits and
  misses so far. The lifetime counters count since the last check
  for a promotion or demotion, up to their cap. With windows, the
  window counters count the last accesses modulo the window, and a
  demotion happens exactly at the last access of a window, if the
  site was promoted before it and too much of the window were
  misses. Without windows there is never a demotion.
-/
theorem counters_of_history
    {t : Tuning}
    (hCheck : t.check = .ok ())
    (hAdapts : t.adapts = true)
    (events : List Bool) :
    (∃ start, SinceReset t events start ∧
      (counted t events).lifetimeAccesses =
        min t.counterCap.toNat (events.drop start).length ∧
      (counted t events).lifetimeMisses =
        min t.counterCap.toNat ((events.drop start).count true)) ∧
    (t.windowedDemotion = true →
      (counted t events).windowAccesses =
        events.length % t.window.toNat ∧
      (counted t events).windowMisses =
        (events.rtake (events.length % t.window.toNat)).count true ∧
      ∀ n miss, events[n]? = some miss →
        ((counted t (events.take n)).Demotes t miss ↔
          t.window.toNat ∣ n + 1 ∧
            (counted t (events.take n)).promoted = true ∧
            t.demoteMissPct.toNat * t.window.toNat ≤
              100 *
                ((events.take (n + 1)).rtake t.window.toNat).count
                  true)) ∧
    (t.windowedDemotion = false →
      (counted t events).demotions = 0) := by
  have hWindow := window_pos_of_check hCheck
  refine ⟨lifetime_counted hAdapts events, ?_,
    fun hUnwindowed =>
      demotions_counted_of_unwindowed hAdapts hUnwindowed events⟩
  intro hWindowed
  rcases windows_counted hAdapts hWindowed hWindow events with
    ⟨hAccesses, hMisses⟩
  refine ⟨hAccesses, hMisses, ?_⟩
  intro n miss hMiss
  have hInside := (List.getElem?_eq_some_iff.mp hMiss).1
  have hTake : events.take (n + 1) = events.take n ++ [miss] := by
    rw [List.take_add_one, hMiss]
    rfl
  have hLength : (events.take n).length = n :=
    List.length_take_of_le (Nat.le_of_lt hInside)
  have hDemotes :=
    demotes_iff hAdapts hWindowed hWindow (events.take n) miss
  rwa [hLength, ← hTake] at hDemotes

/-
  Windows of two accesses: the second miss promotes the site and
  the fourth demotes it, so that one access is counted since.
-/
theorem counters_of_history_of_misses :
    let t : Tuning :=
      { promoteAfter := 2, window := 2, demoteMissPct := 50,
        freezeWindows := 1, counterCap := 4 }
    let events := [true, true, true, true, false]
    t.check = .ok () ∧ t.adapts = true ∧
      (counted t events).windowAccesses = 1 ∧
      (counted t (events.take 3)).Demotes t true ∧
      ∃ start, SinceReset t events start ∧
        (events.drop start).length = 1 := by
  intro t events
  have hCheck : t.check = .ok () := by decide
  have hAdapts : t.adapts = true := by decide
  rcases counters_of_history hCheck hAdapts events with
    ⟨⟨start, hSince, hAccesses, _⟩, hWindows, _⟩
  rcases hWindows rfl with ⟨hWindow, _, hDemotes⟩
  have hCount : (counted t events).lifetimeAccesses = 1 := by
    decide
  have hCap : t.counterCap.toNat = 4 := by decide
  refine ⟨hCheck, hAdapts, hWindow.trans (by decide), ?_, start,
    hSince, by omega⟩
  exact (hDemotes 3 true rfl).mpr (by decide)

end SiteState

end RegisterVM
