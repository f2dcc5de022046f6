import Mathlib.Data.List.Induction
import RegisterVM.Site.State

/-
  Runs of a site. A site may be shared, and then its steps come
  in any order: an access need not be followed by its insertion,
  and an insertion may bring any entry. Whatever the order, a
  site stays balanced: its entries fit and are distinct, and its
  counters agree with each other and with its tuning.

  Key definitions include:
    * `SiteStep`
    * `SiteState.step`
    * `SiteState.run`
    * `SiteState.Balanced`

  Key theorems include:
    * `SiteState.Balanced.step`
    * `SiteState.balanced_run`
    * `SiteState.tally_run`
-/

namespace RegisterVM

------------------------------------------------------------
-- Runs
------------------------------------------------------------

/- What a site does in one go. -/
inductive SiteStep where
  | access (key : Key)
  | insert (entry : Entry)
  | cold
  deriving Repr

namespace SiteStep

/- Whether a step looks a key up. -/
def isAccess : SiteStep → Bool
  | access _ => true
  | _ => false

/- Whether a step bypasses the entries. -/
def isCold : SiteStep → Bool
  | cold => true
  | _ => false

end SiteStep

namespace SiteState

/- The state after a step. -/
def step
    (t : Tuning)
    (s : SiteState) : SiteStep → SiteState
  | .access key => (s.access t key).2
  | .insert entry => s.insert entry
  | .cold => s.coldCall

/- The state of a fresh site after some steps. -/
def run
    (t : Tuning)
    (steps : List SiteStep) : SiteState :=
  steps.foldl (step t) (fresh t)

theorem run_concat
    (t : Tuning)
    (steps : List SiteStep)
    (last : SiteStep) :
    run t (steps ++ [last]) = (run t steps).step t last :=
  List.foldl_append

------------------------------------------------------------
-- Balance
------------------------------------------------------------

/- What holds of a site at all times. -/
structure Balanced
    (t : Tuning)
    (s : SiteState) : Prop where
  active :
    s.active =
      if t.alwaysFour ∨ s.promoted then maxEntries else baseEntries
  entries : s.entries.length ≤ s.active
  distinct : (s.entries.map Entry.key).Nodup
  promoted : s.promoted → t.adapts ∧ s.freeze = 0
  freeze : s.freeze ≤ t.freezeWindows.toNat
  promotions :
    s.promotions = s.demotions + if s.promoted then 1 else 0
  lifetimeMisses : s.lifetimeMisses ≤ s.lifetimeAccesses
  lifetimeAccesses : s.lifetimeAccesses ≤ t.counterCap.toNat
  windowMisses : s.windowMisses ≤ s.windowAccesses
  windowAccesses : s.windowAccesses < max t.window.toNat 1

namespace Balanced

variable {t : Tuning} {s : SiteState}

theorem fresh
    (t : Tuning) :
    (fresh t).Balanced t where
  active := by simp [SiteState.fresh]
  entries := Nat.zero_le _
  distinct := List.nodup_nil
  promoted := nofun
  freeze := Nat.zero_le _
  promotions := rfl
  lifetimeMisses := Nat.le_refl _
  lifetimeAccesses := Nat.zero_le _
  windowMisses := Nat.le_refl _
  windowAccesses := by simp only [SiteState.fresh]; omega

theorem two_le_active
    (hBalanced : s.Balanced t) :
    2 ≤ s.active := by
  rw [hBalanced.active]
  split <;> decide

theorem active_le_four
    (hBalanced : s.Balanced t) :
    s.active ≤ 4 := by
  rw [hBalanced.active]
  split <;> decide

/- Only sites that adapt are promoted, and these start with two. -/
theorem not_alwaysFour
    (hBalanced : s.Balanced t)
    (hPromoted : s.promoted = true) :
    t.alwaysFour = false := by
  have hAdapts := (hBalanced.promoted hPromoted).1
  simp only [Tuning.adapts, Bool.and_eq_true,
    Bool.not_eq_true'] at hAdapts
  exact hAdapts.2

/- Other entries that fit and are distinct. -/
theorem withEntries
    (hBalanced : s.Balanced t)
    {entries : List Entry}
    (hLength : entries.length ≤ s.active)
    (hDistinct : (entries.map Entry.key).Nodup) :
    Balanced t { s with entries } :=
  { hBalanced with entries := hLength, distinct := hDistinct }

------------------------------------------------------------
-- Entries
------------------------------------------------------------

end Balanced

/- The entries of other keys are among the entries. -/
theorem others_sublist
    (s : SiteState)
    (key : Key) :
    (s.others key).Sublist s.entries :=
  List.filter_sublist

theorem key_notMem_others
    (s : SiteState)
    (key : Key) :
    key ∉ (s.others key).map Entry.key := by
  simp [others]

/- A key is remembered exactly when it is found. -/
theorem find?_isSome
    (s : SiteState)
    (key : Key) :
    (s.find? key).isSome ↔ key ∈ s.entries.map Entry.key := by
  simp [find?, List.find?_isSome]

/- With its own entry gone, a site has room. -/
theorem length_others_lt
    {s : SiteState}
    {key : Key}
    (hMem : key ∈ s.entries.map Entry.key) :
    (s.others key).length < s.entries.length := by
  rcases List.mem_map.mp hMem with ⟨entry, hEntry, hKey⟩
  exact List.length_filter_lt_length_iff_exists.mpr
    ⟨entry, hEntry, by simp [hKey]⟩

/- A remembered key stands between entries of other keys. -/
theorem split_of_found
    {t : Tuning}
    {s : SiteState}
    (hBalanced : s.Balanced t)
    {key : Key}
    {entry : Entry}
    (hFind : s.find? key = some entry) :
    ∃ front back,
      s.entries = front ++ entry :: back ∧
        s.others key = front ++ back ∧
        (s.entries.findIdx? fun entry => entry.key == key) =
          some front.length := by
  rcases List.find?_eq_some_iff_append.mp hFind with
    ⟨hKey, front, back, hSplit, hFront⟩
  have hDistinct := hBalanced.distinct
  rw [hSplit] at hDistinct
  have hFrontOthers :
      front.filter (fun entry => entry.key != key) = front := by
    rw [List.filter_eq_self]
    intro other hMem
    simpa using hFront other hMem
  have hBackOthers :
      back.filter (fun entry => entry.key != key) = back := by
    rw [List.filter_eq_self]
    intro other hMem
    rw [List.map_append, List.map_cons] at hDistinct
    have hNew := (List.nodup_cons.mp
      (List.nodup_append.mp hDistinct).2.1).1
    rw [beq_iff_eq.mp hKey] at hNew
    have hOther : other.key ≠ key := by
      intro hSame
      exact hNew (List.mem_map.mpr ⟨other, hMem, hSame⟩)
    simpa using hOther
  refine ⟨front, back, hSplit, ?_, ?_⟩
  · rw [others, hSplit, List.filter_append, hFrontOthers,
      List.filter_cons_of_neg (by simpa using hKey), hBackOthers]
  · have hNoFront :
        (front.findIdx? fun entry => entry.key == key) = none := by
      rw [List.findIdx?_eq_none_iff]
      intro other hMem
      simpa using hFront other hMem
    rw [hSplit, List.findIdx?_append, hNoFront, List.findIdx?_cons,
      if_pos hKey]
    simp

/- An access that finds its key moves its entry to the front. -/
theorem access_of_found
    {s : SiteState}
    (t : Tuning)
    {key : Key}
    {entry : Entry}
    (hFind : s.find? key = some entry) :
    (s.access t key).2 =
      (recordHit { s with entries := entry :: s.others key } t).2 := by
  unfold access lookup
  rw [hFind]

/- An access that does not find its key leaves the entries alone. -/
theorem access_of_absent
    {s : SiteState}
    (t : Tuning)
    {key : Key}
    (hFind : s.find? key = none) :
    (s.access t key).2 = (s.recordMiss t).2 := by
  unfold access lookup
  rw [hFind]

namespace Balanced

variable {t : Tuning} {s : SiteState}

/- A key in front of the entries of other keys. -/
theorem nodup_cons_others
    (hBalanced : s.Balanced t)
    {entry : Entry}
    {key : Key}
    (hKey : entry.key = key) :
    ((entry :: s.others key).map Entry.key).Nodup := by
  have hOthers : ((s.others key).map Entry.key).Nodup :=
    hBalanced.distinct.sublist
      ((s.others_sublist key).map Entry.key)
  rw [List.map_cons, hKey]
  exact List.nodup_cons.mpr ⟨s.key_notMem_others key, hOthers⟩

theorem lookup
    (hBalanced : s.Balanced t)
    (key : Key) :
    (s.lookup key).2.Balanced t := by
  unfold SiteState.lookup
  cases hFind : s.find? key with
  | none => exact hBalanced
  | some entry =>
      have hKey : entry.key = key :=
        by
        simpa using List.find?_some hFind
      have hMem : key ∈ s.entries.map Entry.key := by
        rw [← find?_isSome, hFind]
        rfl
      have hRoom := length_others_lt hMem
      apply hBalanced.withEntries
      · exact Nat.le_trans hRoom hBalanced.entries
      · exact hBalanced.nodup_cons_others hKey

theorem insert
    (hBalanced : s.Balanced t)
    (entry : Entry) :
    (s.insert entry).Balanced t := by
  unfold SiteState.insert
  cases hFind : s.find? entry.key with
  | some found =>
      have hMem : entry.key ∈ s.entries.map Entry.key := by
        rw [← find?_isSome, hFind]
        rfl
      have hRoom := length_others_lt hMem
      apply hBalanced.withEntries
      · exact Nat.le_trans hRoom hBalanced.entries
      · exact hBalanced.nodup_cons_others rfl
  | none =>
      have hAbsent : entry.key ∉ s.entries.map Entry.key := by
        rw [← find?_isSome, hFind]
        simp
      have hActive := hBalanced.two_le_active
      apply hBalanced.withEntries
      · simp only [List.length_cons, List.length_take]
        omega
      · have hKept :
            ((s.entries.take (s.active - 1)).map
              Entry.key).Sublist (s.entries.map Entry.key) :=
          (List.take_sublist _ _).map Entry.key
        rw [List.map_cons]
        exact List.nodup_cons.mpr
          ⟨fun hMem => hAbsent (hKept.subset hMem),
            hBalanced.distinct.sublist hKept⟩

end Balanced

------------------------------------------------------------
-- Counters
------------------------------------------------------------

/- A window that starts anew. -/
def newWindow
    (s : SiteState) : SiteState :=
  { s with windowAccesses := 0, windowMisses := 0 }

/- Lifetime counters that start anew. -/
def newLifetime
    (s : SiteState) : SiteState :=
  { s with lifetimeAccesses := 0, lifetimeMisses := 0 }

/- What the end of an access does to its window. -/
theorem advanceWindow_cases
    (s : SiteState)
    (t : Tuning)
    (miss : Bool) :
    (s.advanceWindow t miss).2 = s ∨
      (s.windowAccesses + 1 < t.window.toNat ∧
        (s.advanceWindow t miss).2 =
          { s with
            windowAccesses := s.windowAccesses + 1
            windowMisses :=
              s.windowMisses + if miss then 1 else 0 }) ∨
      (0 < s.freeze ∧
        (s.advanceWindow t miss).2 =
          { s.newWindow with freeze := s.freeze - 1 }) ∨
      (s.promoted = true ∧
        (s.advanceWindow t miss).2 = s.newWindow.demote t) ∨
      (s.advanceWindow t miss).2 = s.newWindow := by
  unfold advanceWindow
  generalize (s.windowMisses + if miss = true then 1 else 0) =
    misses
  split
  next =>
    dsimp only
    split
    next hOpen => exact Or.inr (Or.inl ⟨hOpen, rfl⟩)
    next =>
      refine Or.inr (Or.inr ?_)
      split
      next hFrozen => exact Or.inl ⟨hFrozen, rfl⟩
      next =>
        refine Or.inr ?_
        split
        next hMissed => exact Or.inl ⟨hMissed.1, rfl⟩
        next => exact Or.inr rfl
  next => exact Or.inl rfl

/- What the consideration of a promotion does. -/
theorem considerPromotion_cases
    (s : SiteState)
    (t : Tuning) :
    (s.considerPromotion t).2 = s ∨
      (s.considerPromotion t).2 = s.newLifetime ∨
      (s.promoted = false ∧ s.freeze = 0 ∧
        (s.considerPromotion t).2 =
          { s.newLifetime with
            promoted := true
            active := maxEntries
            promotions := s.promotions + 1 }) := by
  unfold considerPromotion
  split
  next => exact Or.inl rfl
  next hDue =>
    refine Or.inr ?_
    dsimp only
    split
    next =>
      rw [not_or, not_or] at hDue
      have hPlain := Bool.eq_false_iff.mpr hDue.1
      exact Or.inr ⟨hPlain, Nat.eq_zero_of_not_pos hDue.2.1, rfl⟩
    next => exact Or.inl rfl

namespace Balanced

variable {t : Tuning} {s : SiteState}

theorem newWindow
    (hBalanced : s.Balanced t) :
    s.newWindow.Balanced t :=
  { hBalanced with
    windowMisses := Nat.le_refl _
    windowAccesses :=
      Nat.lt_of_lt_of_le Nat.one_pos (Nat.le_max_right _ _) }

theorem newLifetime
    (hBalanced : s.Balanced t) :
    s.newLifetime.Balanced t :=
  { hBalanced with
    lifetimeMisses := Nat.le_refl _
    lifetimeAccesses := Nat.zero_le _ }

theorem demote
    (hBalanced : s.Balanced t)
    (hPromoted : s.promoted = true) :
    (s.demote t).Balanced t where
  active := by
    simp [SiteState.demote, hBalanced.not_alwaysFour hPromoted]
  entries := List.length_take_le _ _
  distinct :=
    hBalanced.distinct.sublist
      ((List.take_sublist _ _).map Entry.key)
  promoted := nofun
  freeze := Nat.le_refl _
  promotions := by
    have hPromotions := hBalanced.promotions
    rw [if_pos hPromoted] at hPromotions
    simp [SiteState.demote, hPromotions]
  lifetimeMisses := Nat.le_refl _
  lifetimeAccesses := Nat.zero_le _
  windowMisses := hBalanced.windowMisses
  windowAccesses := hBalanced.windowAccesses

theorem advanceWindow
    (hBalanced : s.Balanced t)
    (miss : Bool) :
    (s.advanceWindow t miss).2.Balanced t := by
  rcases s.advanceWindow_cases t miss with
    hEnd | ⟨hOpen, hEnd⟩ | ⟨hFrozen, hEnd⟩ | ⟨hPromoted, hEnd⟩ |
      hEnd <;> rw [hEnd]
  · exact hBalanced
  · have hMisses := hBalanced.windowMisses
    refine
      { hBalanced with windowMisses := ?_, windowAccesses := ?_ }
    · dsimp only
      split <;> omega
    · exact Nat.lt_of_lt_of_le hOpen (Nat.le_max_left _ _)
  · refine
      { hBalanced.newWindow with promoted := ?_, freeze := ?_ }
    · intro hPromoted
      have hThawed := (hBalanced.promoted hPromoted).2
      omega
    · exact Nat.le_trans (Nat.sub_le _ _) hBalanced.freeze
  · exact hBalanced.newWindow.demote hPromoted
  · exact hBalanced.newWindow

theorem considerPromotion
    (hBalanced : s.Balanced t)
    (hAdapts : t.adapts = true) :
    (s.considerPromotion t).2.Balanced t := by
  rcases s.considerPromotion_cases t with
    hEnd | hEnd | ⟨hPlain, hThawed, hEnd⟩ <;> rw [hEnd]
  · exact hBalanced
  · exact hBalanced.newLifetime
  · have hPromotions := hBalanced.promotions
    rw [hPlain] at hPromotions
    refine
      { hBalanced.newLifetime with
        active := ?_, entries := ?_, promoted := ?_,
        promotions := ?_ }
    · simp
    · exact Nat.le_trans hBalanced.entries hBalanced.active_le_four
    · exact fun _ => ⟨hAdapts, hThawed⟩
    · simpa [SiteState.newLifetime] using hPromotions

end Balanced

/- A hit, counted once and for all and for the next promotion. -/
def countHit
    (s : SiteState)
    (t : Tuning) : SiteState :=
  { s with
    hits := s.hits + 1
    lifetimeAccesses := capped t s.lifetimeAccesses }

/- A miss, counted once and for all and for the next promotion. -/
def countMiss
    (s : SiteState)
    (t : Tuning) : SiteState :=
  { s with
    misses := s.misses + 1
    lifetimeAccesses := capped t s.lifetimeAccesses
    lifetimeMisses := capped t s.lifetimeMisses }

theorem recordHit_of_adapts
    (s : SiteState)
    {t : Tuning}
    (hAdapts : t.adapts = true) :
    (s.recordHit t).2 =
      ((s.countHit t).advanceWindow t false).2 := by
  unfold recordHit
  rw [if_pos hAdapts]
  rfl

theorem recordHit_of_fixed
    (s : SiteState)
    {t : Tuning}
    (hFixed : ¬ t.adapts = true) :
    (s.recordHit t).2 = { s with hits := s.hits + 1 } := by
  unfold recordHit
  rw [if_neg hFixed]

theorem recordMiss_of_adapts
    (s : SiteState)
    {t : Tuning}
    (hAdapts : t.adapts = true) :
    (s.recordMiss t).2 =
      (((s.countMiss t).advanceWindow t true).2.considerPromotion
        t).2 := by
  unfold recordMiss
  rw [if_pos hAdapts]
  rfl

theorem recordMiss_of_fixed
    (s : SiteState)
    {t : Tuning}
    (hFixed : ¬ t.adapts = true) :
    (s.recordMiss t).2 = { s with misses := s.misses + 1 } := by
  unfold recordMiss
  rw [if_neg hFixed]

namespace Balanced

variable {t : Tuning} {s : SiteState}

theorem countHit
    (hBalanced : s.Balanced t) :
    (s.countHit t).Balanced t := by
  have hLess := hBalanced.lifetimeMisses
  have hCap := hBalanced.lifetimeAccesses
  refine
    { hBalanced with lifetimeMisses := ?_, lifetimeAccesses := ?_ }
  all_goals
    simp only [SiteState.countHit, capped]
    omega

theorem countMiss
    (hBalanced : s.Balanced t) :
    (s.countMiss t).Balanced t := by
  have hLess := hBalanced.lifetimeMisses
  refine
    { hBalanced with lifetimeMisses := ?_, lifetimeAccesses := ?_ }
  all_goals
    simp only [SiteState.countMiss, capped]
    omega

theorem recordHit
    (hBalanced : s.Balanced t) :
    (s.recordHit t).2.Balanced t := by
  by_cases hAdapts : t.adapts = true
  · rw [recordHit_of_adapts s hAdapts]
    exact hBalanced.countHit.advanceWindow false
  · rw [recordHit_of_fixed s hAdapts]
    exact { hBalanced with }

theorem recordMiss
    (hBalanced : s.Balanced t) :
    (s.recordMiss t).2.Balanced t := by
  by_cases hAdapts : t.adapts = true
  · rw [recordMiss_of_adapts s hAdapts]
    have hWindow := hBalanced.countMiss.advanceWindow true
    exact hWindow.considerPromotion hAdapts
  · rw [recordMiss_of_fixed s hAdapts]
    exact { hBalanced with }

theorem access
    (hBalanced : s.Balanced t)
    (key : Key) :
    (s.access t key).2.Balanced t := by
  have hFound := hBalanced.lookup key
  unfold SiteState.lookup at hFound
  cases hFind : s.find? key with
  | none =>
      rw [access_of_absent t hFind]
      exact hBalanced.recordMiss
  | some entry =>
      rw [hFind] at hFound
      rw [access_of_found t hFind]
      exact hFound.recordHit

/- Every step keeps a site balanced. -/
theorem step
    (hBalanced : s.Balanced t)
    (step : SiteStep) :
    (s.step t step).Balanced t := by
  cases step with
  | access key => exact hBalanced.access key
  | insert entry => exact hBalanced.insert entry
  | cold => exact { hBalanced with }

end Balanced

/- A site stays balanced over any run. -/
theorem balanced_run
    (t : Tuning)
    (steps : List SiteStep) :
    (run t steps).Balanced t := by
  induction steps using List.reverseRecOn with
  | nil => exact .fresh t
  | append_singleton steps last ih =>
      rw [run_concat]
      exact ih.step last

------------------------------------------------------------
-- Tallies
------------------------------------------------------------

/- The calls that a site has counted: hits, misses, cold calls. -/
def tally
    (s : SiteState) : Nat × Nat × Nat :=
  (s.hits, s.misses, s.cold)

theorem tally_advanceWindow
    (s : SiteState)
    (t : Tuning)
    (miss : Bool) :
    (s.advanceWindow t miss).2.tally = s.tally := by
  rcases s.advanceWindow_cases t miss with
    hEnd | ⟨_, hEnd⟩ | ⟨_, hEnd⟩ | ⟨_, hEnd⟩ | hEnd <;>
    rw [hEnd] <;> rfl

theorem tally_considerPromotion
    (s : SiteState)
    (t : Tuning) :
    (s.considerPromotion t).2.tally = s.tally := by
  rcases s.considerPromotion_cases t with
    hEnd | hEnd | ⟨_, _, hEnd⟩ <;> rw [hEnd] <;> rfl

theorem tally_recordHit
    (s : SiteState)
    (t : Tuning) :
    (s.recordHit t).2.tally = (s.hits + 1, s.misses, s.cold) := by
  by_cases hAdapts : t.adapts = true
  · rw [recordHit_of_adapts s hAdapts, tally_advanceWindow]
    rfl
  · rw [recordHit_of_fixed s hAdapts]
    rfl

theorem tally_recordMiss
    (s : SiteState)
    (t : Tuning) :
    (s.recordMiss t).2.tally = (s.hits, s.misses + 1, s.cold) := by
  by_cases hAdapts : t.adapts = true
  · rw [recordMiss_of_adapts s hAdapts, tally_considerPromotion,
      tally_advanceWindow]
    rfl
  · rw [recordMiss_of_fixed s hAdapts]
    rfl

/- An access counts one hit if its key is found, else one miss. -/
theorem tally_access
    (s : SiteState)
    (t : Tuning)
    (key : Key) :
    (s.access t key).2.tally =
      if (s.find? key).isSome then (s.hits + 1, s.misses, s.cold)
      else (s.hits, s.misses + 1, s.cold) := by
  cases hFind : s.find? key with
  | none =>
      rw [access_of_absent t hFind]
      exact s.tally_recordMiss t
  | some entry =>
      rw [access_of_found t hFind]
      exact tally_recordHit _ t

theorem tally_insert
    (s : SiteState)
    (entry : Entry) :
    (s.insert entry).tally = s.tally := by
  unfold insert
  split <;> rfl

/- A step counts the call that it belongs to. -/
theorem tally_step
    (t : Tuning)
    (s : SiteState)
    (step : SiteStep) :
    (s.step t step).hits + (s.step t step).misses =
        s.hits + s.misses + (if step.isAccess then 1 else 0) ∧
      (s.step t step).cold =
        s.cold + (if step.isCold then 1 else 0) := by
  cases step with
  | access key =>
      have hTally := s.tally_access t key
      simp only [tally] at hTally
      split at hTally
      all_goals
        simp only [Prod.mk.injEq] at hTally
        simp only [SiteState.step, SiteStep.isAccess,
          SiteStep.isCold, hTally, if_true]
        exact ⟨by omega, rfl⟩
  | insert entry =>
      have hTally := s.tally_insert entry
      simp only [tally, Prod.mk.injEq] at hTally
      simp [SiteState.step, SiteStep.isAccess, SiteStep.isCold,
        hTally]
  | cold => exact ⟨rfl, rfl⟩

/- Hits and misses count the accesses, and `cold` the cold calls. -/
theorem tally_run
    (t : Tuning)
    (steps : List SiteStep) :
    (run t steps).hits + (run t steps).misses =
        steps.countP SiteStep.isAccess ∧
      (run t steps).cold = steps.countP SiteStep.isCold := by
  induction steps using List.reverseRecOn with
  | nil => exact ⟨rfl, rfl⟩
  | append_singleton steps last ih =>
      have hStep := (run t steps).tally_step t last
      rw [run_concat, List.countP_append, List.countP_append,
        List.countP_singleton, List.countP_singleton, ← ih.1,
        ← ih.2]
      exact hStep

/- A run counts no more calls than it has steps. -/
theorem tally_run_le
    (t : Tuning)
    (steps : List SiteStep) :
    (run t steps).hits + (run t steps).misses + (run t steps).cold ≤
      steps.length := by
  have hOnce :
      steps.countP SiteStep.isAccess +
        steps.countP SiteStep.isCold ≤ steps.length := by
    induction steps with
    | nil => exact Nat.le_refl _
    | cons first rest ih =>
        rw [List.countP_cons, List.countP_cons, List.length_cons]
        cases first <;>
          simp only [SiteStep.isAccess, SiteStep.isCold, if_true,
            Bool.false_eq_true, if_false] <;>
          omega
  have hTally := tally_run t steps
  omega

------------------------------------------------------------
-- Promotions
------------------------------------------------------------

theorem promotions_advanceWindow
    (s : SiteState)
    (t : Tuning)
    (miss : Bool) :
    (s.advanceWindow t miss).2.promotions = s.promotions := by
  rcases s.advanceWindow_cases t miss with
    hEnd | ⟨_, hEnd⟩ | ⟨_, hEnd⟩ | ⟨_, hEnd⟩ | hEnd <;>
    rw [hEnd] <;> rfl

theorem promotions_considerPromotion_le
    (s : SiteState)
    (t : Tuning) :
    (s.considerPromotion t).2.promotions ≤ s.promotions + 1 := by
  rcases s.considerPromotion_cases t with
    hEnd | hEnd | ⟨_, _, hEnd⟩
  · rw [hEnd]
    exact Nat.le_succ _
  · rw [hEnd]
    exact Nat.le_succ _
  · exact Nat.le_of_eq (congrArg promotions hEnd)

/- A step promotes a site at most once. -/
theorem promotions_step_le
    (t : Tuning)
    (s : SiteState)
    (step : SiteStep) :
    (s.step t step).promotions ≤ s.promotions + 1 := by
  cases step with
  | access key =>
      rw [SiteState.step]
      cases hFind : s.find? key with
      | none =>
          rw [access_of_absent t hFind]
          by_cases hAdapts : t.adapts = true
          · rw [recordMiss_of_adapts s hAdapts]
            apply Nat.le_trans
              (promotions_considerPromotion_le _ t)
            rw [promotions_advanceWindow]
            exact Nat.le_refl _
          · rw [recordMiss_of_fixed s hAdapts]
            exact Nat.le_succ _
      | some entry =>
          rw [access_of_found t hFind]
          by_cases hAdapts : t.adapts = true
          · rw [recordHit_of_adapts _ hAdapts,
              promotions_advanceWindow]
            exact Nat.le_succ _
          · rw [recordHit_of_fixed _ hAdapts]
            exact Nat.le_succ _
  | insert entry =>
      rw [SiteState.step]
      unfold insert
      split <;> exact Nat.le_succ _
  | cold => exact Nat.le_succ _

theorem promotions_run_le
    (t : Tuning)
    (steps : List SiteStep) :
    (run t steps).promotions ≤ steps.length := by
  induction steps using List.reverseRecOn with
  | nil => exact Nat.le_refl _
  | append_singleton steps last ih =>
      have hStep := (run t steps).promotions_step_le t last
      rw [run_concat, List.length_append, List.length_singleton]
      omega

end SiteState

end RegisterVM
