import Mathlib.Data.List.Nodup
import Mathlib.Data.List.Perm.Subperm
import Mathlib.Data.List.TakeWhile
import RegisterVM.Proofs.Dispatch.Routes
import RegisterVM.Proofs.Site.Steps

/-
  What a site remembers, as long as every access that misses is
  followed by its insertion: the keys that were used last. The
  history of a site lists the keys of its visits, latest first;
  its distinct keys, most recent first, start with the keys of
  the entries. So whether a visit hits is decided by how many
  other keys were used since its own key was.

  Key definitions include:
    * `SiteState.visit`
    * `SiteState.Recalls`
    * `SiteState.Visits`
    * `Visit.Recent`
    * `usedSince`
    * `SiteState.Roomy`

  Key theorems include:
    * `SiteState.Recalls.visit`
    * `SiteState.Recalls.find?_iff`
    * `SiteState.Visits.recent`
    * `SiteState.Visits.misses_of_two`
-/

namespace RegisterVM

------------------------------------------------------------
-- Distinct Keys
------------------------------------------------------------

section Distinct

variable {α : Type} [BEq α] [LawfulBEq α]

theorem eraseDups_filter
    (p : α → Bool)
    (as : List α) :
    (as.filter p).eraseDups = as.eraseDups.filter p := by
  match as with
  | [] => rfl
  | a :: as =>
      have hShorter :
          (as.filter fun b => !b == a).length < as.length + 1 :=
        Nat.lt_succ_of_le (List.length_filter_le _ _)
      have hRest := eraseDups_filter p (as.filter fun b => !b == a)
      rw [List.eraseDups_cons]
      by_cases hFirst : p a = true
      · rw [List.filter_cons_of_pos hFirst,
          List.filter_cons_of_pos hFirst, List.eraseDups_cons,
          ← hRest, List.filter_filter, List.filter_filter]
        simp only [Bool.and_comm]
      · rw [List.filter_cons_of_neg hFirst,
          List.filter_cons_of_neg hFirst, ← hRest,
          List.filter_filter]
        congr 1
        apply List.filter_congr
        intro b _
        by_cases hSame : b = a
        · simp [hSame, hFirst]
        · simp [hSame]
termination_by as.length

theorem nodup_eraseDups
    (as : List α) :
    as.eraseDups.Nodup := by
  match as with
  | [] => exact List.nodup_nil
  | a :: as =>
      have hShorter :
          (as.filter fun b => !b == a).length < as.length + 1 :=
        Nat.lt_succ_of_le (List.length_filter_le _ _)
      rw [List.eraseDups_cons]
      refine List.nodup_cons.mpr ⟨?_, nodup_eraseDups _⟩
      rw [List.mem_eraseDups]
      simp
termination_by as.length

/- A use of a key brings it before the other keys. -/
theorem eraseDups_use
    (a : α)
    (as : List α) :
    (a :: as).eraseDups = a :: as.eraseDups.filter fun b => !b == a := by
  rw [List.eraseDups_cons, eraseDups_filter]

theorem length_eraseDups_le
    {as bs : List α}
    (hSubset : as ⊆ bs) :
    as.eraseDups.length ≤ bs.eraseDups.length := by
  apply List.Subperm.length_le
  apply List.subperm_of_subset (nodup_eraseDups as)
  intro a hMem
  exact List.mem_eraseDups.mpr (hSubset (List.mem_eraseDups.mp hMem))

theorem length_eraseDups_reverse
    (as : List α) :
    as.reverse.eraseDups.length = as.eraseDups.length := by
  apply Nat.le_antisymm
  · exact length_eraseDups_le (List.reverse_subset.mpr (List.Subset.refl as))
  · exact length_eraseDups_le (List.subset_reverse.mpr (List.Subset.refl as))

theorem length_eraseDups_of_mem
    {a : α}
    {as : List α}
    (hMem : a ∈ as) :
    (a :: as).eraseDups.length = as.eraseDups.length := by
  apply Nat.le_antisymm
  · exact length_eraseDups_le
      (List.cons_subset.mpr ⟨hMem, List.Subset.refl as⟩)
  · exact length_eraseDups_le (List.subset_cons_self a as)

theorem length_eraseDups_of_notMem
    {a : α}
    {as : List α}
    (hNew : a ∉ as) :
    (a :: as).eraseDups.length = as.eraseDups.length + 1 := by
  rw [eraseDups_use, List.length_cons, List.filter_eq_self.mpr]
  intro b hMem
  have hOther : b ≠ a :=
    fun hSame => hNew (hSame ▸ List.mem_eraseDups.mp hMem)
  simpa using hOther

end Distinct

/- The distinct other keys that were used since a key was. -/
def usedSince
    (history : List Key)
    (key : Key) : List Key :=
  (history.takeWhile fun other => other != key).eraseDups

/- They are just the keys that are more recent. -/
theorem eraseDups_split
    {history : List Key}
    {key : Key}
    (hMem : key ∈ history) :
    ∃ older,
      history.eraseDups = usedSince history key ++ key :: older := by
  unfold usedSince
  induction history with
  | nil => cases hMem
  | cons first rest ih =>
      rw [eraseDups_use]
      by_cases hFirst : first = key
      · rw [List.takeWhile_cons_of_neg (by simp [hFirst]), hFirst]
        exact ⟨_, rfl⟩
      · have hRest : key ∈ rest :=
          (List.mem_cons.mp hMem).resolve_left (Ne.symm hFirst)
        rcases ih hRest with ⟨older, hSplit⟩
        rw [List.takeWhile_cons_of_pos (by simpa using hFirst),
          eraseDups_use, hSplit, List.filter_append,
          List.filter_cons_of_pos (by simpa using Ne.symm hFirst)]
        exact ⟨_, rfl⟩

theorem notMem_usedSince
    (history : List Key)
    (key : Key) :
    key ∉ usedSince history key := by
  unfold usedSince
  rw [List.mem_eraseDups]
  intro hMem
  simpa using List.mem_takeWhile_imp hMem

/-
  A key is among the first so many distinct keys exactly when
  fewer other keys were used since.
-/
theorem mem_take_eraseDups_iff
    {history : List Key}
    {key : Key}
    (hMem : key ∈ history)
    (count : Nat) :
    key ∈ history.eraseDups.take count ↔
      (usedSince history key).length < count := by
  rcases eraseDups_split hMem with ⟨older, hSplit⟩
  rw [hSplit, List.take_append, List.mem_append]
  constructor
  · rintro (hUsed | hOlder)
    · exact absurd (List.mem_of_mem_take hUsed)
        (notMem_usedSince history key)
    · have hLeft : count - (usedSince history key).length ≠ 0 := by
        intro hZero
        rw [hZero] at hOlder
        cases hOlder
      omega
  · intro hLess
    refine Or.inr ?_
    have hLeft :
        count - (usedSince history key).length =
          count - (usedSince history key).length - 1 + 1 := by
      omega
    rw [hLeft, List.take_succ_cons]
    exact List.mem_cons_self

/- The entries that a site starts with. -/
def Tuning.initialEntries
    (t : Tuning) : Nat :=
  if t.alwaysFour then maxEntries else baseEntries

theorem Tuning.initialEntries_of_adapts
    {t : Tuning}
    (hAdapts : t.adapts = true) :
    t.initialEntries = baseEntries := by
  have hPlain : t.alwaysFour = false := by
    simp only [adapts, Bool.and_eq_true, Bool.not_eq_true']
      at hAdapts
    exact hAdapts.2
  simp [initialEntries, hPlain]

theorem Tuning.two_le_initialEntries
    (t : Tuning) :
    2 ≤ t.initialEntries := by
  unfold initialEntries
  split <;> decide

------------------------------------------------------------
-- Visits
------------------------------------------------------------

namespace SiteState

/- The keys of the entries, most recent first. -/
def keys
    (s : SiteState) : List Key :=
  s.entries.map Entry.key

/-
  What a call does to a site before its body runs: an access,
  and the insertion of the resolved route after a miss.
-/
def visit
    (s : SiteState)
    (t : Tuning)
    (key : Key)
    (route : Route) : SiteState :=
  match s.access t key with
  | (⟨some _, _⟩, s) => s
  | (⟨none, _⟩, s) => s.insert ⟨key, route⟩

theorem visit_of_found
    {s : SiteState}
    (t : Tuning)
    {key : Key}
    (route : Route)
    {entry : Entry}
    (hFind : s.find? key = some entry) :
    s.visit t key route = (s.access t key).2 := by
  have hRoute : (s.access t key).1.route = some entry.route := by
    unfold access lookup
    rw [hFind]
  unfold visit
  rcases hAccess : s.access t key with ⟨⟨found, notes⟩, s'⟩
  rw [hAccess] at hRoute
  cases hRoute
  rfl

theorem visit_of_absent
    {s : SiteState}
    (t : Tuning)
    {key : Key}
    (route : Route)
    (hFind : s.find? key = none) :
    s.visit t key route = (s.access t key).2.insert ⟨key, route⟩ := by
  have hRoute : (s.access t key).1.route = none := by
    unfold access lookup
    rw [hFind]
  unfold visit
  rcases hAccess : s.access t key with ⟨⟨found, notes⟩, s'⟩
  rw [hAccess] at hRoute
  cases hRoute
  rfl

theorem Balanced.visit
    {t : Tuning}
    {s : SiteState}
    (hBalanced : s.Balanced t)
    (key : Key)
    (route : Route) :
    (s.visit t key route).Balanced t := by
  cases hFind : s.find? key with
  | some entry =>
      rw [visit_of_found t route hFind]
      exact hBalanced.access key
  | none =>
      rw [visit_of_absent t route hFind]
      exact (hBalanced.access key).insert _

------------------------------------------------------------
-- Entries After Counting
------------------------------------------------------------

theorem entries_advanceWindow
    (s : SiteState)
    (t : Tuning)
    (miss : Bool) :
    (s.advanceWindow t miss).2.entries = s.entries ∨
      (s.advanceWindow t miss).2.entries =
        s.entries.take baseEntries := by
  rcases s.advanceWindow_cases t miss with
    hEnd | ⟨_, hEnd⟩ | ⟨_, hEnd⟩ | ⟨_, hEnd⟩ | hEnd <;> rw [hEnd]
  · exact Or.inl rfl
  · exact Or.inl rfl
  · exact Or.inl rfl
  · exact Or.inr rfl
  · exact Or.inl rfl

/- Counting drops entries only by a demotion. -/
theorem entries_recordHit
    (s : SiteState)
    (t : Tuning) :
    (s.recordHit t).2.entries = s.entries ∨
      t.adapts = true ∧
        (s.recordHit t).2.entries = s.entries.take baseEntries := by
  by_cases hAdapts : t.adapts = true
  · rw [recordHit_of_adapts s hAdapts]
    rcases (s.countHit t).entries_advanceWindow t false with
      hSame | hFewer
    · exact Or.inl hSame
    · exact Or.inr ⟨hAdapts, hFewer⟩
  · rw [recordHit_of_fixed s hAdapts]
    exact Or.inl rfl

theorem entries_recordMiss
    (s : SiteState)
    (t : Tuning) :
    (s.recordMiss t).2.entries = s.entries ∨
      t.adapts = true ∧
        (s.recordMiss t).2.entries =
          s.entries.take baseEntries := by
  by_cases hAdapts : t.adapts = true
  · rw [recordMiss_of_adapts s hAdapts]
    rw [entries_considerPromotion]
    rcases (s.countMiss t).entries_advanceWindow t true with
      hSame | hFewer
    · exact Or.inl hSame
    · exact Or.inr ⟨hAdapts, hFewer⟩
  · rw [recordMiss_of_fixed s hAdapts]
    exact Or.inl rfl

------------------------------------------------------------
-- Recency
------------------------------------------------------------

/-
  Some entries are those of the most recent keys of a history,
  and as many of these as a site has room for at all times.
-/
structure Recalls
    (t : Tuning)
    (history : List Key)
    (entries : List Entry) : Prop where
  recent : entries.map Entry.key <+: history.eraseDups
  kept :
    min t.initialEntries history.eraseDups.length ≤ entries.length

namespace Recalls

variable {t : Tuning} {history : List Key} {entries : List Entry}

theorem nil
    (t : Tuning) :
    Recalls t [] [] where
  recent := List.nil_prefix
  kept := Nat.min_le_right _ _

theorem keys_eq
    (hRecalls : Recalls t history entries) :
    entries.map Entry.key =
      history.eraseDups.take entries.length := by
  have hTake := List.prefix_iff_eq_take.mp hRecalls.recent
  rw [List.length_map] at hTake
  exact hTake

theorem mem_history
    (hRecalls : Recalls t history entries)
    {key : Key}
    (hMem : key ∈ entries.map Entry.key) :
    key ∈ history :=
  List.mem_eraseDups.mp (hRecalls.recent.subset hMem)

/- A remembered key was used after fewer others than there are entries. -/
theorem mem_iff
    (hRecalls : Recalls t history entries)
    {key : Key}
    (hMem : key ∈ history) :
    key ∈ entries.map Entry.key ↔
      (usedSince history key).length < entries.length := by
  rw [hRecalls.keys_eq]
  exact mem_take_eraseDups_iff hMem entries.length

/- A demotion leaves the two most recent keys. -/
theorem take_base
    (hRecalls : Recalls t history entries)
    (hAdapts : t.adapts = true) :
    Recalls t history (entries.take baseEntries) := by
  have hInitial := Tuning.initialEntries_of_adapts hAdapts
  have hKept := hRecalls.kept
  constructor
  · rw [List.map_take]
    exact (List.take_prefix _ _).trans hRecalls.recent
  · rw [List.length_take]
    omega

/- Counting keeps or demotes. -/
theorem of_entries
    (hRecalls : Recalls t history entries)
    {entries' : List Entry}
    (hEntries :
      entries' = entries ∨
        t.adapts = true ∧ entries' = entries.take baseEntries) :
    Recalls t history entries' := by
  rcases hEntries with rfl | ⟨hAdapts, rfl⟩
  · exact hRecalls
  · exact hRecalls.take_base hAdapts

/- An entry that is found and moved to the front. -/
theorem moveToFront
    {s : SiteState}
    (hBalanced : s.Balanced t)
    (hRecalls : Recalls t history s.entries)
    {key : Key}
    {entry : Entry}
    (hFind : s.find? key = some entry) :
    Recalls t (key :: history) (entry :: s.others key) := by
  have hKey : entry.key = key := by
    simpa using List.find?_some hFind
  have hMem : key ∈ s.entries.map Entry.key := by
    rw [← find?_isSome, hFind]
    rfl
  have hOthers :
      (s.others key).map Entry.key =
        (s.entries.map Entry.key).filter
          fun other => !other == key := by
    rw [List.filter_map]
    rfl
  have hFewer :
      (history.eraseDups.filter fun other => !other == key).length <
        history.eraseDups.length :=
    List.length_filter_lt_length_iff_exists.mpr
      ⟨key, hRecalls.recent.subset hMem, by simp⟩
  have hLength : s.entries.length = (s.others key).length + 1 := by
    rcases split_of_found hBalanced hFind with
      ⟨front, back, hSplit, hRest, _⟩
    rw [hSplit, hRest, List.length_append, List.length_append,
      List.length_cons, Nat.add_assoc]
  have hKept := hRecalls.kept
  constructor
  · rw [List.map_cons, hKey, hOthers, eraseDups_use]
    exact (List.prefix_cons_inj key).mpr
      (hRecalls.recent.filter _)
  · rw [eraseDups_use, List.length_cons, List.length_cons]
    omega

/- A new entry in front of as many others as there is room for. -/
theorem insertFront
    (hRecalls : Recalls t history entries)
    (entry : Entry)
    (hAbsent : entry.key ∉ entries.map Entry.key)
    {active : Nat}
    (hActive : t.initialEntries ≤ active)
    (hRoom : 0 < active) :
    Recalls t (entry.key :: history)
      (entry :: entries.take (active - 1)) := by
  have hKept := hRecalls.kept
  have hFewer :
      (history.eraseDups.filter fun other =>
          !other == entry.key).length ≤ history.eraseDups.length :=
    List.length_filter_le _ _
  constructor
  · have hOthers :
        (entries.map Entry.key).filter
            (fun other => !other == entry.key) =
          entries.map Entry.key := by
      rw [List.filter_eq_self]
      intro other hMem
      have hOther : other ≠ entry.key :=
        fun hSame => hAbsent (hSame ▸ hMem)
      simpa using hOther
    have hRecent := hRecalls.recent.filter fun other =>
      !other == entry.key
    rw [hOthers] at hRecent
    rw [List.map_cons, List.map_take, eraseDups_use]
    exact (List.prefix_cons_inj entry.key).mpr
      ((List.take_prefix _ _).trans hRecent)
  · rw [eraseDups_use, List.length_cons, List.length_cons,
      List.length_take]
    omega

end Recalls

/- A site has at least the entries that it starts with. -/
theorem Balanced.initialEntries_le
    {t : Tuning}
    {s : SiteState}
    (hBalanced : s.Balanced t) :
    t.initialEntries ≤ s.active := by
  rw [hBalanced.active, Tuning.initialEntries]
  cases t.alwaysFour <;> cases s.promoted <;> decide

/- And only a site that adapts ever has more. -/
theorem Balanced.active_eq_of_fixed
    {t : Tuning}
    {s : SiteState}
    (hBalanced : s.Balanced t)
    (hFixed : ¬ t.adapts = true) :
    s.active = t.initialEntries := by
  have hPlain : s.promoted = false := by
    cases hPromoted : s.promoted with
    | false => rfl
    | true => exact absurd (hBalanced.promoted hPromoted).1 hFixed
  simp [hBalanced.active, hPlain, Tuning.initialEntries]

/- A visit makes its key the most recent one. -/
theorem Recalls.visit
    {t : Tuning}
    {history : List Key}
    {s : SiteState}
    (hBalanced : s.Balanced t)
    (hRecalls : Recalls t history s.entries)
    (key : Key)
    (route : Route) :
    Recalls t (key :: history) (s.visit t key route).entries := by
  cases hFind : s.find? key with
  | some entry =>
      have hFront := hRecalls.moveToFront hBalanced hFind
      rw [visit_of_found t route hFind, access_of_found t hFind]
      exact hFront.of_entries (entries_recordHit _ t)
  | none =>
      have hAbsent : key ∉ s.entries.map Entry.key := by
        rw [← find?_isSome, hFind]
        simp
      have hAccess := hBalanced.access key
      have hActive := hAccess.initialEntries_le
      have hTwo := hAccess.two_le_active
      rw [visit_of_absent t route hFind]
      rw [access_of_absent t hFind] at hActive hTwo ⊢
      have hMissed := hRecalls.of_entries (s.entries_recordMiss t)
      have hAbsent' :
          key ∉ (s.recordMiss t).2.entries.map Entry.key := by
        intro hMem
        rcases List.mem_map.mp hMem with ⟨entry, hEntry, hKey⟩
        exact hAbsent
          (List.mem_map.mpr ⟨entry, mem_recordMiss hEntry, hKey⟩)
      have hNone : (s.recordMiss t).2.find? key = none := by
        rw [← find?_isSome] at hAbsent'
        simpa using hAbsent'
      unfold insert
      rw [hNone]
      exact hMissed.insertFront ⟨key, route⟩ hAbsent' hActive (by omega)

/- A visit counts one hit if its key is found, else one miss. -/
theorem tally_visit
    (s : SiteState)
    (t : Tuning)
    (key : Key)
    (route : Route) :
    (s.visit t key route).tally =
      if (s.find? key).isSome then (s.hits + 1, s.misses, s.cold)
      else (s.hits, s.misses + 1, s.cold) := by
  rw [← s.tally_access t key]
  cases hFind : s.find? key with
  | some entry => rw [visit_of_found t route hFind]
  | none => rw [visit_of_absent t route hFind, tally_insert]

------------------------------------------------------------
-- Hits And Misses
------------------------------------------------------------

namespace Recalls

variable {t : Tuning} {history : List Key} {s : SiteState}

/- A key that was never used is not found. -/
theorem find?_of_new
    (hRecalls : Recalls t history s.entries)
    {key : Key}
    (hNew : key ∉ history) :
    (s.find? key).isSome = false := by
  rw [Bool.eq_false_iff, ne_eq, find?_isSome]
  exact fun hMem => hNew (hRecalls.mem_history hMem)

/- A used key is found if fewer other keys were used since. -/
theorem find?_iff
    (hRecalls : Recalls t history s.entries)
    {key : Key}
    (hUsed : key ∈ history) :
    (s.find? key).isSome ↔
      (usedSince history key).length < s.entries.length := by
  rw [find?_isSome]
  exact hRecalls.mem_iff hUsed

/- So many entries are there at least. -/
theorem find?_of_near
    (hRecalls : Recalls t history s.entries)
    {key : Key}
    (hUsed : key ∈ history)
    (hNear : (usedSince history key).length < t.initialEntries) :
    (s.find? key).isSome = true := by
  have hKept := hRecalls.kept
  rcases eraseDups_split hUsed with ⟨older, hSplit⟩
  have hLength := congrArg List.length hSplit
  rw [List.length_append, List.length_cons] at hLength
  rw [hRecalls.find?_iff hUsed]
  omega

/- And no more than are active. -/
theorem find?_of_far
    (hBalanced : s.Balanced t)
    (hRecalls : Recalls t history s.entries)
    {key : Key}
    (hUsed : key ∈ history)
    (hFar : s.active ≤ (usedSince history key).length) :
    (s.find? key).isSome = false := by
  have hEntries := hBalanced.entries
  rw [Bool.eq_false_iff, ne_eq, hRecalls.find?_iff hUsed]
  omega

end Recalls

------------------------------------------------------------
-- Sequences Of Visits
------------------------------------------------------------

end SiteState

/- A call through a site: its key, and the site around it. -/
structure Visit where
  key : Key
  before : SiteState
  after : SiteState

namespace Visit

/- The call counts as a hit, and not as a miss. -/
def Hits
    (v : Visit) : Prop :=
  v.after.hits = v.before.hits + 1 ∧
    v.after.misses = v.before.misses

/- The call counts as a miss, and not as a hit. -/
def Misses
    (v : Visit) : Prop :=
  v.after.hits = v.before.hits ∧
    v.after.misses = v.before.misses + 1

/-
  A call behaves as the most recent one after some others: the
  keys of the entries are then the most recent ones, and it hits
  or misses by how many other keys were used since its own.
-/
structure Recent
    (t : Tuning)
    (past : List Key)
    (v : Visit) : Prop where
  keys :
    v.after.keys =
      (v.key :: past).eraseDups.take v.after.entries.length
  first : v.key ∉ past → v.Misses
  fixed :
    t.adapts = false → v.key ∈ past →
      ((usedSince past v.key).length < t.initialEntries →
          v.Hits) ∧
        (t.initialEntries ≤ (usedSince past v.key).length →
          v.Misses)
  adaptive :
    t.adapts = true → v.key ∈ past →
      ((usedSince past v.key).length < 2 → v.Hits) ∧
        (4 ≤ (usedSince past v.key).length → v.Misses)

theorem Recent.hits_of_near
    {t : Tuning}
    {past : List Key}
    {v : Visit}
    (hRecent : v.Recent t past)
    (hUsed : v.key ∈ past)
    (hNear : (usedSince past v.key).length < 2) :
    v.Hits := by
  cases hAdapts : t.adapts with
  | false =>
      apply (hRecent.fixed hAdapts hUsed).1
      exact Nat.lt_of_lt_of_le hNear t.two_le_initialEntries
  | true => exact (hRecent.adaptive hAdapts hUsed).1 hNear

end Visit

namespace SiteState

/-
  Calls through a site, in order. Between them the site may count
  cold calls.
-/
inductive Visits
    (t : Tuning) : SiteState → List Visit → SiteState → Prop where
  | nil (s : SiteState) : Visits t s [] s
  | cold {s s' : SiteState} {visits : List Visit}
      (hRest : Visits t s.coldCall visits s') :
    Visits t s visits s'
  | visit {s s' : SiteState} {key : Key} (route : Route)
      {visits : List Visit}
      (hRest : Visits t (s.visit t key route) visits s') :
    Visits t s (⟨key, s, s.visit t key route⟩ :: visits) s'

namespace Visits

variable {t : Tuning} {s s' s'' : SiteState}

theorem append
    {visits visits' : List Visit}
    (hFirst : Visits t s visits s')
    (hSecond : Visits t s' visits' s'') :
    Visits t s (visits ++ visits') s'' := by
  induction hFirst with
  | nil s => exact hSecond
  | cold _ ih => exact .cold (ih hSecond)
  | visit route _ ih => exact .visit route (ih hSecond)

end Visits

/- Every visit is the most recent one after those before it. -/
theorem recent_visit
    {t : Tuning}
    {past : List Key}
    {s : SiteState}
    (hBalanced : s.Balanced t)
    (hRecalls : Recalls t past s.entries)
    (key : Key)
    (route : Route) :
    Visit.Recent t past ⟨key, s, s.visit t key route⟩ := by
  have hTally := s.tally_visit t key route
  have hHits :
      (s.find? key).isSome = true →
        Visit.Hits ⟨key, s, s.visit t key route⟩ := by
    intro hFound
    rw [if_pos hFound] at hTally
    simp only [tally, Prod.mk.injEq] at hTally
    exact ⟨hTally.1, hTally.2.1⟩
  have hMisses :
      (s.find? key).isSome = false →
        Visit.Misses ⟨key, s, s.visit t key route⟩ := by
    intro hAbsent
    rw [if_neg (Bool.eq_false_iff.mp hAbsent)] at hTally
    simp only [tally, Prod.mk.injEq] at hTally
    exact ⟨hTally.1, hTally.2.1⟩
  refine ⟨?_, ?_, ?_, ?_⟩
  · exact (hRecalls.visit hBalanced key route).keys_eq
  · exact fun hNew => hMisses (hRecalls.find?_of_new hNew)
  · intro hFixed hUsed
    have hActive :=
      hBalanced.active_eq_of_fixed (Bool.eq_false_iff.mp hFixed)
    refine ⟨fun hNear => hHits (hRecalls.find?_of_near hUsed hNear),
      fun hFar => hMisses ?_⟩
    exact hRecalls.find?_of_far hBalanced hUsed (hActive ▸ hFar)
  · intro hAdapts hUsed
    have hFour := hBalanced.active_le_four
    refine ⟨fun hNear => hHits ?_, fun hFar => hMisses ?_⟩
    · exact hRecalls.find?_of_near hUsed
        (Nat.lt_of_lt_of_le hNear t.two_le_initialEntries)
    · exact hRecalls.find?_of_far hBalanced hUsed
        (Nat.le_trans hFour hFar)

namespace Visits

variable {t : Tuning} {s s' : SiteState}

theorem recent
    {visits : List Visit}
    (hVisits : Visits t s visits s')
    {past : List Key}
    (hBalanced : s.Balanced t)
    (hRecalls : Recalls t past s.entries)
    {n : Nat}
    {v : Visit}
    (hVisit : visits[n]? = some v) :
    v.Recent t (((visits.take n).map Visit.key).reverse ++ past) := by
  induction hVisits generalizing past n with
  | nil s => simp at hVisit
  | cold _ ih => exact ih (hBalanced.step .cold) hRecalls hVisit
  | @visit s s' key route visits _ ih =>
      cases n with
      | zero =>
          cases hVisit
          exact recent_visit hBalanced hRecalls key route
      | succ n =>
          have hRest :=
            ih (hBalanced.visit key route)
              (hRecalls.visit hBalanced key route) hVisit
          simpa using hRest

/- A site that sees at most two keys misses once for each. -/
theorem misses_of_two
    {visits : List Visit}
    (hVisits : Visits t s visits s')
    {past : List Key}
    (hBalanced : s.Balanced t)
    (hRecalls : Recalls t past s.entries)
    (hMisses : s.misses = past.eraseDups.length)
    (hTwo :
      ((visits.map Visit.key).reverse ++ past).eraseDups.length ≤
        2) :
    s'.misses =
      ((visits.map Visit.key).reverse ++ past).eraseDups.length := by
  induction hVisits generalizing past with
  | nil s => simpa using hMisses
  | cold _ ih => exact ih (hBalanced.step .cold) hRecalls hMisses hTwo
  | @visit s s' key route visits _ ih =>
      have hVisit := recent_visit hBalanced hRecalls key route
      have hKeys :
          ((⟨key, s, s.visit t key route⟩ :: visits :
              List Visit).map Visit.key).reverse ++ past =
            (visits.map Visit.key).reverse ++ key :: past := by
        simp
      rw [hKeys] at hTwo ⊢
      have hSoFar :
          (key :: past).eraseDups.length ≤ 2 :=
        Nat.le_trans
          (length_eraseDups_le (List.subset_append_right _ _)) hTwo
      refine ih (hBalanced.visit key route)
        (hRecalls.visit hBalanced key route) ?_ hTwo
      by_cases hUsed : key ∈ past
      · rw [length_eraseDups_of_mem hUsed] at hSoFar ⊢
        rcases eraseDups_split hUsed with ⟨older, hSplit⟩
        have hLength := congrArg List.length hSplit
        rw [List.length_append, List.length_cons] at hLength
        have hNear : (usedSince past key).length < 2 := by omega
        rw [← hMisses]
        exact (hVisit.hits_of_near hUsed hNear).2
      · rw [length_eraseDups_of_notMem hUsed, ← hMisses]
        exact (hVisit.first hUsed).2

end Visits

------------------------------------------------------------
-- Room For All Keys
------------------------------------------------------------

/- A key in front of all others keeps every key. -/
theorem keys_subset_cons_others
    (s : SiteState)
    (key : Key) :
    s.keys ⊆ key :: (s.others key).map Entry.key := by
  intro other hMem
  rcases List.mem_map.mp hMem with ⟨entry, hEntry, rfl⟩
  by_cases hSame : entry.key = key
  · rw [hSame]
    exact List.mem_cons_self
  · apply List.mem_cons_of_mem
    apply List.mem_map_of_mem
    exact List.mem_filter.mpr ⟨hEntry, by simpa using hSame⟩

/- A site that only ever holds a few keys, for which it has room. -/
structure Roomy
    (t : Tuning)
    (keys : List Key)
    (s : SiteState) : Prop where
  balanced : s.Balanced t
  among : s.keys ⊆ keys
  few : keys.eraseDups.length ≤ t.initialEntries

namespace Roomy

variable {t : Tuning} {keys : List Key} {s : SiteState}

/- Distinct keys among the few take no more room than these. -/
theorem length_le
    (hRoomy : s.Roomy t keys)
    {held : List Key}
    (hDistinct : held.Nodup)
    (hAmong : held ⊆ keys) :
    held.length ≤ t.initialEntries := by
  have hSubperm : held.Subperm keys.eraseDups := by
    apply List.subperm_of_subset hDistinct
    intro key hMem
    exact List.mem_eraseDups.mpr (hAmong hMem)
  exact Nat.le_trans hSubperm.length_le hRoomy.few

/- An access brings in no key. -/
theorem access
    (hRoomy : s.Roomy t keys)
    (key : Key) :
    (s.access t key).2.Roomy t keys where
  balanced := hRoomy.balanced.access key
  among := by
    intro other hMem
    rcases List.mem_map.mp hMem with ⟨entry, hEntry, rfl⟩
    exact hRoomy.among (List.mem_map_of_mem (mem_access hEntry))
  few := hRoomy.few

theorem insert
    (hRoomy : s.Roomy t keys)
    {entry : Entry}
    (hMem : entry.key ∈ keys) :
    (s.insert entry).Roomy t keys where
  balanced := hRoomy.balanced.insert entry
  among := by
    intro other hOther
    rcases List.mem_map.mp hOther with ⟨held, hHeld, rfl⟩
    rcases mem_insert hHeld with rfl | hOld
    · exact hMem
    · exact hRoomy.among (List.mem_map_of_mem hOld)
  few := hRoomy.few

/- A demotion drops none of the few keys. -/
theorem take_base
    (hRoomy : s.Roomy t keys)
    (hAdapts : t.adapts = true)
    {entries : List Entry}
    (hDistinct : (entries.map Entry.key).Nodup)
    (hAmong : entries.map Entry.key ⊆ keys) :
    entries.take baseEntries = entries := by
  have hLength := hRoomy.length_le hDistinct hAmong
  rw [List.length_map, Tuning.initialEntries_of_adapts hAdapts]
    at hLength
  exact List.take_of_length_le hLength

/- An access forgets no key. -/
theorem keys_access
    (hRoomy : s.Roomy t keys)
    (key : Key) :
    s.keys ⊆ (s.access t key).2.keys := by
  cases hFind : s.find? key with
  | none =>
      unfold SiteState.keys
      rw [access_of_absent t hFind]
      rcases s.entries_recordMiss t with hSame | ⟨hAdapts, hFewer⟩
      · rw [hSame]
        exact List.Subset.refl _
      · rw [hFewer, hRoomy.take_base hAdapts
          hRoomy.balanced.distinct hRoomy.among]
        exact List.Subset.refl _
  | some entry =>
      have hKey : entry.key = key := by
        simpa using List.find?_some hFind
      have hFront :
          s.keys ⊆ (entry :: s.others key).map Entry.key := by
        rw [List.map_cons, hKey]
        exact s.keys_subset_cons_others key
      have hAmong :
          (entry :: s.others key).map Entry.key ⊆ keys := by
        intro other hMem
        rcases List.mem_map.mp hMem with ⟨old, hOld, rfl⟩
        apply hRoomy.among
        apply List.mem_map_of_mem
        rcases List.mem_cons.mp hOld with rfl | hOther
        · exact List.mem_of_find?_eq_some hFind
        · exact (s.others_sublist key).subset hOther
      rw [access_of_found t hFind, SiteState.keys.eq_def
        (recordHit _ t).2]
      rcases entries_recordHit
          { s with entries := entry :: s.others key } t with
        hSame | ⟨hAdapts, hFewer⟩
      · rw [hSame]
        exact hFront
      · rw [hFewer, hRoomy.take_base hAdapts
          (hRoomy.balanced.nodup_cons_others hKey) hAmong]
        exact hFront

/- An insertion of one of the keys forgets none. -/
theorem keys_insert
    (hRoomy : s.Roomy t keys)
    {entry : Entry}
    (hMem : entry.key ∈ keys) :
    entry.key :: s.keys ⊆ (s.insert entry).keys := by
  apply List.cons_subset.mpr
  unfold SiteState.insert
  cases hFind : s.find? entry.key with
  | some found =>
      exact ⟨List.mem_cons_self, s.keys_subset_cons_others entry.key⟩
  | none =>
      have hAbsent : entry.key ∉ s.keys := by
        rw [SiteState.keys, ← find?_isSome, hFind]
        simp
      have hLength :=
        hRoomy.length_le
          (List.nodup_cons.mpr ⟨hAbsent, hRoomy.balanced.distinct⟩)
          (List.cons_subset.mpr ⟨hMem, hRoomy.among⟩)
      have hActive := hRoomy.balanced.initialEntries_le
      rw [List.length_cons, SiteState.keys, List.length_map]
        at hLength
      have hAll : s.entries.take (s.active - 1) = s.entries :=
        List.take_of_length_le (by omega)
      rw [hAll]
      exact ⟨List.mem_cons_self, List.subset_cons_self _ _⟩

end Roomy

end SiteState

end RegisterVM
