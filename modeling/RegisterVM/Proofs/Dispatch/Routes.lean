import RegisterVM.Dispatch.Machine
import RegisterVM.Proofs.Object.Versions

/-
  What a site may remember. The right route for a key is a
  function of the heap alone; an entry fits a heap if its version
  is not from the future and its route is the right one as long
  as the class still has that version. Looking up, counting and
  inserting keep no entry that was not there or was just put in,
  and entries that fit go on fitting while the heap evolves.

  Key definitions include:
    * `Heap.route`
    * `Entry.Fits`
    * `Site.Coherent`

  Key theorems include:
    * `Entry.Fits.of_evolves`
    * `SiteState.mem_access`
    * `SiteState.route_access`
    * `SiteState.mem_insert`
-/

namespace RegisterVM

------------------------------------------------------------
-- The Right Route
------------------------------------------------------------

/- The route of a method, from what resolution finds. -/
def Heap.Resolved.route
    (cls : ClassId)
    (resolved : Heap.Resolved) : Route :=
  match resolved.record.body, resolved.slot with
  | none, _ => .generic
  | some _, some index => .slot cls index
  | some body, none =>
    .direct body resolved.record.visibility
      resolved.record.declaring

/- The route that a key and a name have in a heap. -/
def Heap.route
    (heap : Heap)
    (key : Key)
    (name : String) : Route :=
  if key.classScope then
    match heap.resolveStatic key.cls name with
    | some callable => .classScope callable
    | none =>
      .failure
        (.notFound (classScopeOwner (heap.className key.cls)) name)
  else
    match heap.found? key.cls name with
    | some resolved => resolved.route key.cls
    | none => .failure (.notFound (heap.className key.cls) name)

/- The right route depends on the layout of the class only. -/
theorem Heap.SameLayout.route
    {heap heap' : Heap}
    {key : Key}
    (hSame : Heap.SameLayout heap heap' key.cls)
    (name : String) :
    heap'.route key name = heap.route key name := by
  unfold Heap.route
  rw [hSame.resolveStatic, hSame.found?, hSame.className]

------------------------------------------------------------
-- Entries That Fit
------------------------------------------------------------

/-
  An entry of a site for a name fits a heap: it is not from the
  future, and it is right while its class has its version.
-/
structure Entry.Fits
    (heap : Heap)
    (name : String)
    (entry : Entry) : Prop where
  past : entry.key.version ≤ heap.epoch
  right :
    heap.version entry.key.cls = entry.key.version →
      entry.route = heap.route entry.key name

/-
  An entry that fits goes on fitting: a version that is still
  there stands for an unchanged layout, and one that is gone does
  not come back.
-/
theorem Entry.Fits.of_evolves
    {heap heap' : Heap}
    {name : String}
    {entry : Entry}
    (hFits : entry.Fits heap name)
    (hEvolves : heap.Evolves heap') :
    entry.Fits heap' name where
  past := Nat.le_trans hFits.past hEvolves.epoch_le
  right := by
    intro hVersion
    have hSame := hEvolves.sameLayout
      (Nat.le_trans (Nat.le_of_eq hVersion) hFits.past)
    rw [hSame.route]
    exact hFits.right (hSame.version.symm.trans hVersion)

/- All entries of a site fit a heap. -/
def Site.Coherent
    (heap : Heap)
    (site : Site) : Prop :=
  ∀ entry ∈ site.state.entries, entry.Fits heap site.name

theorem Site.Coherent.of_evolves
    {heap heap' : Heap}
    {site : Site}
    (hSite : site.Coherent heap)
    (hEvolves : heap.Evolves heap') :
    site.Coherent heap' :=
  fun entry hMem => (hSite entry hMem).of_evolves hEvolves

theorem Site.coherent_new
    (heap : Heap)
    (name : String)
    (tuning : Tuning) :
    (Site.new name tuning).Coherent heap := by
  intro entry hMem
  cases hMem

------------------------------------------------------------
-- Entries After A Step
------------------------------------------------------------

namespace SiteState

/- A lookup finds a route under the very key that was asked. -/
theorem route_lookup
    {s : SiteState}
    {key : Key}
    {route : Route}
    (hRoute : (s.lookup key).1 = some route) :
    ∃ entry ∈ s.entries,
      entry.key = key ∧ entry.route = route := by
  unfold lookup at hRoute
  cases hFind : s.find? key with
  | none =>
      rw [hFind] at hRoute
      cases hRoute
  | some entry =>
      rw [hFind] at hRoute
      cases hRoute
      have hKey := List.find?_some hFind
      exact ⟨entry, List.mem_of_find?_eq_some hFind,
        beq_iff_eq.mp hKey, rfl⟩

theorem mem_lookup
    {s : SiteState}
    {key : Key}
    {entry : Entry}
    (hMem : entry ∈ (s.lookup key).2.entries) :
    entry ∈ s.entries := by
  unfold lookup at hMem
  cases hFind : s.find? key with
  | none =>
      rw [hFind] at hMem
      exact hMem
  | some found =>
      rw [hFind] at hMem
      rcases List.mem_cons.mp hMem with hFront | hOther
      · rw [hFront]
        exact List.mem_of_find?_eq_some hFind
      · exact (List.mem_filter.mp hOther).1

theorem mem_insert
    {s : SiteState}
    {entry other : Entry}
    (hMem : other ∈ (s.insert entry).entries) :
    other = entry ∨ other ∈ s.entries := by
  unfold insert at hMem
  cases hFind : s.find? entry.key with
  | none =>
      rw [hFind] at hMem
      rcases List.mem_cons.mp hMem with hFront | hOther
      · exact Or.inl hFront
      · exact Or.inr (List.mem_of_mem_take hOther)
  | some found =>
      rw [hFind] at hMem
      rcases List.mem_cons.mp hMem with hFront | hOther
      · exact Or.inl hFront
      · exact Or.inr ((List.mem_filter.mp hOther).1)

/- The end of a window drops entries only by a demotion. -/
theorem mem_advanceWindow
    {s : SiteState}
    {t : Tuning}
    {miss : Bool}
    {entry : Entry}
    (hMem : entry ∈ (s.advanceWindow t miss).2.entries) :
    entry ∈ s.entries := by
  unfold advanceWindow at hMem
  split at hMem
  next =>
    dsimp only at hMem
    generalize (s.windowMisses + if miss = true then 1 else 0) =
      misses at hMem
    split at hMem
    next => exact hMem
    next =>
      split at hMem
      next => exact hMem
      next =>
        split at hMem
        next => exact List.mem_of_mem_take hMem
        next => exact hMem
  next => exact hMem

theorem entries_considerPromotion
    (s : SiteState)
    (t : Tuning) :
    (s.considerPromotion t).2.entries = s.entries := by
  unfold considerPromotion
  split
  next => rfl
  next =>
    dsimp only
    split <;> rfl

theorem mem_recordHit
    {s : SiteState}
    {t : Tuning}
    {entry : Entry}
    (hMem : entry ∈ (s.recordHit t).2.entries) :
    entry ∈ s.entries := by
  unfold recordHit at hMem
  dsimp only at hMem
  split at hMem
  next =>
    have hOld := mem_advanceWindow hMem
    exact hOld
  next => exact hMem

theorem mem_recordMiss
    {s : SiteState}
    {t : Tuning}
    {entry : Entry}
    (hMem : entry ∈ (s.recordMiss t).2.entries) :
    entry ∈ s.entries := by
  unfold recordMiss at hMem
  dsimp only at hMem
  split at hMem
  next =>
    rw [entries_considerPromotion] at hMem
    have hOld := mem_advanceWindow hMem
    exact hOld
  next => exact hMem

/- An access brings in no entry. -/
theorem mem_access
    {s : SiteState}
    {t : Tuning}
    {key : Key}
    {entry : Entry}
    (hMem : entry ∈ (s.access t key).2.entries) :
    entry ∈ s.entries := by
  unfold access at hMem
  rcases hLookup : s.lookup key with ⟨found, state⟩
  have hState : state = (s.lookup key).2 := by
    rw [hLookup]
  rw [hLookup] at hMem
  apply mem_lookup
  rw [← hState]
  cases found with
  | none => exact mem_recordMiss hMem
  | some route => exact mem_recordHit hMem

/- An access yields what the lookup of its key finds. -/
theorem route_access
    (s : SiteState)
    (t : Tuning)
    (key : Key) :
    (s.access t key).1.route = (s.lookup key).1 := by
  unfold access
  rcases s.lookup key with ⟨_ | route, state⟩ <;> rfl

end SiteState

end RegisterVM
