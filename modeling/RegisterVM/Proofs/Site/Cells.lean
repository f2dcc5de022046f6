import Mathlib.Algebra.Group.Nat.Defs
import RegisterVM.Proofs.Site.Steps

/-
  A site in memory. The entries of a site lie in four cells, of
  which the first ones are active, and its counters are words of
  32 and 64 bits. A step rotates cells in place and counts in
  words; a sum or a product that does not fit its word ends the
  run. No run ends so, and the cells and words always stand for
  the entries and numbers of the site.

  Key definitions include:
    * `Word.add32`, `Word.add64`, `Word.mul64`
    * `SiteCells`
    * `SiteCells.step`
    * `SiteCells.run`
    * `SiteCells.Stores`

  Key theorems include:
    * `SiteCells.Stores.step`
    * `SiteCells.run_stores`
    * `SiteState.run_in_memory`
-/

namespace RegisterVM

------------------------------------------------------------
-- Words
------------------------------------------------------------

namespace Word

/- The sum of two words, if it fits. -/
def add32
    (a b : UInt32) : Option UInt32 :=
  if a.toNat + b.toNat < 2 ^ 32 then some (a + b) else none

def add64
    (a b : UInt64) : Option UInt64 :=
  if a.toNat + b.toNat < 2 ^ 64 then some (a + b) else none

/- The product of two words, if it fits. -/
def mul64
    (a b : UInt64) : Option UInt64 :=
  if a.toNat * b.toNat < 2 ^ 64 then some (a * b) else none

/- One more, or the greatest word. -/
def next32
    (a : UInt32) : UInt32 :=
  if a.toNat + 1 < 2 ^ 32 then a + 1 else 0xffffffff

theorem add32_eq_some
    {a b : UInt32}
    (hFits : a.toNat + b.toNat < 2 ^ 32) :
    ∃ c, add32 a b = some c ∧ c.toNat = a.toNat + b.toNat := by
  refine ⟨a + b, if_pos hFits, ?_⟩
  rw [UInt32.toNat_add, Nat.mod_eq_of_lt hFits]

theorem add64_eq_some
    {a b : UInt64}
    (hFits : a.toNat + b.toNat < 2 ^ 64) :
    ∃ c, add64 a b = some c ∧ c.toNat = a.toNat + b.toNat := by
  refine ⟨a + b, if_pos hFits, ?_⟩
  rw [UInt64.toNat_add, Nat.mod_eq_of_lt hFits]

theorem mul64_eq_some
    {a b : UInt64}
    (hFits : a.toNat * b.toNat < 2 ^ 64) :
    ∃ c, mul64 a b = some c ∧ c.toNat = a.toNat * b.toNat := by
  refine ⟨a * b, if_pos hFits, ?_⟩
  rw [UInt64.toNat_mul, Nat.mod_eq_of_lt hFits]

theorem toNat_min32
    (a b : UInt32) :
    (min a b).toNat = min a.toNat b.toNat := by
  show (if a ≤ b then a else b).toNat = _
  split
  next hLe =>
    rw [UInt32.le_iff_toNat_le] at hLe
    omega
  next hLt =>
    rw [UInt32.le_iff_toNat_le] at hLt
    omega

/- A capped count is the same in words. -/
theorem toNat_min_next32
    (a cap : UInt32) :
    (min (next32 a) cap).toNat = min (a.toNat + 1) cap.toNat := by
  have hCap := cap.toNat_lt
  rw [toNat_min32]
  unfold next32
  split
  next hFits =>
    rw [UInt32.toNat_add, UInt32.toNat_one, Nat.mod_eq_of_lt hFits]
  next =>
    have hMax : (0xffffffff : UInt32).toNat = 2 ^ 32 - 1 := rfl
    omega

/- The product of two counts fits, and so is the exact one. -/
theorem mul64_counts
    (a b : UInt32) :
    ∃ product,
      mul64 a.toUInt64 b.toUInt64 = some product ∧
        product.toNat = a.toNat * b.toNat := by
  have hFits : a.toUInt64.toNat * b.toUInt64.toNat < 2 ^ 64 := by
    have hLeft := a.toNat_lt
    have hRight := b.toNat_lt
    simp only [UInt32.toNat_toUInt64]
    calc
      a.toNat * b.toNat ≤ (2 ^ 32 - 1) * (2 ^ 32 - 1) :=
        Nat.mul_le_mul (by omega) (by omega)
      _ < 2 ^ 64 := by decide
  rcases mul64_eq_some hFits with ⟨product, hMul, hValue⟩
  refine ⟨product, hMul, ?_⟩
  simpa using hValue

/- Misses in a hundred and a share of accesses are compared as numbers. -/
theorem shares
    (misses percent accesses : UInt32) :
    ∃ missed limit : UInt64,
      mul64 misses.toUInt64 100 = some missed ∧
        mul64 percent.toUInt64 accesses.toUInt64 =
          some limit ∧
        missed.toNat = misses.toNat * 100 ∧
        limit.toNat = percent.toNat * accesses.toNat := by
  rcases mul64_counts misses 100 with ⟨missed, hMul, hMissed⟩
  rcases mul64_counts percent accesses with
    ⟨limit, hMul', hLimit⟩
  exact ⟨missed, limit, hMul, hMul', hMissed, hLimit⟩

/- A count up to the cap. -/
theorem toNat_capped
    {t : Tuning}
    {count : UInt32}
    {value : Nat}
    (hValue : count.toNat = value) :
    (min (next32 count) t.counterCap).toNat =
      SiteState.capped t value := by
  rw [toNat_min_next32, hValue]
  rfl

end Word

------------------------------------------------------------
-- Cells
------------------------------------------------------------

/- A site as it lies in memory. -/
structure SiteCells where
  cells : List (Option Entry) := List.replicate maxEntries none
  active : Nat := baseEntries
  promoted : Bool := false
  freeze : UInt32 := 0
  lifetimeAccesses : UInt32 := 0
  lifetimeMisses : UInt32 := 0
  windowAccesses : UInt32 := 0
  windowMisses : UInt32 := 0
  hits : UInt64 := 0
  misses : UInt64 := 0
  cold : UInt64 := 0
  promotions : UInt64 := 0
  demotions : UInt64 := 0

namespace SiteCells

/- A fresh site. -/
def fresh
    (t : Tuning) : SiteCells :=
  { active := if t.alwaysFour then maxEntries else baseEntries }

/- Whether a cell holds an entry of a key. -/
def holds
    (key : Key)
    (cell : Option Entry) : Bool :=
  cell.any fun entry => entry.key == key

/- The place of a key among the active cells. -/
def place?
    (c : SiteCells)
    (key : Key) : Option Nat :=
  (c.cells.take c.active).findIdx? (holds key)

/- The entry in a cell. -/
def occupant?
    (c : SiteCells)
    (place : Nat) : Option Entry :=
  c.cells[place]?.join

/- Rotate the cells up to a place: the last comes to the front. -/
def rotate
    (cells : List (Option Entry))
    (place : Nat) : List (Option Entry) :=
  (cells.take (place + 1)).rotateRight 1 ++ cells.drop (place + 1)

/- Find the route of a key and rotate its cell to the front. -/
def lookup
    (c : SiteCells)
    (key : Key) : Option Route × SiteCells :=
  match c.place? key with
  | none => (none, c)
  | some place =>
    let cells := rotate c.cells place
    (cells.head?.join.map Entry.route, { c with cells })

/-
  Rotate the cell of an entry of the same key to the front, or
  else the last active cell, and overwrite it.
-/
def insert
    (c : SiteCells)
    (entry : Entry) : SiteCells :=
  let place := (c.place? entry.key).getD (c.active - 1)
  { c with cells := (rotate c.cells place).set 0 (some entry) }

/- Empty all but two cells and freeze. -/
def demote
    (c : SiteCells)
    (t : Tuning) : Option SiteCells := do
  let demotions ← Word.add64 c.demotions 1
  return { c with
    promoted := false
    active := baseEntries
    cells :=
      c.cells.take baseEntries
        ++ List.replicate (maxEntries - baseEntries) none
    freeze := t.freezeWindows
    lifetimeAccesses := 0
    lifetimeMisses := 0
    demotions }

/- Count one access in the current window. -/
def advanceWindow
    (c : SiteCells)
    (t : Tuning)
    (miss : Bool) : Option SiteCells := do
  if t.windowedDemotion then
    let accesses ← Word.add32 c.windowAccesses 1
    let misses ← Word.add32 c.windowMisses (if miss then 1 else 0)
    if accesses < t.window then
      return { c with windowAccesses := accesses, windowMisses := misses }
    let c := { c with windowAccesses := 0, windowMisses := 0 }
    if 0 < c.freeze then
      return { c with freeze := c.freeze - 1 }
    if c.promoted then
      let missed ← Word.mul64 misses.toUInt64 100
      let limit ←
        Word.mul64 t.demoteMissPct.toUInt64 accesses.toUInt64
      if limit ≤ missed then
        c.demote t
      else
        return c
    else
      return c
  else
    return c

/- Count a hit. -/
def recordHit
    (c : SiteCells)
    (t : Tuning) : Option SiteCells := do
  let hits ← Word.add64 c.hits 1
  let c := { c with hits }
  if t.adapts then
    let lifetimeAccesses :=
      min (Word.next32 c.lifetimeAccesses) t.counterCap
    advanceWindow { c with lifetimeAccesses } t false
  else
    return c

/- Compare the share of misses with the limit of a promotion. -/
def considerPromotion
    (c : SiteCells)
    (t : Tuning) : Option SiteCells := do
  if c.promoted ∨ 0 < c.freeze
      ∨ c.lifetimeAccesses < t.promoteAfter then
    return c
  let missed ← Word.mul64 c.lifetimeMisses.toUInt64 100
  let limit ←
    Word.mul64 t.promoteMissPct.toUInt64 c.lifetimeAccesses.toUInt64
  let c := { c with lifetimeAccesses := 0, lifetimeMisses := 0 }
  if limit < missed then
    let promotions ← Word.add64 c.promotions 1
    return { c with promoted := true, active := maxEntries, promotions }
  else
    return c

/- Count a miss. -/
def recordMiss
    (c : SiteCells)
    (t : Tuning) : Option SiteCells := do
  let misses ← Word.add64 c.misses 1
  let c := { c with misses }
  if t.adapts then
    let lifetimeAccesses :=
      min (Word.next32 c.lifetimeAccesses) t.counterCap
    let lifetimeMisses :=
      min (Word.next32 c.lifetimeMisses) t.counterCap
    let c ←
      advanceWindow { c with lifetimeAccesses, lifetimeMisses } t true
    c.considerPromotion t
  else
    return c

/- Look a key up and count a hit or a miss. -/
def access
    (c : SiteCells)
    (t : Tuning)
    (key : Key) : Option SiteCells :=
  match c.lookup key with
  | (some _, c) => c.recordHit t
  | (none, c) => c.recordMiss t

/- The site after a step, unless something does not fit. -/
def step
    (t : Tuning)
    (c : SiteCells) : SiteStep → Option SiteCells
  | .access key => c.access t key
  | .insert entry => some (c.insert entry)
  | .cold => do
    let cold ← Word.add64 c.cold 1
    return { c with cold }

/- A fresh site after some steps, unless something does not fit. -/
def run
    (t : Tuning)
    (steps : List SiteStep) : Option SiteCells :=
  steps.foldlM (step t) (fresh t)

------------------------------------------------------------
-- What Cells And Words Stand For
------------------------------------------------------------

/- The cells of some entries: these in front, and the rest empty. -/
def pack
    (entries : List Entry) : List (Option Entry) :=
  entries.map some
    ++ List.replicate (maxEntries - entries.length) none

/- Cells and words that stand for the state of a site. -/
structure Stores
    (c : SiteCells)
    (s : SiteState) : Prop where
  cells : c.cells = pack s.entries
  active : c.active = s.active
  promoted : c.promoted = s.promoted
  freeze : c.freeze.toNat = s.freeze
  lifetimeAccesses : c.lifetimeAccesses.toNat = s.lifetimeAccesses
  lifetimeMisses : c.lifetimeMisses.toNat = s.lifetimeMisses
  windowAccesses : c.windowAccesses.toNat = s.windowAccesses
  windowMisses : c.windowMisses.toNat = s.windowMisses
  hits : c.hits.toNat = s.hits
  misses : c.misses.toNat = s.misses
  cold : c.cold.toNat = s.cold
  promotions : c.promotions.toNat = s.promotions
  demotions : c.demotions.toNat = s.demotions

theorem Stores.fresh
    (t : Tuning) :
    Stores (fresh t) (.fresh t) := by
  constructor <;> rfl

------------------------------------------------------------
-- Rotating Cells
------------------------------------------------------------

theorem rotateRight_concat
    (front : List (Option Entry))
    (cell : Option Entry) :
    (front ++ [cell]).rotateRight 1 = cell :: front := by
  cases front with
  | nil => rfl
  | cons first rest =>
      have hLength : ¬ (first :: rest ++ [cell]).length ≤ 1 := by
        simp
      have hTurn :
          (first :: rest ++ [cell]).length -
              1 % (first :: rest ++ [cell]).length =
            (first :: rest).length := by
        rw [Nat.mod_eq_of_lt (Nat.lt_of_not_le hLength)]
        simp
      unfold List.rotateRight
      rw [if_neg hLength]
      dsimp only
      rw [hTurn, List.drop_left, List.take_left]
      rfl

/- Rotating up to a cell brings it before the cells up to it. -/
theorem rotate_append
    (front : List (Option Entry))
    (cell : Option Entry)
    (rest : List (Option Entry)) :
    rotate (front ++ cell :: rest) front.length =
      cell :: (front ++ rest) := by
  have hSplit :
      front ++ cell :: rest = (front ++ [cell]) ++ rest := by
    simp
  have hLength : front.length + 1 = (front ++ [cell]).length := by
    simp
  rw [rotate, hSplit, hLength, List.take_left, List.drop_left,
    rotateRight_concat]
  rfl

/- The empty cells after some entries and one more. -/
def rest
    (front back : List Entry) : List (Option Entry) :=
  back.map some
    ++ List.replicate (maxEntries - (front ++ back).length - 1) none

theorem pack_append
    (front : List Entry)
    (entry : Entry)
    (back : List Entry) :
    pack (front ++ entry :: back) =
      front.map some ++ some entry :: rest front back := by
  have hFree :
      maxEntries - (front ++ entry :: back).length =
        maxEntries - (front ++ back).length - 1 := by
    simp only [List.length_append, List.length_cons]
    omega
  rw [pack, hFree]
  simp [rest]

theorem pack_cons
    (front : List Entry)
    (entry : Entry)
    (back : List Entry) :
    pack (entry :: (front ++ back)) =
      some entry :: (front.map some ++ rest front back) := by
  have hFree :
      maxEntries - (entry :: (front ++ back)).length =
        maxEntries - (front ++ back).length - 1 := by
    simp only [List.length_cons]
    omega
  rw [pack, hFree]
  simp [rest]

/- Rotating the cell of an entry moves the entry to the front. -/
theorem rotate_pack
    (front : List Entry)
    (entry : Entry)
    (back : List Entry) :
    rotate (pack (front ++ entry :: back)) front.length =
      pack (entry :: (front ++ back)) := by
  have hRotate :=
    rotate_append (front.map some) (some entry) (rest front back)
  rw [List.length_map] at hRotate
  rw [pack_append, pack_cons, hRotate]

/-
  Overwriting the last active cell drops the oldest entry of a
  full site and nothing of any other.
-/
theorem rotate_pack_last
    {entries : List Entry}
    {active : Nat}
    (hActive : active = 2 ∨ active = 4)
    (hLength : entries.length ≤ active)
    (entry : Entry) :
    (rotate (pack entries) (active - 1)).set 0 (some entry) =
      pack (entry :: entries.take (active - 1)) := by
  rcases hActive with rfl | rfl
  · match entries, hLength with
    | [], _ | [_], _ | [_, _], _ => rfl
  · match entries, hLength with
    | [], _ | [_], _ | [_, _], _ | [_, _, _], _
    | [_, _, _, _], _ => rfl

/- Emptying all but two cells keeps the first two entries. -/
theorem take_pack
    {entries : List Entry}
    (hLength : entries.length ≤ 4) :
    (pack entries).take baseEntries
        ++ List.replicate (maxEntries - baseEntries) none =
      pack (entries.take baseEntries) := by
  match entries, hLength with
  | [], _ | [_], _ | [_, _], _ | [_, _, _], _
  | [_, _, _, _], _ => rfl

------------------------------------------------------------
-- Entries
------------------------------------------------------------

namespace Stores

variable {t : Tuning} {c : SiteCells} {s : SiteState}

/- The active cells hold the entries and are empty after them. -/
theorem take_active
    (hStores : c.Stores s)
    (hBalanced : s.Balanced t) :
    ∃ free,
      c.cells.take c.active =
        s.entries.map some ++ List.replicate free none := by
  have hLength := hBalanced.entries
  refine ⟨min (s.active - s.entries.length)
    (maxEntries - s.entries.length), ?_⟩
  rw [hStores.cells, hStores.active, pack, List.take_append,
    List.take_of_length_le (by simpa using hLength),
    List.take_replicate, List.length_map]

/- A cell holds the entry of its place. -/
theorem occupant?_eq
    (hStores : c.Stores s)
    (place : Nat) :
    c.occupant? place = s.entries[place]? := by
  rw [occupant?, hStores.cells, pack, List.getElem?_append,
    List.length_map, List.getElem?_map, List.getElem?_replicate]
  split
  next hPlace => rw [List.getElem?_eq_getElem hPlace]; rfl
  next hPlace =>
    rw [List.getElem?_eq_none (Nat.le_of_not_lt hPlace)]
    split <;> rfl

theorem length_cells
    (hStores : c.Stores s)
    (hBalanced : s.Balanced t) :
    c.cells.length = maxEntries := by
  have hLength := hBalanced.entries
  have hActive := hBalanced.active_le_four
  rw [hStores.cells, pack, List.length_append, List.length_map,
    List.length_replicate]
  unfold maxEntries
  omega

/- A key has a place exactly when it is remembered. -/
theorem place?_eq
    (hStores : c.Stores s)
    (hBalanced : s.Balanced t)
    (key : Key) :
    c.place? key =
      s.entries.findIdx? fun entry => entry.key == key := by
  rcases hStores.take_active hBalanced with ⟨free, hTake⟩
  have hEmpty :
      (List.replicate free none).findIdx? (holds key) = none := by
    rw [List.findIdx?_eq_none_iff]
    intro cell hCell
    rw [List.eq_of_mem_replicate hCell]
    rfl
  rw [place?, hTake, List.findIdx?_append, hEmpty,
    List.findIdx?_map]
  simp [Function.comp_def, holds]

/- Other entries in the cells. -/
theorem withEntries
    (hStores : c.Stores s)
    {cells : List (Option Entry)}
    {entries : List Entry}
    (hCells : cells = pack entries) :
    Stores { c with cells } { s with entries } :=
  { hStores with cells := hCells }

/- A lookup finds the same route and leaves the same entries. -/
theorem lookup
    (hStores : c.Stores s)
    (hBalanced : s.Balanced t)
    (key : Key) :
    (c.lookup key).1 = (s.lookup key).1 ∧
      Stores (c.lookup key).2 (s.lookup key).2 := by
  have hPlace := hStores.place?_eq hBalanced key
  unfold SiteCells.lookup SiteState.lookup
  cases hFind : s.find? key with
  | none =>
      have hAbsent :
          (s.entries.findIdx? fun entry => entry.key == key) =
            none := by
        rw [List.findIdx?_eq_none_iff]
        simpa [SiteState.find?] using hFind
      rw [hPlace, hAbsent]
      exact ⟨rfl, hStores⟩
  | some entry =>
      rcases SiteState.split_of_found hBalanced hFind with
        ⟨front, back, hSplit, hOthers, hIndex⟩
      have hCells :
          rotate c.cells front.length =
            pack (entry :: s.others key) := by
        rw [hStores.cells, hSplit, rotate_pack, hOthers]
      rw [hPlace, hIndex]
      dsimp only
      refine ⟨?_, hStores.withEntries hCells⟩
      rw [hCells]
      rfl

theorem insert
    (hStores : c.Stores s)
    (hBalanced : s.Balanced t)
    (entry : Entry) :
    Stores (c.insert entry) (s.insert entry) := by
  have hPlace := hStores.place?_eq hBalanced entry.key
  unfold SiteCells.insert SiteState.insert
  cases hFind : s.find? entry.key with
  | none =>
      have hAbsent :
          (s.entries.findIdx? fun other =>
            other.key == entry.key) = none := by
        rw [List.findIdx?_eq_none_iff]
        simpa [SiteState.find?] using hFind
      have hActive : s.active = 2 ∨ s.active = 4 := by
        rw [hBalanced.active]
        split
        next => exact Or.inr rfl
        next => exact Or.inl rfl
      rw [hPlace, hAbsent]
      apply hStores.withEntries
      rw [Option.getD_none, hStores.cells, hStores.active]
      exact rotate_pack_last hActive hBalanced.entries entry
  | some found =>
      rcases SiteState.split_of_found hBalanced hFind with
        ⟨front, back, hSplit, hOthers, hIndex⟩
      rw [hPlace, hIndex]
      apply hStores.withEntries
      rw [Option.getD_some, hStores.cells, hSplit, rotate_pack,
        hOthers]
      rfl

------------------------------------------------------------
-- Counters
------------------------------------------------------------

/- The demotions of a promoted site are fewer than its promotions. -/
theorem demote
    (hStores : c.Stores s)
    (hBalanced : s.Balanced t)
    (hPromoted : s.promoted = true) :
    ∃ c', c.demote t = some c' ∧ Stores c' (s.demote t) := by
  have hPromotions := hBalanced.promotions
  rw [if_pos hPromoted, ← hStores.promotions,
    ← hStores.demotions] at hPromotions
  have hFits : c.demotions.toNat + (1 : UInt64).toNat < 2 ^ 64 := by
    rw [UInt64.toNat_one, ← hPromotions]
    exact c.promotions.toNat_lt
  rcases Word.add64_eq_some hFits with ⟨demotions, hAdd, hValue⟩
  have hLength : s.entries.length ≤ 4 :=
    Nat.le_trans hBalanced.entries hBalanced.active_le_four
  unfold SiteCells.demote
  rw [hAdd]
  refine ⟨_, rfl, ?_⟩
  refine
    { hStores with
      cells := ?_, active := rfl, promoted := rfl, freeze := rfl,
      lifetimeAccesses := rfl, lifetimeMisses := rfl,
      demotions := ?_ }
  · show c.cells.take _ ++ _ = _
    rw [hStores.cells]
    exact take_pack hLength
  · show demotions.toNat = s.demotions + 1
    rw [hValue, hStores.demotions, UInt64.toNat_one]

theorem zero_lt_freeze
    (hStores : c.Stores s) :
    0 < c.freeze ↔ 0 < s.freeze := by
  rw [UInt32.lt_iff_toNat_lt, hStores.freeze, UInt32.toNat_zero]

/- A frozen site thaws by one window. -/
theorem thaw
    (hStores : c.Stores s)
    (hFrozen : 0 < s.freeze) :
    Stores { c with freeze := c.freeze - 1 }
      { s with freeze := s.freeze - 1 } := by
  have hOne : (1 : UInt32) ≤ c.freeze := by
    rw [UInt32.le_iff_toNat_le, hStores.freeze]
    exact hFrozen
  refine { hStores with freeze := ?_ }
  show (c.freeze - 1).toNat = s.freeze - 1
  rw [UInt32.toNat_sub_of_le _ _ hOne, hStores.freeze,
    UInt32.toNat_one]

theorem newWindow
    (hStores : c.Stores s) :
    Stores { c with windowAccesses := 0, windowMisses := 0 }
      s.newWindow :=
  { hStores with windowAccesses := rfl, windowMisses := rfl }

theorem advanceWindow
    (hStores : c.Stores s)
    (hBalanced : s.Balanced t)
    (miss : Bool) :
    ∃ c', c.advanceWindow t miss = some c' ∧
      Stores c' (s.advanceWindow t miss).2 := by
  have hWindow := t.window.toNat_lt
  have hAccessed := hBalanced.windowAccesses
  have hMissed := hBalanced.windowMisses
  rw [← hStores.windowAccesses] at hAccessed
  rw [← hStores.windowMisses, ← hStores.windowAccesses] at hMissed
  have hOne : (if miss then 1 else 0 : UInt32).toNat ≤ 1 := by
    cases miss <;> decide
  rcases Word.add32_eq_some (a := c.windowAccesses) (b := 1)
      (by rw [UInt32.toNat_one]; omega) with
    ⟨accesses, hAdd, hAccesses⟩
  rcases Word.add32_eq_some (a := c.windowMisses)
      (b := if miss then 1 else 0) (by omega) with
    ⟨misses, hAdd', hMisses⟩
  rw [hStores.windowAccesses, UInt32.toNat_one] at hAccesses
  have hMisses :
      misses.toNat = s.windowMisses + if miss then 1 else 0 := by
    rw [hMisses, hStores.windowMisses]
    cases miss <;> rfl
  unfold SiteCells.advanceWindow SiteState.advanceWindow
  split
  next =>
    rw [hAdd, hAdd']
    simp only [← hMisses, ← hAccesses, Option.bind_eq_bind,
      Option.bind_some, ← UInt32.lt_iff_toNat_lt]
    split
    next =>
      exact ⟨_, rfl,
        { hStores with windowAccesses := rfl, windowMisses := rfl }⟩
    next =>
      have hNew := hStores.newWindow
      have hFreeze := hStores.zero_lt_freeze
      by_cases hFrozen : 0 < s.freeze
      · rw [if_pos (hFreeze.mpr hFrozen), if_pos hFrozen]
        exact ⟨_, rfl, hNew.thaw hFrozen⟩
      · rw [if_neg (mt hFreeze.mp hFrozen), if_neg hFrozen]
        by_cases hPromoted : s.promoted = true
        · rcases Word.shares misses t.demoteMissPct accesses with
            ⟨missed, limit, hMul, hMul', hMissed, hLimit⟩
          have hShare :
              limit ≤ missed ↔
                t.demoteMissPct.toNat * accesses.toNat ≤
                  misses.toNat * 100 := by
            rw [UInt64.le_iff_toNat_le, hMissed, hLimit]
          rw [if_pos (hStores.promoted.trans hPromoted), hMul,
            hMul']
          simp only [Option.bind_some]
          by_cases hOver : limit ≤ missed
          · rw [if_pos hOver, if_pos ⟨hPromoted, hShare.mp hOver⟩]
            exact hNew.demote hBalanced.newWindow hPromoted
          · rw [if_neg hOver,
              if_neg fun hBoth => hOver (hShare.mpr hBoth.2)]
            exact ⟨_, rfl, hNew⟩
        · have hPlain : ¬ c.promoted = true := by
            rw [hStores.promoted]
            exact hPromoted
          rw [if_neg hPlain, if_neg fun hBoth => hPromoted hBoth.1]
          exact ⟨_, rfl, hNew⟩
  next => exact ⟨c, rfl, hStores⟩

theorem considerPromotion
    (hStores : c.Stores s)
    (hRoom : s.promotions + 1 < 2 ^ 64) :
    ∃ c', c.considerPromotion t = some c' ∧
      Stores c' (s.considerPromotion t).2 := by
  have hEarly :
      (c.promoted = true ∨ 0 < c.freeze ∨
          c.lifetimeAccesses < t.promoteAfter) ↔
        (s.promoted = true ∨ 0 < s.freeze ∨
          s.lifetimeAccesses < t.promoteAfter.toNat) := by
    rw [hStores.promoted, hStores.zero_lt_freeze,
      UInt32.lt_iff_toNat_lt, hStores.lifetimeAccesses]
  unfold SiteCells.considerPromotion SiteState.considerPromotion
  split
  next hOut =>
    rw [if_pos (hEarly.mp hOut)]
    exact ⟨c, rfl, hStores⟩
  next hDue =>
    rw [if_neg (mt hEarly.mpr hDue)]
    rcases Word.shares c.lifetimeMisses t.promoteMissPct
        c.lifetimeAccesses with
      ⟨missed, limit, hMul, hMul', hMissed, hLimit⟩
    have hShare :
        limit < missed ↔
          t.promoteMissPct.toNat * s.lifetimeAccesses <
            s.lifetimeMisses * 100 := by
      rw [UInt64.lt_iff_toNat_lt, hMissed, hLimit,
        hStores.lifetimeAccesses, hStores.lifetimeMisses]
    have hNew :
        Stores { c with lifetimeAccesses := 0, lifetimeMisses := 0 }
          s.newLifetime :=
      { hStores with lifetimeAccesses := rfl, lifetimeMisses := rfl }
    rcases Word.add64_eq_some (a := c.promotions) (b := 1)
        (by rw [hStores.promotions]; exact hRoom) with
      ⟨promotions, hAdd, hPromotions⟩
    rw [hMul, hMul']
    simp only [Option.bind_eq_bind, Option.bind_some]
    by_cases hOver : limit < missed
    · rw [if_pos hOver, if_pos (hShare.mp hOver), hAdd]
      refine ⟨_, rfl, ?_⟩
      refine
        { hNew with
          active := rfl, promoted := rfl, promotions := ?_ }
      show promotions.toNat = s.promotions + 1
      rw [hPromotions, hStores.promotions, UInt64.toNat_one]
    · rw [if_neg hOver, if_neg (mt hShare.mpr hOver)]
      exact ⟨_, rfl, hNew⟩

theorem recordHit
    (hStores : c.Stores s)
    (hBalanced : s.Balanced t)
    (hRoom : s.hits + 1 < 2 ^ 64) :
    ∃ c', c.recordHit t = some c' ∧
      Stores c' (s.recordHit t).2 := by
  rcases Word.add64_eq_some (a := c.hits) (b := 1)
      (by rw [hStores.hits]; exact hRoom) with
    ⟨hits, hAdd, hHits⟩
  rw [hStores.hits, UInt64.toNat_one] at hHits
  have hCounted :
      Stores { c with hits } { s with hits := s.hits + 1 } :=
    { hStores with hits := hHits }
  unfold SiteCells.recordHit
  rw [hAdd]
  simp only [Option.bind_eq_bind, Option.bind_some]
  by_cases hAdapts : t.adapts = true
  · rw [if_pos hAdapts, SiteState.recordHit_of_adapts s hAdapts]
    apply advanceWindow _ hBalanced.countHit
    exact
      { hCounted with
        lifetimeAccesses := Word.toNat_capped hStores.lifetimeAccesses }
  · rw [if_neg hAdapts, SiteState.recordHit_of_fixed s hAdapts]
    exact ⟨_, rfl, hCounted⟩

theorem recordMiss
    (hStores : c.Stores s)
    (hBalanced : s.Balanced t)
    (hRoom : s.misses + 1 < 2 ^ 64)
    (hPromotions : s.promotions + 1 < 2 ^ 64) :
    ∃ c', c.recordMiss t = some c' ∧
      Stores c' (s.recordMiss t).2 := by
  rcases Word.add64_eq_some (a := c.misses) (b := 1)
      (by rw [hStores.misses]; exact hRoom) with
    ⟨misses, hAdd, hMisses⟩
  rw [hStores.misses, UInt64.toNat_one] at hMisses
  have hCounted :
      Stores { c with misses } { s with misses := s.misses + 1 } :=
    { hStores with misses := hMisses }
  unfold SiteCells.recordMiss
  rw [hAdd]
  simp only [Option.bind_eq_bind, Option.bind_some]
  by_cases hAdapts : t.adapts = true
  · rw [if_pos hAdapts, SiteState.recordMiss_of_adapts s hAdapts]
    have hMissed :
        Stores
          { c with
            misses
            lifetimeAccesses :=
              min (Word.next32 c.lifetimeAccesses) t.counterCap
            lifetimeMisses :=
              min (Word.next32 c.lifetimeMisses) t.counterCap }
          (s.countMiss t) :=
      { hCounted with
        lifetimeAccesses := Word.toNat_capped hStores.lifetimeAccesses
        lifetimeMisses := Word.toNat_capped hStores.lifetimeMisses }
    rcases hMissed.advanceWindow hBalanced.countMiss true with
      ⟨c', hWindow, hStores'⟩
    rw [hWindow, Option.bind_some]
    apply hStores'.considerPromotion
    rw [SiteState.promotions_advanceWindow]
    exact hPromotions
  · rw [if_neg hAdapts, SiteState.recordMiss_of_fixed s hAdapts]
    exact ⟨_, rfl, hCounted⟩

theorem access
    (hStores : c.Stores s)
    (hBalanced : s.Balanced t)
    (hHits : s.hits + 1 < 2 ^ 64)
    (hMisses : s.misses + 1 < 2 ^ 64)
    (hPromotions : s.promotions + 1 < 2 ^ 64)
    (key : Key) :
    ∃ c', c.access t key = some c' ∧
      Stores c' (s.access t key).2 := by
  have hLookup := hStores.lookup hBalanced key
  have hBalanced' := hBalanced.lookup key
  unfold SiteCells.access
  unfold SiteState.lookup at hLookup hBalanced'
  cases hFind : s.find? key with
  | none =>
      rw [hFind] at hLookup hBalanced'
      rw [SiteState.access_of_absent t hFind]
      rcases hCells : c.lookup key with ⟨found, c'⟩
      rw [hCells] at hLookup
      cases hLookup.1
      exact hLookup.2.recordMiss hBalanced hMisses hPromotions
  | some entry =>
      rw [hFind] at hLookup hBalanced'
      rw [SiteState.access_of_found t hFind]
      rcases hCells : c.lookup key with ⟨found, c'⟩
      rw [hCells] at hLookup
      cases hLookup.1
      exact hLookup.2.recordHit hBalanced' hHits

/- While its counts fit, a step in memory is the step of the site. -/
theorem step
    (hStores : c.Stores s)
    (hBalanced : s.Balanced t)
    {count : Nat}
    (hCount : count + 1 < 2 ^ 64)
    (hTally : s.hits + s.misses + s.cold ≤ count)
    (hPromotions : s.promotions ≤ count)
    (step : SiteStep) :
    ∃ c', c.step t step = some c' ∧ Stores c' (s.step t step) := by
  cases step with
  | access key =>
      exact hStores.access hBalanced (by omega) (by omega)
        (by omega) key
  | insert entry =>
      exact ⟨_, rfl, hStores.insert hBalanced entry⟩
  | cold =>
      rcases Word.add64_eq_some (a := c.cold) (b := 1)
          (by rw [hStores.cold, UInt64.toNat_one]; omega) with
        ⟨cold, hAdd, hCold⟩
      rw [hStores.cold, UInt64.toNat_one] at hCold
      refine ⟨{ c with cold }, ?_, { hStores with cold := hCold }⟩
      rw [SiteCells.step, hAdd]
      rfl

end Stores

------------------------------------------------------------
-- Runs
------------------------------------------------------------

/- A run in memory fits, and stands for the run of the site. -/
theorem run_stores
    (t : Tuning)
    {steps : List SiteStep}
    (hSteps : steps.length < 2 ^ 64) :
    ∃ c, run t steps = some c ∧ c.Stores (.run t steps) := by
  induction steps using List.reverseRecOn with
  | nil => exact ⟨fresh t, rfl, .fresh t⟩
  | append_singleton steps last ih =>
      rw [List.length_append, List.length_singleton] at hSteps
      rcases ih (by omega) with ⟨c, hRun, hStores⟩
      have hStep :=
        hStores.step (SiteState.balanced_run t steps) hSteps
          (SiteState.tally_run_le t steps)
          (SiteState.promotions_run_le t steps) last
      rcases hStep with ⟨c', hStep, hStores'⟩
      refine ⟨c', ?_, ?_⟩
      · rw [run] at hRun ⊢
        rw [List.foldlM_append, hRun]
        simpa using hStep
      · rw [SiteState.run_concat]
        exact hStores'

end SiteCells

------------------------------------------------------------
-- The State Of A Site
------------------------------------------------------------

namespace SiteState

/-
  Whatever the order of its steps, a site is balanced and counts
  its calls. In memory nothing overflows: the run ends in cells
  and words that stand for the state of the site. Of the four
  cells those that are not active are empty, no occupied cell
  comes after an empty one, and no two cells hold one key.
-/
theorem run_in_memory
    (t : Tuning)
    (steps : List SiteStep) :
    let s := run t steps
    s.Balanced t ∧
      s.hits + s.misses = steps.countP SiteStep.isAccess ∧
      s.cold = steps.countP SiteStep.isCold ∧
      (steps.length < 2 ^ 64 →
        ∃ c, SiteCells.run t steps = some c ∧ c.Stores s ∧
          c.cells.length = maxEntries ∧
          (∀ place, c.active ≤ place → c.occupant? place = none) ∧
          (∀ place earlier, earlier ≤ place →
            (c.occupant? place).isSome →
            (c.occupant? earlier).isSome) ∧
          ∀ place other, place ≠ other →
            ∀ entry entry', c.occupant? place = some entry →
              c.occupant? other = some entry' →
              entry.key ≠ entry'.key) := by
  intro s
  have hBalanced : s.Balanced t := balanced_run t steps
  have hTally := tally_run t steps
  refine ⟨hBalanced, hTally.1, hTally.2, ?_⟩
  intro hSteps
  rcases SiteCells.run_stores t hSteps with ⟨c, hRun, hStores⟩
  have hEntry : ∀ place, c.occupant? place = s.entries[place]? :=
    hStores.occupant?_eq
  refine ⟨c, hRun, hStores, hStores.length_cells hBalanced,
    ?_, ?_, ?_⟩
  · intro place hPlace
    rw [hStores.active] at hPlace
    rw [hEntry]
    exact List.getElem?_eq_none
      (Nat.le_trans hBalanced.entries hPlace)
  · intro place earlier hEarlier
    simp only [hEntry, isSome_getElem?]
    exact Nat.lt_of_le_of_lt hEarlier
  · intro place other hOther entry entry' hPlace hPlace' hSame
    rw [hEntry] at hPlace hPlace'
    have hKeys :
        (s.entries.map Entry.key)[place]? =
          (s.entries.map Entry.key)[other]? := by
      rw [List.getElem?_map, List.getElem?_map, hPlace, hPlace',
        Option.map_some, Option.map_some, hSame]
    have hIn : place < (s.entries.map Entry.key).length := by
      rw [List.length_map]
      exact (List.getElem?_eq_some_iff.mp hPlace).1
    exact hOther ((List.getElem?_inj hIn hBalanced.distinct).mp hKeys)

/-
  Three misses in a row: the first promotes the site and the
  third demotes it, so that only two of three entries stay.
-/
theorem run_in_memory_of_demotion :
    let t : Tuning :=
      { promoteAfter := 1, promoteMissPct := 0, window := 3,
        freezeWindows := 1 }
    let missed (id : ClassId) : List SiteStep :=
      [.access ⟨false, id, 1⟩, .insert ⟨⟨false, id, 1⟩, .generic⟩]
    let steps := missed 1 ++ missed 2 ++ missed 3
    let s := run t steps
    steps.length < 2 ^ 64 ∧ s.Balanced t ∧
      (s.promotions = 1 ∧ s.demotions = 1 ∧
        s.entries.length = 2) ∧
      ∃ c, SiteCells.run t steps = some c ∧ c.Stores s ∧
        ∀ place, c.active ≤ place → c.occupant? place = none := by
  intro t missed steps s
  have hLength : steps.length < 2 ^ 64 := by
    decide
  rcases run_in_memory t steps with ⟨hBalanced, _, _, hMemory⟩
  rcases hMemory hLength with ⟨c, hRun, hStores, _, hEmpty, _⟩
  exact ⟨hLength, hBalanced, by decide, c, hRun, hStores, hEmpty⟩

end SiteState

end RegisterVM
