import RegisterVM.Proofs.Encoding.Fitting

/-
  Making functions of their parts. The widths chosen for an extent
  are the least valid ones that address it, and the check of the
  slots when a function is made agrees with this choice: parts that
  are fine otherwise make a function exactly if the slot width is
  not narrower than the chosen one.

  Key definitions include:
    * `FunctionParts.WellFormed`
    * `Widths.Addresses`
    * `Widths.AtLeast`

  Key theorems include:
    * `Function.ofParts_eq`
    * `Widths.addresses_iff`
    * `Extent.widths_least`
-/

namespace RegisterVM

------------------------------------------------------------
-- Checking Parts
------------------------------------------------------------

/- Parts that are fine but for their widths and slots. -/
structure FunctionParts.WellFormed
    (parts : FunctionParts) : Prop where
  depths : parts.scope.depths.length = parts.scopeCount
  indices : parts.scope.indices.length = parts.scopeCount
  names : parts.scope.names.length = parts.scopeCount
  tuning : parts.tuning.check = .ok ()

namespace Function

variable {parts : FunctionParts}

/- Of well-formed parts, only the number of slots is checked. -/
theorem ofParts_eq
    (hParts : parts.WellFormed)
    {decoder : Decoder}
    (hDecoder : Decoder.ofWidths parts.widths = .ok decoder) :
    ofParts parts =
      if parts.widths.maxValue .slot + 1 <
          parts.localCount + parts.argCount then
        .error
          ⟨parts.name,
            .slots (parts.localCount + parts.argCount)
              parts.widths.slot⟩
      else
        .ok
          { name := parts.name
            localCount := parts.localCount
            argCount := parts.argCount
            scope := parts.scope
            widths := parts.widths
            decoder
            consts := parts.consts
            statements := parts.statements
            code := parts.code
            tuning := parts.tuning } := by
  have hScope :
      parts.scope.depths.length = parts.scopeCount ∧
        parts.scope.indices.length = parts.scopeCount ∧
        parts.scope.names.length = parts.scopeCount :=
    ⟨hParts.depths, hParts.indices, hParts.names⟩
  unfold ofParts
  simp only [hDecoder, hParts.tuning, Except.mapError, bind,
    Except.bind, if_pos hScope]
  split
  next => rfl
  next => rfl

/- So many slots as the width has indices make a function. -/
theorem exists_ofParts_iff
    (hWidths : parts.widths.Valid)
    (hParts : parts.WellFormed) :
    (∃ fn, ofParts parts = .ok fn) ↔
      parts.localCount + parts.argCount ≤
        parts.widths.maxValue .slot + 1 := by
  rcases Decoder.ofWidths_of_valid hWidths with
    ⟨decoder, hDecoder, _⟩
  rw [ofParts_eq hParts hDecoder]
  split
  next hMany =>
    constructor
    · rintro ⟨fn, hFn⟩
      cases hFn
    · intro hFew
      omega
  next hFew => exact iff_of_true ⟨_, rfl⟩ (by omega)

end Function

------------------------------------------------------------
-- The Least Widths
------------------------------------------------------------

namespace Widths

/- Widths that address all slots, code and constants. -/
structure Addresses
    (w : Widths)
    (extent : Extent) : Prop where
  slots : extent.slots - 1 ≤ w.maxValue .slot
  codeLen : extent.codeLen ≤ w.maxValue .ip
  consts :
    extent.consts = 0 ∨ extent.consts - 1 ≤ w.maxValue .konst

/- Widths none of which is narrower than in others. -/
structure AtLeast
    (w least : Widths) : Prop where
  slot : least.slot ≤ w.slot
  ip : least.ip ≤ w.ip
  konst : least.konst ≤ w.konst

/- Each width is settled by the values of its kind. -/
theorem addresses_iff
    {extent : Extent}
    (hBounds : extent.Bounded)
    {w : Widths}
    (hValid : w.Valid) :
    w.Addresses extent ↔ w.AtLeast extent.widths := by
  have hKind := Extent.largest_le_maxValue_iff hBounds hValid
  constructor
  · rintro ⟨hSlots, hCode, hConsts⟩
    refine ⟨(hKind .slot).mp hSlots, (hKind .ip).mp hCode, ?_⟩
    apply (hKind .konst).mp
    show extent.consts - 1 ≤ w.maxValue .konst
    omega
  · rintro ⟨hSlot, hIp, hKonst⟩
    exact ⟨(hKind .slot).mpr hSlot, (hKind .ip).mpr hIp,
      Or.inr ((hKind .konst).mpr hKonst)⟩

end Widths

namespace Extent

/-
  The chosen widths are the least valid widths that address an
  extent. They pass the check; any widths that pass it address the
  extent exactly if none of them is narrower; and well-formed parts
  with that many slots make a function exactly if their slot width
  is not narrower.
-/
theorem widths_least
    (extent : Extent)
    (hBounds : extent.Bounded)
    (w : Widths)
    (hCheck : w.check = .ok ()) :
    (w.Addresses extent ↔ w.AtLeast extent.widths) ∧
      extent.widths.check = .ok () ∧
      ∀ parts : FunctionParts, parts.WellFormed →
        parts.widths = w →
        parts.localCount + parts.argCount = extent.slots →
        ((∃ fn, Function.ofParts parts = .ok fn) ↔
          extent.widths.slot ≤ w.slot) := by
  have hValid := (Widths.check_eq_ok_iff w).mp hCheck
  refine ⟨Widths.addresses_iff hBounds hValid, ?_, ?_⟩
  · exact (Widths.check_eq_ok_iff _).mpr extent.valid_widths
  · rintro parts hParts rfl hSlots
    have hSlot :
        extent.slots - 1 ≤ parts.widths.maxValue .slot ↔
          extent.widths.slot ≤ parts.widths.slot :=
      largest_le_maxValue_iff hBounds hValid .slot
    rw [Function.exists_ofParts_iff hValid hParts, hSlots, ← hSlot]
    omega

/-
  One slot more than one byte can tell apart, and as much code and
  as many constants as two bytes can: the least widths take two
  bytes for slots, and the compact ones make no function.
-/
theorem widths_least_of_257 :
    let extent : Extent := ⟨257, 65535, 65536⟩
    let parts : FunctionParts :=
      { name := "f", localCount := 256, argCount := 1 }
    extent.Bounded ∧ Widths.compact.check = .ok () ∧
      extent.widths = ⟨2, 2, 2⟩ ∧
      ¬Widths.compact.Addresses extent ∧
      parts.WellFormed ∧ parts.widths = .compact ∧
      ¬∃ fn, Function.ofParts parts = .ok fn := by
  intro extent parts
  have hBounds : extent.Bounded :=
    ⟨by decide, by decide, by decide⟩
  have hParts : parts.WellFormed := ⟨rfl, rfl, rfl, rfl⟩
  rcases widths_least extent hBounds .compact rfl with
    ⟨hAddresses, _, hMakes⟩
  refine ⟨hBounds, rfl, rfl, ?_, hParts, rfl, ?_⟩
  · rw [hAddresses]
    intro hAtLeast
    exact absurd hAtLeast.slot (by decide)
  · rw [hMakes parts hParts rfl rfl]
    decide

end Extent

end RegisterVM
