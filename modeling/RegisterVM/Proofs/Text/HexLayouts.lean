import Mathlib.Data.List.Induction
import RegisterVM.Encoding.Code
import RegisterVM.Text.Hex

/-
  Hexadecimal layouts. A text is a layout if its lines consist of
  words of digits, with blanks between the words and a comment at
  the end or none. Reading a text yields bytes exactly if it is a
  layout in which the digits of all words, in lower case, are the
  two digits of each of the bytes in turn; and it complains about
  the number of digits exactly if it is a layout of an odd number.

  Key definitions include:
    * `Text.HexWord`
    * `Text.HexWords`
    * `Text.HexLine`
    * `Text.HexText`
    * `Text.spelling`
    * `Text.HexLayout`

  Key theorems include:
    * `Text.cut_induction`
    * `Text.hexText_iff`
    * `Text.spelled_iff`
    * `Text.parseHex_layouts`
-/

namespace RegisterVM

namespace Text

------------------------------------------------------------
-- Cutting
------------------------------------------------------------

section Cuts

variable {isSeparator : Char → Bool}

theorem cut_eq_splitOnP
    (text : List Char) :
    cut isSeparator text = text.splitOnP isSeparator := by
  induction text with
  | nil => rfl
  | cons c rest ih =>
      rw [cut, List.splitOnP_cons_eq_if_modifyHead, ih]
      split
      next => rfl
      next =>
        cases hParts : rest.splitOnP isSeparator with
        | nil => exact absurd hParts (List.splitOnP_ne_nil _ _)
        | cons part parts => rfl

/- Without a separator there is one part. -/
theorem cut_last
    {part : List Char}
    (hPart : ∀ c ∈ part, isSeparator c = false) :
    cut isSeparator part = [part] := by
  rw [cut_eq_splitOnP]
  exact List.splitOnP_eq_singleton hPart

/- The first separator ends the first part. -/
theorem cut_next
    {part rest : List Char}
    {sep : Char}
    (hPart : ∀ c ∈ part, isSeparator c = false)
    (hSep : isSeparator sep = true) :
    cut isSeparator (part ++ sep :: rest) =
      part :: cut isSeparator rest := by
  rw [cut_eq_splitOnP, cut_eq_splitOnP]
  exact List.splitOnP_append_cons_of_forall_mem hPart sep hSep rest

/-
  Induction over the parts of a text: the last one, which no
  separator ends, and those before, each with its separator.
-/
theorem cut_induction
    (isSeparator : Char → Bool)
    {motive : List Char → Prop}
    (last :
      ∀ part, (∀ c ∈ part, isSeparator c = false) → motive part)
    (next :
      ∀ part sep rest, (∀ c ∈ part, isSeparator c = false) →
        isSeparator sep = true → motive rest →
        motive (part ++ sep :: rest))
    (text : List Char) :
    motive text := by
  suffices hParts :
      ∀ part, (∀ c ∈ part, isSeparator c = false) →
        motive (part ++ text) from hParts [] nofun
  induction text with
  | nil =>
      intro part hPart
      rw [List.append_nil]
      exact last part hPart
  | cons c rest ih =>
      intro part hPart
      cases hSep : isSeparator c with
      | true => exact next part c rest hPart hSep (ih [] nofun)
      | false =>
          have hLonger : ∀ d ∈ part ++ [c], isSeparator d = false := by
            intro d hMem
            rcases List.mem_append.mp hMem with hOld | hNew
            · exact hPart d hOld
            · rwa [List.mem_singleton.mp hNew]
          have hMotive := ih (part ++ [c]) hLonger
          rwa [List.append_assoc, List.singleton_append] at hMotive

end Cuts

------------------------------------------------------------
-- Layouts
------------------------------------------------------------

/- The digits, with letters of either case. -/
def hexAlphabet : List Char :=
  ['0', '1', '2', '3', '4', '5', '6', '7', '8', '9',
    'a', 'b', 'c', 'd', 'e', 'f', 'A', 'B', 'C', 'D', 'E', 'F']

/- Whether a character is a digit. -/
def IsHexDigit
    (c : Char) : Prop :=
  c ∈ hexAlphabet

instance
    (c : Char) :
    Decidable (IsHexDigit c) :=
  inferInstanceAs (Decidable (c ∈ _))

/- A word, and its digits: all of them, or those after a mark. -/
inductive HexWord : List Char → List Char → Prop where
  | plain {digits : List Char}
      (hNonempty : digits ≠ [])
      (hDigits : ∀ c ∈ digits, IsHexDigit c) :
    HexWord digits digits
  | marked {digits : List Char}
      (hDigits : ∀ c ∈ digits, IsHexDigit c) :
    HexWord ('0' :: 'x' :: digits) digits

/- Words and blanks, a blank after each word but the last. -/
inductive HexWords : List Char → List Char → Prop where
  | nil : HexWords [] []
  | blank {c : Char} {rest digits : List Char}
      (hBlank : isBlank c = true)
      (hRest : HexWords rest digits) :
    HexWords (c :: rest) digits
  | last {word digits : List Char}
      (hWord : HexWord word digits) :
    HexWords word digits
  | next {word rest digits digits' : List Char} {c : Char}
      (hWord : HexWord word digits)
      (hBlank : isBlank c = true)
      (hRest : HexWords rest digits') :
    HexWords (word ++ c :: rest) (digits ++ digits')

/- A line of words, with or without a comment after them. -/
inductive HexLine : List Char → List Char → Prop where
  | plain {body digits : List Char}
      (hBody : HexWords body digits) :
    HexLine body digits
  | commented {body digits : List Char}
      (hBody : HexWords body digits)
      (comment : List Char) :
    HexLine (body ++ '#' :: comment) digits

/- Lines, each but the last with a line end after it. -/
inductive HexText : List Char → List Char → Prop where
  | last {line digits : List Char}
      (hLine : HexLine line digits)
      (hWhole : '\n' ∉ line) :
    HexText line digits
  | next {line rest digits digits' : List Char}
      (hLine : HexLine line digits)
      (hWhole : '\n' ∉ line)
      (hRest : HexText rest digits') :
    HexText (line ++ '\n' :: rest) (digits ++ digits')

/- Two lower-case digits for each byte, one after the other. -/
def spelling
    (bytes : List UInt8) : List Char :=
  bytes.flatMap fun b => (hexByte b).toList

/- Lines of words whose digits, in lower case, spell bytes. -/
def HexLayout
    (text : List Char)
    (bytes : List UInt8) : Prop :=
  ∃ digits, HexText text digits ∧ digits.map lower = spelling bytes

------------------------------------------------------------
-- Digits
------------------------------------------------------------

/- A digit has the value whose digit it is in lower case. -/
theorem IsHexDigit.value
    {c : Char}
    (hDigit : IsHexDigit c) :
    ∃ v < 16, hexDigit? c = some v ∧ lower c = Nat.digitChar v := by
  have hAll :
      hexAlphabet.all (fun d => decide
        (∃ v : Nat, v < 16 ∧ hexDigit? d = some v ∧
          lower d = Nat.digitChar v)) = true := by
    decide
  exact of_decide_eq_true (List.all_eq_true.mp hAll c hDigit)

/- The digits are the characters that have a value. -/
theorem isHexDigit_iff
    (c : Char) :
    IsHexDigit c ↔ hexDigit? c ≠ none := by
  constructor
  · intro hDigit
    rcases hDigit.value with ⟨v, _, hValue, _⟩
    rw [hValue]
    exact Option.some_ne_none v
  · intro hSome
    have hSmall : c.toNat < 128 := by
      have hUpTo : ∀ d : Char, c ≤ d → c.toNat ≤ d.toNat :=
        fun d hLe => hLe
      unfold hexDigit? at hSome
      split at hSome
      next h => exact Nat.lt_of_le_of_lt (hUpTo _ h.2) (by decide)
      next =>
        split at hSome
        next h => exact Nat.lt_of_le_of_lt (hUpTo _ h.2) (by decide)
        next =>
          split at hSome
          next h =>
            exact Nat.lt_of_le_of_lt (hUpTo _ h.2) (by decide)
          next => exact absurd rfl hSome
    have hAll :
        ∀ n < 128,
          hexDigit? (Char.ofNat n) ≠ none →
            IsHexDigit (Char.ofNat n) := by
      decide +kernel
    have hDigit := hAll c.toNat hSmall
    rw [Char.ofNat_toNat] at hDigit
    exact hDigit hSome

------------------------------------------------------------
-- Words
------------------------------------------------------------

theorem words_blank
    {c : Char}
    {rest : List Char}
    (hBlank : isBlank c = true) :
    words (c :: rest) = words rest := by
  have hNothing : ∀ d ∈ ([] : List Char), isBlank d = false := nofun
  have hCut : cut isBlank (c :: rest) = [] :: cut isBlank rest :=
    cut_next hNothing hBlank
  unfold words
  rw [hCut]
  rfl

theorem words_last
    {word : List Char}
    (hNonempty : word ≠ [])
    (hWord : ∀ c ∈ word, isBlank c = false) :
    words word = [word] := by
  unfold words
  rw [cut_last hWord]
  simp [hNonempty]

theorem words_next
    {word rest : List Char}
    {c : Char}
    (hNonempty : word ≠ [])
    (hWord : ∀ c ∈ word, isBlank c = false)
    (hBlank : isBlank c = true) :
    words (word ++ c :: rest) = word :: words rest := by
  unfold words
  rw [cut_next hWord hBlank, List.filter_cons_of_pos]
  simp [hNonempty]

namespace HexWord

variable {word digits : List Char}

/- A word has neither blanks nor hash signs. -/
theorem of_mem
    (hWord : HexWord word digits)
    {c : Char}
    (hMem : c ∈ word) :
    isBlank c = false ∧ c ≠ '#' := by
  have hAll :
      ('x' :: hexAlphabet).all (fun d => decide
        (isBlank d = false ∧ d ≠ '#')) = true := by
    decide
  suffices hWordChar : c ∈ 'x' :: hexAlphabet from
    of_decide_eq_true (List.all_eq_true.mp hAll c hWordChar)
  cases hWord with
  | plain _ hDigits =>
      exact List.mem_cons_of_mem _ (hDigits c hMem)
  | marked hDigits =>
      rcases List.mem_cons.mp hMem with rfl | hMem
      · decide
      · rcases List.mem_cons.mp hMem with rfl | hMem
        · exact List.mem_cons_self
        · exact List.mem_cons_of_mem _ (hDigits c hMem)

theorem ne_nil
    (hWord : HexWord word digits) :
    word ≠ [] := by
  cases hWord with
  | plain hNonempty _ => exact hNonempty
  | marked _ => exact List.cons_ne_nil _ _

end HexWord

/- A word of a layout is one with digits after its mark. -/
theorem hexWord_iff
    {word : List Char}
    (hNonempty : word ≠ [])
    (digits : List Char) :
    HexWord word digits ↔
      digits = dropMark word ∧ ∀ c ∈ digits, IsHexDigit c := by
  constructor
  · intro hWord
    cases hWord with
    | marked hDigits => exact ⟨rfl, hDigits⟩
    | plain _ hDigits =>
        refine ⟨?_, hDigits⟩
        unfold dropMark
        split
        next rest =>
          exact absurd (hDigits 'x' (by simp)) (by decide)
        next => rfl
  · rintro ⟨rfl, hDigits⟩
    unfold dropMark at hDigits ⊢
    split at hDigits
    next => exact .marked hDigits
    next => exact .plain hNonempty hDigits

/- The digits of a body are those of its words. -/
theorem hexWords_iff
    (body digits : List Char) :
    HexWords body digits ↔
      digits = (words body).flatMap dropMark ∧
        ∀ c ∈ digits, IsHexDigit c := by
  constructor
  · intro hBody
    induction hBody with
    | nil => exact ⟨rfl, nofun⟩
    | blank hBlank _ ih =>
        rwa [words_blank hBlank]
    | last hWord =>
        rw [words_last hWord.ne_nil fun c hMem => (hWord.of_mem hMem).1,
          List.flatMap_singleton]
        exact (hexWord_iff hWord.ne_nil _).mp hWord
    | next hWord hBlank _ ih =>
        have hFirst := (hexWord_iff hWord.ne_nil _).mp hWord
        rw [words_next hWord.ne_nil
          (fun c hMem => (hWord.of_mem hMem).1) hBlank,
          List.flatMap_cons, ← hFirst.1, ← ih.1]
        refine ⟨rfl, ?_⟩
        intro c hMem
        rcases List.mem_append.mp hMem with hMem | hMem
        · exact hFirst.2 c hMem
        · exact ih.2 c hMem
  · rintro ⟨rfl, hDigits⟩
    induction body using cut_induction isBlank with
    | last part hPart =>
        by_cases hNonempty : part = []
        · subst hNonempty
          exact .nil
        · rw [words_last hNonempty hPart,
            List.flatMap_singleton] at hDigits ⊢
          exact .last ((hexWord_iff hNonempty _).mpr ⟨rfl, hDigits⟩)
    | next part sep rest hPart hSep ih =>
        by_cases hNonempty : part = []
        · subst hNonempty
          rw [List.nil_append, words_blank hSep] at hDigits ⊢
          exact .blank hSep (ih hDigits)
        · rw [words_next hNonempty hPart hSep,
            List.flatMap_cons] at hDigits ⊢
          have hWord :=
            (hexWord_iff hNonempty _).mpr ⟨rfl, fun c hMem =>
              hDigits c (List.mem_append_left _ hMem)⟩
          exact .next hWord hSep
            (ih fun c hMem => hDigits c (List.mem_append_right _ hMem))

------------------------------------------------------------
-- Lines
------------------------------------------------------------

theorem beforeComment_append
    {body : List Char}
    (hNone : '#' ∉ body)
    (rest : List Char) :
    beforeComment (body ++ rest) = body ++ beforeComment rest := by
  apply List.takeWhile_append_of_pos
  intro c hMem
  simpa using fun hHash : c = '#' => hNone (hHash ▸ hMem)

theorem beforeComment_of_notMem
    {line : List Char}
    (hNone : '#' ∉ line) :
    beforeComment line = line := by
  have hAll := beforeComment_append hNone []
  rw [List.append_nil] at hAll
  rw [hAll]
  exact List.append_nil line

theorem beforeComment_comment
    {body : List Char}
    (hNone : '#' ∉ body)
    (comment : List Char) :
    beforeComment (body ++ '#' :: comment) = body := by
  rw [beforeComment_append hNone]
  exact List.append_nil body

/- Before a comment there is no hash sign. -/
theorem HexWords.notMem
    {body digits : List Char}
    (hBody : HexWords body digits) :
    '#' ∉ body := by
  have hHash : isBlank '#' = false := by decide
  induction hBody with
  | nil => exact List.not_mem_nil
  | blank hBlank _ ih =>
      intro hMem
      rcases List.mem_cons.mp hMem with rfl | hMem
      · rw [hHash] at hBlank
        cases hBlank
      · exact ih hMem
  | last hWord => exact fun hMem => (hWord.of_mem hMem).2 rfl
  | next hWord hBlank _ ih =>
      intro hMem
      rcases List.mem_append.mp hMem with hMem | hMem
      · exact (hWord.of_mem hMem).2 rfl
      · rcases List.mem_cons.mp hMem with rfl | hMem
        · rw [hHash] at hBlank
          cases hBlank
        · exact ih hMem

/- The digits of a line are those of the words before a comment. -/
theorem hexLine_iff
    (line digits : List Char) :
    HexLine line digits ↔
      digits = (words (beforeComment line)).flatMap dropMark ∧
        ∀ c ∈ digits, IsHexDigit c := by
  constructor
  · intro hLine
    cases hLine with
    | plain hBody =>
        rw [beforeComment_of_notMem hBody.notMem]
        exact (hexWords_iff _ _).mp hBody
    | commented hBody comment =>
        rw [beforeComment_comment hBody.notMem]
        exact (hexWords_iff _ _).mp hBody
  · intro hDigits
    by_cases hHash : '#' ∈ line
    · rcases List.eq_append_cons_of_mem hHash with
        ⟨body, comment, rfl, hNone⟩
      rw [beforeComment_comment hNone] at hDigits
      exact .commented ((hexWords_iff _ _).mpr hDigits) comment
    · rw [beforeComment_of_notMem hHash] at hDigits
      exact .plain ((hexWords_iff _ _).mpr hDigits)

------------------------------------------------------------
-- Texts
------------------------------------------------------------

theorem hexDigits_last
    {line : List Char}
    (hWhole : '\n' ∉ line) :
    hexDigits line =
      (words (beforeComment line)).flatMap dropMark := by
  unfold hexDigits
  rw [cut_last, List.flatMap_singleton]
  intro c hMem
  simpa using fun hEnd : c = '\n' => hWhole (hEnd ▸ hMem)

theorem hexDigits_next
    {line : List Char}
    (hWhole : '\n' ∉ line)
    (rest : List Char) :
    hexDigits (line ++ '\n' :: rest) =
      (words (beforeComment line)).flatMap dropMark ++
        hexDigits rest := by
  unfold hexDigits
  rw [cut_next _ (by decide), List.flatMap_cons]
  intro c hMem
  simpa using fun hEnd : c = '\n' => hWhole (hEnd ▸ hMem)

/- A text is made of lines of words exactly if it has digits only. -/
theorem hexText_iff
    (text digits : List Char) :
    HexText text digits ↔
      digits = hexDigits text ∧ ∀ c ∈ digits, IsHexDigit c := by
  constructor
  · intro hText
    induction hText with
    | last hLine hWhole =>
        rw [hexDigits_last hWhole]
        exact (hexLine_iff _ _).mp hLine
    | next hLine hWhole _ ih =>
        have hFirst := (hexLine_iff _ _).mp hLine
        rw [hexDigits_next hWhole, ← hFirst.1, ← ih.1]
        refine ⟨rfl, ?_⟩
        intro c hMem
        rcases List.mem_append.mp hMem with hMem | hMem
        · exact hFirst.2 c hMem
        · exact ih.2 c hMem
  · rintro ⟨rfl, hDigits⟩
    induction text using cut_induction (· = '\n') with
    | last line hLine =>
        have hWhole : '\n' ∉ line := fun hMem =>
          absurd (hLine _ hMem) (by decide)
        rw [hexDigits_last hWhole] at hDigits ⊢
        exact .last ((hexLine_iff _ _).mpr ⟨rfl, hDigits⟩) hWhole
    | next line sep rest hLine hSep ih =>
        have hWhole : '\n' ∉ line := fun hMem =>
          absurd (hLine _ hMem) (by decide)
        have hEnd : sep = '\n' := of_decide_eq_true hSep
        subst hEnd
        rw [hexDigits_next hWhole] at hDigits ⊢
        have hFirst :=
          (hexLine_iff line _).mpr ⟨rfl, fun c hMem =>
            hDigits c (List.mem_append_left _ hMem)⟩
        exact .next hFirst hWhole
          (ih fun c hMem => hDigits c (List.mem_append_right _ hMem))

------------------------------------------------------------
-- Bytes
------------------------------------------------------------

@[simp]
theorem spelling_nil :
    spelling [] = [] :=
  rfl

@[simp]
theorem spelling_cons
    (b : UInt8)
    (bytes : List UInt8) :
    spelling (b :: bytes) =
      Nat.digitChar (b.toNat / 16) :: Nat.digitChar (b.toNat % 16) ::
        spelling bytes := by
  rw [spelling, List.flatMap_cons, hexByte, String.toList_ofList]
  rfl

/- Two digits are those of the byte with their values as halves. -/
theorem digitChars_iff
    {high low : Nat}
    (hHigh : high < 16)
    (hLow : low < 16)
    (b : UInt8) :
    Nat.digitChar high = Nat.digitChar (b.toNat / 16) ∧
        Nat.digitChar low = Nat.digitChar (b.toNat % 16) ↔
      UInt8.ofNat (16 * high + low) = b := by
  have hInj :
      ∀ m < 16, ∀ n < 16,
        Nat.digitChar m = Nat.digitChar n → m = n := by
    decide
  have hByte := b.toNat_lt
  constructor
  · rintro ⟨hFirst, hSecond⟩
    have hHighSame := hInj _ hHigh _ (by omega) hFirst
    have hLowSame := hInj _ hLow _ (by omega) hSecond
    apply UInt8.toNat_inj.mp
    rw [UInt8.toNat_ofNat']
    omega
  · rintro rfl
    rw [UInt8.toNat_ofNat', Nat.mod_eq_of_lt (by omega),
      show (16 * high + low) / 16 = high by omega,
      show (16 * high + low) % 16 = low by omega]
    exact ⟨rfl, rfl⟩

/- Digits spell bytes exactly if they are read as these, in pairs. -/
theorem spelled_iff
    (digits : List Char)
    (hDigits : ∀ c ∈ digits, IsHexDigit c)
    (bytes : List UInt8) :
    digits.map lower = spelling bytes ↔
      digits.length % 2 = 0 ∧
        pairBytes (digits.filterMap hexDigit?) = bytes := by
  induction digits using List.twoStepInduction generalizing bytes with
  | nil => cases bytes <;> simp [pairBytes]
  | singleton c => cases bytes <;> simp
  | cons_cons high low rest ih _ =>
      rcases (hDigits high (by simp)).value with
        ⟨m, hHigh, hHighValue, hHighChar⟩
      rcases (hDigits low (by simp)).value with
        ⟨n, hLow, hLowValue, hLowChar⟩
      have hRest := ih fun c hMem => hDigits c (by simp [hMem])
      rw [List.filterMap_cons_some hHighValue,
        List.filterMap_cons_some hLowValue, pairBytes, List.map_cons,
        List.map_cons, hHighChar, hLowChar, List.length_cons,
        List.length_cons, Nat.add_assoc, Nat.add_mod_right]
      cases bytes with
      | nil => simp
      | cons b bytes =>
          rw [spelling_cons, List.cons.injEq, List.cons.injEq,
            List.cons.injEq, hRest, ← and_assoc,
            digitChars_iff hHigh hLow]
          exact and_left_comm

------------------------------------------------------------
-- Reading
------------------------------------------------------------

/- Reading complains about the first character that is no digit. -/
theorem parseHex_of_notDigit
    {text : List Char}
    (hDigits : ¬∀ c ∈ hexDigits text, IsHexDigit c) :
    ∃ c, parseHex text = .error (.digit c) := by
  unfold parseHex
  dsimp only
  split
  next c _ => exact ⟨c, rfl⟩
  next hNone =>
    apply absurd _ hDigits
    intro c hMem
    have hValue := List.find?_eq_none.mp hNone c hMem
    rw [isHexDigit_iff]
    simpa using hValue

/- Digits are read in pairs, if their number is even. -/
theorem parseHex_of_digits
    {text : List Char}
    (hDigits : ∀ c ∈ hexDigits text, IsHexDigit c) :
    parseHex text =
      if (hexDigits text).length % 2 = 0 then
        .ok (pairBytes ((hexDigits text).filterMap hexDigit?))
      else
        .error (.odd (hexDigits text).length) := by
  have hNone :
      (hexDigits text).find? (fun c => (hexDigit? c).isNone) =
        none := by
    apply List.find?_eq_none.mpr
    intro c hMem
    have hSome := (isHexDigit_iff c).mp (hDigits c hMem)
    simpa using hSome
  unfold parseHex
  dsimp only
  rw [hNone]

/- A layout of bytes has digits only, and those in pairs. -/
theorem hexLayout_iff
    (text : List Char)
    (bytes : List UInt8) :
    HexLayout text bytes ↔
      (∀ c ∈ hexDigits text, IsHexDigit c) ∧
        (hexDigits text).length % 2 = 0 ∧
        pairBytes ((hexDigits text).filterMap hexDigit?) = bytes := by
  constructor
  · rintro ⟨digits, hText, hSpelled⟩
    rcases (hexText_iff _ _).mp hText with ⟨rfl, hDigits⟩
    exact ⟨hDigits, (spelled_iff _ hDigits bytes).mp hSpelled⟩
  · rintro ⟨hDigits, hBytes⟩
    exact ⟨hexDigits text, (hexText_iff _ _).mpr ⟨rfl, hDigits⟩,
      (spelled_iff _ hDigits bytes).mpr hBytes⟩

/-
  Reading a text yields bytes exactly if the text is a layout of
  them. From a text that is a layout of no bytes it yields an
  error, and the error is about the number of digits exactly if
  the text is made of lines of words with that number of digits,
  which is odd.
-/
theorem parseHex_layouts
    (text : List Char) :
    (∀ bytes,
      parseHex text = .ok bytes ↔ HexLayout text bytes) ∧
      ((∀ bytes, ¬HexLayout text bytes) →
        ∃ e, parseHex text = .error e ∧
          ∀ count, e = .odd count ↔
            ∃ digits, HexText text digits ∧
              digits.length = count ∧ count % 2 = 1) := by
  by_cases hDigits : ∀ c ∈ hexDigits text, IsHexDigit c
  · have hRead := parseHex_of_digits hDigits
    by_cases hEven : (hexDigits text).length % 2 = 0
    · rw [if_pos hEven] at hRead
      have hLayout := (hexLayout_iff text _).mpr ⟨hDigits, hEven, rfl⟩
      refine ⟨?_, fun hNone => absurd hLayout (hNone _)⟩
      intro bytes
      rw [hRead, hexLayout_iff, Except.ok.injEq]
      exact ⟨fun hBytes => ⟨hDigits, hEven, hBytes⟩, fun h => h.2.2⟩
    · rw [if_neg hEven] at hRead
      refine ⟨?_, fun _ => ⟨_, hRead, ?_⟩⟩
      · intro bytes
        rw [hRead, hexLayout_iff]
        exact ⟨nofun, fun h => absurd h.2.1 hEven⟩
      · intro count
        rw [HexError.odd.injEq]
        constructor
        · rintro rfl
          exact ⟨_, (hexText_iff _ _).mpr ⟨rfl, hDigits⟩, rfl,
            by omega⟩
        · rintro ⟨digits, hText, hLength, _⟩
          rw [← hLength, ((hexText_iff _ _).mp hText).1]
  · rcases parseHex_of_notDigit hDigits with ⟨c, hError⟩
    refine ⟨?_, fun _ => ⟨_, hError, ?_⟩⟩
    · intro bytes
      rw [hError, hexLayout_iff]
      exact ⟨nofun, fun h => absurd h.1 hDigits⟩
    · intro count
      constructor
      · nofun
      · rintro ⟨digits, hText, _⟩
        rcases (hexText_iff _ _).mp hText with ⟨rfl, hAll⟩
        exact absurd hAll hDigits

/-
  A byte may begin in one line and end in the next, after a mark
  of its own; a text with one digit is a layout of no bytes.
-/
theorem parseHex_layouts_of_halves :
    HexLayout "a # b\n0xBc 0x\td".toList [0xab, 0xcd] ∧
      (∀ bytes, ¬HexLayout "0".toList bytes) ∧
      ∃ e, parseHex "0".toList = .error e ∧ e = .odd 1 := by
  have hOdd : parseHex "0".toList = .error (.odd 1) := by
    decide +kernel
  have hNone : ∀ bytes, ¬HexLayout "0".toList bytes := by
    intro bytes hLayout
    have hRead := ((parseHex_layouts _).1 bytes).mpr hLayout
    rw [hOdd] at hRead
    cases hRead
  refine ⟨?_, hNone, ?_⟩
  · apply ((parseHex_layouts _).1 _).mp
    decide +kernel
  · rcases (parseHex_layouts _).2 hNone with ⟨e, hError, hCount⟩
    have hDigits : ∀ c ∈ ['0'], IsHexDigit c :=
      List.forall_mem_singleton.mpr (by decide)
    have hWord : HexWord ['0'] ['0'] :=
      .plain (List.cons_ne_nil _ _) hDigits
    have hText : HexText "0".toList ['0'] :=
      .last (.plain (.last hWord)) (by decide)
    exact ⟨e, hError, (hCount 1).mpr ⟨['0'], hText, rfl, rfl⟩⟩

end Text

end RegisterVM
