import RegisterVM.Encoding.Decoder

/-
  Listings of code, one instruction a line:

    0: CONST_INT k0, s1
    4: CALL_VIRTUAL s1, #2, s2, n1, s0

  Key definitions include:
    * `Instr.text`
    * `Listing`
    * `Listing.ofCode`
    * `Listing.ofWidths`
-/

namespace RegisterVM

/- An instruction in listing form. -/
def Instr.text
    (instr : Instr) : String :=
  let operands := ", ".intercalate (instr.operands.map Operand.text)
  let head := s!"{instr.offset}: {instr.opcode.mnemonic}"
  if instr.operands.isEmpty then head else head ++ " " ++ operands

/- Why a buffer has no listing. -/
inductive ListingError where
  | encoding (cause : WidthError)
  | decode (cause : DecodeError)
  deriving DecidableEq, Repr

/- What a listing fault says, and then its cause. -/
def ListingError.chain : ListingError → List String
  | encoding cause =>
    ["disassembler: inconsistent encoding", cause.message]
  | decode cause => [cause.message]

/- The text of a listing fault. -/
def ListingError.message
    (e : ListingError) : String :=
  ": ".intercalate e.chain

/- The lines of a listing, one per instruction. -/
structure Listing where
  lines : List String
  deriving DecidableEq, Repr

namespace Listing

/- The text of a listing, without a newline at its end. -/
def text
    (listing : Listing) : String :=
  "\n".intercalate listing.lines

/- List a buffer with a decoder, or report its first fault. -/
def ofCode
    (decoder : Decoder)
    (code : Code) : Except DecodeError Listing := do
  let instrs ← (decoder.instrs code).mapM id
  return ⟨instrs.map Instr.text⟩

/- List a buffer encoded at some widths. -/
def ofWidths
    (code : Code)
    (w : Widths) : Except ListingError Listing :=
  match Decoder.ofWidths w with
  | .error cause => .error (.encoding cause)
  | .ok decoder => (ofCode decoder code).mapError .decode

end Listing

end RegisterVM
