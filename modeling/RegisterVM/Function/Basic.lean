import RegisterVM.Dispatch.Machine
import RegisterVM.Function.Constant
import RegisterVM.Listing

/-
  Compiled functions: code, constants and metadata that never
  change, and a table of call sites by code offset that is filled
  as calls are made.

  Key definitions include:
    * `ScopeSlots`
    * `FunctionParts`
    * `FunctionError`
    * `Function`
    * `Function.ofParts`
    * `Function.callSite`
    * `Function.listing`
-/

namespace RegisterVM

------------------------------------------------------------
-- Enclosing scopes
------------------------------------------------------------

/- A slot of an enclosing scope. -/
structure ScopeSlot where
  depth : Nat
  index : Nat
  name : Option String
  deriving DecidableEq, Repr

/- Slots of enclosing scopes, as three lists side by side. -/
structure ScopeSlots where
  depths : List Nat := []
  indices : List Nat := []
  names : List (Option String) := []
  deriving DecidableEq, Repr

namespace ScopeSlots

/- The number of slots. -/
def size
    (scope : ScopeSlots) : Nat :=
  scope.depths.length

/- One slot. -/
def get?
    (scope : ScopeSlots)
    (i : Nat) : Option ScopeSlot := do
  let depth ← scope.depths[i]?
  let index ← scope.indices[i]?
  let name ← scope.names[i]?
  return { depth, index, name }

/- All slots, in order. -/
def toList
    (scope : ScopeSlots) : List ScopeSlot :=
  (List.range scope.size).filterMap scope.get?

end ScopeSlots

------------------------------------------------------------
-- Construction
------------------------------------------------------------

/- What a compiler delivers. -/
structure FunctionParts where
  name : String
  localCount : Nat := 0
  argCount : Nat := 0
  scopeCount : Nat := 0
  scope : ScopeSlots := {}
  widths : Widths := .compact
  consts : Array Constant := #[]
  statements : Array Statement := #[]
  code : Code := #[]
  tuning : Tuning := {}
  deriving Repr

/- Why parts make no function. -/
inductive FunctionFault where
  | widths (cause : WidthError)
  | scope (depths indices names expected : Nat)
  | slots (count : Nat) (width : UInt8)
  | tuning (cause : TuningError)
  deriving DecidableEq, Repr

/- A fault in the parts of a named function. -/
structure FunctionError where
  name : String
  fault : FunctionFault
  deriving DecidableEq, Repr

/- The text of a fault, without the function's name. -/
def FunctionFault.message : FunctionFault → String
  | widths cause => cause.message
  | scope depths indices names expected =>
    s!"scope slot arrays have lengths {depths}/{indices}/{names}, "
      ++ s!"expected {expected}"
  | slots count width =>
    s!"{count} slots do not fit {width}-byte slot indices"
  | tuning cause => cause.message

/- What a construction fault says, and then its cause. -/
def FunctionError.chain
    (e : FunctionError) : List String :=
  [s!"function '{e.name}'", e.fault.message]

/- The text of a construction fault. -/
def FunctionError.message
    (e : FunctionError) : String :=
  ": ".intercalate e.chain

/- A compiled function and the sites of its calls, by offset. -/
structure Function where
  name : String
  localCount : Nat
  argCount : Nat
  scope : ScopeSlots
  widths : Widths
  decoder : Decoder
  consts : Array Constant
  statements : Array Statement
  code : Code
  tuning : Tuning
  sites : List (Nat × SiteId) := []
  deriving Repr

namespace Function

/- Check parts and make a function of them. -/
def ofParts
    (parts : FunctionParts) : Except FunctionError Function := do
  let fault (f : FunctionFault) : FunctionError := ⟨parts.name, f⟩
  let decoder ←
    (Decoder.ofWidths parts.widths).mapError fun e => fault (.widths e)
  let scope := parts.scope
  unless scope.depths.length = parts.scopeCount
      ∧ scope.indices.length = parts.scopeCount
      ∧ scope.names.length = parts.scopeCount do
    throw (fault (.scope scope.depths.length scope.indices.length
      scope.names.length parts.scopeCount))
  let slots := parts.localCount + parts.argCount
  if parts.widths.maxValue .slot + 1 < slots then
    throw (fault (.slots slots parts.widths.slot))
  parts.tuning.check.mapError fun e => fault (.tuning e)
  return {
    name := parts.name
    localCount := parts.localCount
    argCount := parts.argCount
    scope
    widths := parts.widths
    decoder
    consts := parts.consts
    statements := parts.statements
    code := parts.code
    tuning := parts.tuning }

/- The event of a compilation. -/
def compiledEvent
    (fn : Function) : Trace.Event :=
  .compiled fn.name fn.localCount fn.argCount fn.code.size
    fn.consts.size fn.widths.text

------------------------------------------------------------
-- Constants
------------------------------------------------------------

/- A constant by id. -/
def constant?
    (fn : Function)
    (id : Nat) : Option Constant :=
  fn.consts[id]?

/- Why an id names no method. -/
inductive NameError where
  | notName (id : Nat) (kind : String)
  | outOfRange (id count : Nat)
  deriving DecidableEq, Repr

/- The text of a name fault. -/
def NameError.message : NameError → String
  | notName id kind => s!"constant k{id} is {kind}, not a method name"
  | outOfRange id count =>
    s!"constant k{id} out of range ({count} constants)"

/- The method name that an id stands for. -/
def methodName
    (fn : Function)
    (id : Nat) : Except NameError String :=
  match fn.constant? id with
  | some (.str name) => .ok name
  | some other => .error (.notName id other.kind)
  | none => .error (.outOfRange id fn.consts.size)

------------------------------------------------------------
-- Call sites
------------------------------------------------------------

/- The site at an offset, if one was made. -/
def site?
    (fn : Function)
    (offset : Nat) : Option SiteId :=
  fn.sites.lookup offset

/- Put a site into a table ordered by offset. -/
def insertSite
    (offset : Nat)
    (id : SiteId) : List (Nat × SiteId) → List (Nat × SiteId)
  | [] => [(offset, id)]
  | first :: rest =>
    if first.1 < offset then
      first :: insertSite offset id rest
    else
      (offset, id) :: first :: rest

/- The site at an offset, made on first use. -/
def callSite
    (fn : Function)
    (world : World)
    (offset : Nat)
    (name : String) : SiteId × Function × World :=
  match fn.site? offset with
  | some id => (id, fn, world)
  | none =>
    let (id, world) := world.newSite name fn.tuning
    (id, { fn with sites := insertSite offset id fn.sites }, world)

/- The counters of all sites, by offset. -/
def siteReports
    (fn : Function)
    (world : World) : List SiteReport :=
  fn.sites.filterMap fun (offset, id) =>
    world.sites[id]?.map fun site =>
      ⟨offset, site.name, site.state.stats⟩

------------------------------------------------------------
-- Text
------------------------------------------------------------

/- A function without its contents. -/
def debug
    (fn : Function) : String :=
  let w := fn.widths
  "CompiledFunction \x7b name: " ++ Text.quote fn.name
    ++ s!", local_count: {fn.localCount}, arg_count: {fn.argCount}, "
    ++ s!"widths: EncodingWidths \x7b slot: {w.slot}, ip: {w.ip}, "
    ++ s!"konst: {w.konst} \x7d, code_len: {fn.code.size}, "
    ++ s!"consts: {fn.consts.size}, call_sites: {fn.sites.length} \x7d"

/- A fault in the code of a named function. -/
structure CodeError where
  name : String
  cause : DecodeError
  deriving DecidableEq, Repr

/- What a code fault says, and then its cause. -/
def CodeError.chain
    (e : CodeError) : List String :=
  [s!"disassembling '{e.name}'", e.cause.message]

/- The text of a code fault. -/
def CodeError.message
    (e : CodeError) : String :=
  ": ".intercalate e.chain

/- The code of a function, one instruction a line. -/
def codeListing
    (fn : Function) : Except CodeError Listing :=
  (Listing.ofCode fn.decoder fn.code).mapError fun cause =>
    ⟨fn.name, cause⟩

/- The line of a constant in a listing. -/
def constantLine
    (heap : Heap)
    (c : Constant)
    (i : Nat) : String :=
  s!"  k{i} = {c.text heap}\n"

/- The line of a scope slot in a listing. -/
def scopeLine
    (slot : ScopeSlot)
    (i : Nat) : String :=
  let name := slot.name.getD "_"
  s!"  {i}: depth={slot.depth} index={slot.index} name={name}\n"

/- The head of a listing: metadata, constants, scope slots. -/
def listingHead
    (fn : Function)
    (heap : Heap) : String :=
  let title :=
    s!"fn {fn.name} locals={fn.localCount} args={fn.argCount} "
      ++ s!"widths={fn.widths.text}\n"
  let consts :=
    if fn.consts.isEmpty then ""
    else
      "consts:\n" ++ String.join
        (fn.consts.toList.zipIdx.map fun (c, i) => constantLine heap c i)
  let scopes :=
    if fn.scope.depths.isEmpty then ""
    else
      "scope slots:\n" ++ String.join
        (fn.scope.toList.zipIdx.map fun (slot, i) => scopeLine slot i)
  title ++ consts ++ scopes

/- The full listing of a function. -/
def listing
    (fn : Function)
    (heap : Heap) : Except CodeError String := do
  let code ← fn.codeListing
  return fn.listingHead heap ++ "code:\n" ++ code.text

end Function

end RegisterVM
